import Mathlib.Data.List.Infix

/-! Runs of a labelled transition relation. A run records, for every step, the
state it left and its label, so that properties of steps and of whole histories
are properties of one list. -/
namespace Transition
variable {σ ε : Type} {next : σ → ε → σ → Prop}

inductive Run (next : σ → ε → σ → Prop) : σ → List (σ × ε) → σ → Prop where
  | nil (s : σ) : Run next s [] s
  | snoc {s t u : σ} {path : List (σ × ε)} {e : ε} :
      Run next s path t → next t e u → Run next s (path ++ [(t, e)]) u

namespace Run

theorem trans {s t u : σ} {first second : List (σ × ε)} (h : Run next s first t)
    (h' : Run next t second u) : Run next s (first ++ second) u := by
  induction h' with
  | nil => simpa using h
  | snoc _ moved ih => simpa using ih.snoc moved

theorem single {s t : σ} {e : ε} (moved : next s e t) : Run next s [(s, e)] t :=
  (nil s).snoc moved

/-- An invariant that every step meeting `cond` keeps holds throughout the runs
all of whose steps meet it, and so does what it says of each step. -/
theorem invariant {I : σ → Prop} (cond good : σ → ε → Prop)
    (kept : ∀ {s e t}, I s → cond s e → next s e t → I t)
    (now : ∀ {s e t}, I s → cond s e → next s e t → good s e)
    {s t : σ} {path : List (σ × ε)} (run : Run next s path t) (initial : I s)
    (met : ∀ p ∈ path, cond p.1 p.2) : I t ∧ ∀ p ∈ path, good p.1 p.2 := by
  induction run with
  | nil => exact ⟨initial, by simp⟩
  | @snoc t u path e _ moved ih =>
    obtain ⟨holds, before⟩ := ih fun p member => met p (by simp [member])
    have here := met (t, e) (by simp)
    refine ⟨kept holds here moved, ?_⟩
    intro p member
    rcases List.mem_append.mp member with earlier | last
    · exact before p earlier
    · obtain rfl := List.mem_singleton.mp last
      exact now holds here moved

/-- The same with invariants and conditions that look back at the run so far. -/
theorem invariant_history {I : List (σ × ε) → σ → Prop} (cond : List (σ × ε) → σ × ε → Prop)
    (kept : ∀ {path s e t}, I path s → cond path (s, e) → next s e t → I (path ++ [(s, e)]) t)
    {s t : σ} {path : List (σ × ε)} (run : Run next s path t) (initial : I [] s)
    (met : ∀ before p after, path = before ++ p :: after → cond before p) : I path t := by
  induction run with
  | nil => exact initial
  | @snoc t u path e _ moved ih =>
    refine kept (ih fun before p after split => ?_) (met path (t, e) [] rfl) moved
    exact met before p (after ++ [(t, e)]) (by simp [split])

theorem invariant_always {I : σ → Prop} (kept : ∀ {s e t}, I s → next s e t → I t)
    {s t : σ} {path : List (σ × ε)} (run : Run next s path t) (initial : I s) : I t := by
  induction run with
  | nil => exact initial
  | snoc _ moved ih => exact kept ih moved

/-- A run is a run to any point of it and a run from there. -/
theorem cut {s u : σ} {path first second : List (σ × ε)} (run : Run next s path u)
    (at_point : path = first ++ second) : ∃ t, Run next s first t ∧ Run next t second u := by
  induction run generalizing second with
  | nil =>
    obtain ⟨rfl, rfl⟩ := List.append_eq_nil_iff.mp at_point.symm
    exact ⟨_, .nil _, .nil _⟩
  | @snoc t u path e earlier moved ih =>
    rcases List.eq_nil_or_concat' second with rfl | ⟨second, q, rfl⟩
    · obtain rfl : path ++ [(t, e)] = first := by simpa using at_point
      exact ⟨u, earlier.snoc moved, .nil u⟩
    · rw [← List.append_assoc] at at_point
      obtain ⟨shorter, last⟩ := List.append_inj' at_point rfl
      obtain rfl := List.singleton_inj.mp last
      obtain ⟨v, before, after⟩ := ih shorter
      exact ⟨v, before, after.snoc moved⟩

/-- The last step of a run starts where the run up to it ends. -/
theorem last {s t : σ} {path before : List (σ × ε)} {p : σ × ε} (run : Run next s path t)
    (at_end : path = before ++ [p]) : Run next s before p.1 ∧ next p.1 p.2 t := by
  cases run with
  | nil => simp at at_end
  | snoc earlier moved =>
    obtain ⟨rfl, same⟩ := List.append_inj' at_end rfl
    obtain rfl := List.singleton_inj.mp same
    exact ⟨earlier, moved⟩

theorem split {s t : σ} {path before after : List (σ × ε)} {p : σ × ε} (run : Run next s path t)
    (at_step : path = before ++ p :: after) : ∃ u, Run next s before p.1 ∧ next p.1 p.2 u := by
  obtain ⟨u, first, _⟩ := run.cut (at_step.trans (List.append_cons before p after))
  exact ⟨u, first.last rfl⟩

end Run

/-- Execute a list of labels, each of which decides what it leads to. -/
def replay (step? : σ → ε → Option σ) : σ → List ε → Option (List (σ × ε) × σ)
  | s, [] => some ([], s)
  | s, e :: rest =>
    match step? s e with
    | none => none
    | some t => (replay step? t rest).map fun ended => ((s, e) :: ended.1, ended.2)

theorem Run.of_replay {step? : σ → ε → Option σ}
    (sound : ∀ {s e t}, step? s e = some t → next s e t) {s t : σ} {es : List ε}
    {path : List (σ × ε)} (replayed : replay step? s es = some (path, t)) : Run next s path t := by
  induction es generalizing s path with
  | nil =>
    obtain ⟨rfl, rfl⟩ := Prod.mk.inj (Option.some.inj replayed)
    exact .nil s
  | cons e rest ih =>
    simp only [replay] at replayed
    cases moved : step? s e with
    | none => simp [moved] at replayed
    | some u =>
      simp only [moved, Option.map_eq_some_iff] at replayed
      obtain ⟨⟨path', t'⟩, ended, same⟩ := replayed
      obtain ⟨rfl, rfl⟩ := Prod.mk.inj same
      exact (Run.single (sound moved)).trans (ih ended)

end Transition
