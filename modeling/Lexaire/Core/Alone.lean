import Lexaire.Core.Interference
import Lexaire.Core.Transition

/-! A program that runs with nobody else touching its state. Each turn performs
its next operation; the run records the operations with their answers. -/
namespace Atomic
open Transition
variable {Op : Type} {Answer : Op → Type} {ε α β σ : Type}

abbrev Event (Answer : Op → Type) := (op : Op) × Answer op

/-- What the operations may answer and do, with no other thread. -/
def Setting.alone (performs : (op : Op) → σ → Answer op → σ → Prop) : Setting Op Answer σ where
  env _ _ := False
  performs := performs

/-- The state with the events so far beside it. -/
def traced (performs : (op : Op) → σ → Answer op → σ → Prop) (op : Op)
    (s : σ × List (Event Answer)) (r : Answer op) (s' : σ × List (Event Answer)) : Prop :=
  performs op s.1 r s'.1 ∧ s'.2 = s.2 ++ [⟨op, r⟩]

inductive Turn (performs : (op : Op) → σ → Answer op → σ → Prop) :
    Program Op Answer ε α × σ → Event Answer → Program Op Answer ε α × σ → Prop where
  | perform {op : Op} {next : Answer op → Program Op Answer ε α} {s s' : σ} (r : Answer op) :
      performs op s r s' → Turn performs (.step op next, s) ⟨op, r⟩ (next r, s')

namespace Program
variable {performs : (op : Op) → σ → Answer op → σ → Prop} {good : Op → σ → Prop}
  {post : Except ε α → σ → Prop}

theorem Holds.turn {c d : Program Op Answer ε α × σ} {e : Event Answer}
    (turn : Turn performs c e d) (h : c.1.Holds (.alone performs) good post c.2) :
    d.1.Holds (.alone performs) good post d.2 := by
  cases turn with
  | perform r effect => exact h.performed effect

theorem Holds.along {c d : Program Op Answer ε α × σ} {path : List _}
    (run : Run (Turn performs) c path d) (h : c.1.Holds (.alone performs) good post c.2) :
    d.1.Holds (.alone performs) good post d.2 :=
  Run.invariant_always (I := fun c => c.1.Holds (.alone performs) good post c.2)
    (fun h turn => Holds.turn turn h) run h

/-! The proof rules, for a state that stands still between operations. -/

theorem alone_stable (P : σ → Prop) : (Setting.alone performs).Stable P := by
  intro s s' moved
  cases moved

theorem Holds.alone_done {a : α} {s : σ} (h : post (.ok a) s) :
    (done a : Program Op Answer ε α).Holds (.alone performs) good post s :=
  .of_done (alone_stable (· = s)) rfl fun _ same => same ▸ h

theorem Holds.alone_raise {e : ε} {s : σ} (h : post (.error e) s) :
    (raise e : Program Op Answer ε α).Holds (.alone performs) good post s :=
  .of_raise (alone_stable (· = s)) rfl fun _ same => same ▸ h

theorem Holds.alone_step {op : Op} {next : Answer op → Program Op Answer ε α} {s : σ}
    (now : good op s)
    (after : ∀ r s', performs op s r s' → (next r).Holds (.alone performs) good post s') :
    (step op next).Holds (.alone performs) good post s := by
  refine .of_step (alone_stable (· = s)) rfl (fun s' same => same ▸ now) ?_
  intro s' r s'' same effect
  exact after r s'' (same ▸ effect)

theorem Holds.alone_all {φ : Op → Prop} {P : σ → Prop} {p : Program Op Answer ε α} {s : σ}
    (all : p.All φ) (kept : ∀ op s r s', φ op → P s → performs op s r s' → P s')
    (now : ∀ op s, φ op → P s → good op s) (ended : ∀ result s, P s → post result s) (h : P s) :
    p.Holds (.alone performs) good post s :=
  .of_all (alone_stable P) all kept now ended h

/-- Of a program that raises nothing: what holds when it returns. -/
abbrev Leads (performs : (op : Op) → σ → Answer op → σ → Prop) (good : Op → σ → Prop)
    (post : α → σ → Prop) (p : Program Op Answer Empty α) (s : σ) : Prop :=
  p.Holds (.alone performs) good (fun result s => ∀ a, result = .ok a → post a s) s

theorem Leads.done {post : α → σ → Prop} {a : α} {s : σ} (h : post a s) :
    Leads performs good post (.done a) s :=
  .alone_done fun _ same => Except.ok.inj same ▸ h

theorem Leads.bind {mid : β → σ → Prop} {post : α → σ → Prop} {p : Program Op Answer Empty β}
    {f : β → Program Op Answer Empty α} {s : σ} (first : Leads performs good mid p s)
    (rest : ∀ b s, mid b s → Leads performs good post (f b) s) :
    Leads performs good post (p >>= f) s :=
  Holds.bind first (fun b s h => rest b s (h b rfl)) fun e => e.elim

end Program

/-- The turn that a script asks for, when it is that operation's. -/
def turn? [DecidableEq Op] (effect : (op : Op) → σ → Answer op → Option σ)
    (c : Program Op Answer ε α × σ) (e : Event Answer) : Option (Program Op Answer ε α × σ) := do
  let rest ← Program.resume? e.1 e.2 c.1
  let s ← effect e.1 c.2 e.2
  return (rest, s)

theorem turn?_sound [DecidableEq Op] {performs : (op : Op) → σ → Answer op → σ → Prop}
    {effect : (op : Op) → σ → Answer op → Option σ}
    (sound : ∀ {op s r s'}, effect op s r = some s' → performs op s r s')
    {c d : Program Op Answer ε α × σ} {e : Event Answer} (taken : turn? effect c e = some d) :
    Turn performs c e d := by
  obtain ⟨p, s⟩ := c
  simp only [turn?, Option.bind_eq_bind, Option.bind_eq_some_iff, Option.pure_def,
    Option.some.injEq] at taken
  obtain ⟨rest, resumed, s', performed, rfl⟩ := taken
  obtain ⟨next, rfl, rfl⟩ := Program.resume?_eq_some resumed
  exact .perform e.2 (sound performed)

end Atomic
