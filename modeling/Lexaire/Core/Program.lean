import Mathlib.Logic.Relation

/-! Programs over atomic operations. A program is the tree of what it may still
do: a node names one operation and continues on its answer, so the residual
program is the program counter of a thread. One definition serves sequential
runs and every interleaving with other threads; exceptions are part of the tree. -/
namespace Atomic

inductive Program (Op : Type) (Answer : Op → Type) (ε α : Type) where
  | done (result : α)
  | raise (error : ε)
  | step (op : Op) (next : Answer op → Program Op Answer ε α)

namespace Program
variable {Op : Type} {Answer : Op → Type} {ε α β σ : Type}

def bind : Program Op Answer ε α → (α → Program Op Answer ε β) → Program Op Answer ε β
  | done a, f => f a
  | raise e, _ => raise e
  | step op next, f => step op fun r => (next r).bind f

instance : Monad (Program Op Answer ε) where
  pure := done
  bind := bind

/-- The handler sees the exceptions of every continuation. -/
def catching : Program Op Answer ε α → (ε → Program Op Answer ε α) → Program Op Answer ε α
  | done a, _ => done a
  | raise e, h => h e
  | step op next, h => step op fun r => (next r).catching h

def perform (op : Op) : Program Op Answer ε (Answer op) := step op done

def ofExcept : Except ε α → Program Op Answer ε α
  | .ok a => done a
  | .error e => raise e

@[simp] theorem pure_eq (a : α) : (pure a : Program Op Answer ε α) = done a := rfl

@[simp] theorem done_bind (a : α) (f : α → Program Op Answer ε β) : (done a >>= f) = f a := rfl

@[simp] theorem raise_bind (e : ε) (f : α → Program Op Answer ε β) :
    (raise e >>= f) = raise e := rfl

@[simp] theorem step_bind (op : Op) (next : Answer op → Program Op Answer ε α)
    (f : α → Program Op Answer ε β) : (step op next >>= f) = step op fun r => next r >>= f := rfl

@[simp] theorem perform_bind (op : Op) (f : Answer op → Program Op Answer ε β) :
    (perform op >>= f) = step op f := rfl

@[simp] theorem done_catching (a : α) (h : ε → Program Op Answer ε α) :
    (done a).catching h = done a := rfl

@[simp] theorem raise_catching (e : ε) (h : ε → Program Op Answer ε α) :
    (raise e : Program Op Answer ε α).catching h = h e := rfl

@[simp] theorem step_catching (op : Op) (next : Answer op → Program Op Answer ε α)
    (h : ε → Program Op Answer ε α) :
    (step op next).catching h = step op fun r => (next r).catching h := rfl

@[simp] theorem ofExcept_ok (a : α) : (ofExcept (.ok a) : Program Op Answer ε α) = done a := rfl

@[simp] theorem ofExcept_error (e : ε) : (ofExcept (.error e) : Program Op Answer ε α) = raise e := rfl

/-! Sequential runs: nothing else touches the state between two operations. -/

structure Outcome (Op σ ε α : Type) where
  performed : List Op
  state : σ
  result : Except ε α

/-- Run to the end against a deterministic environment. -/
def run (answer : (op : Op) → σ → Answer op × σ) : Program Op Answer ε α → σ → Outcome Op σ ε α
  | done a, s => ⟨[], s, .ok a⟩
  | raise e, s => ⟨[], s, .error e⟩
  | step op next, s =>
    let rest := (next (answer op s).1).run answer (answer op s).2
    { rest with performed := op :: rest.performed }

variable (answer : (op : Op) → σ → Answer op × σ)

@[simp] theorem run_done (a : α) (s : σ) :
    (done a : Program Op Answer ε α).run answer s = ⟨[], s, .ok a⟩ := rfl

@[simp] theorem run_raise (e : ε) (s : σ) :
    (raise e : Program Op Answer ε α).run answer s = ⟨[], s, .error e⟩ := rfl

@[simp] theorem run_step (op : Op) (next : Answer op → Program Op Answer ε α) (s : σ) :
    (step op next).run answer s =
      { (next (answer op s).1).run answer (answer op s).2 with
        performed := op :: ((next (answer op s).1).run answer (answer op s).2).performed } := rfl

/-- What a bind does after its first part has run. -/
def Outcome.andThen (first : Outcome Op σ ε α) (f : α → σ → Outcome Op σ ε β) : Outcome Op σ ε β :=
  match first.result with
  | .ok a => { f a first.state with performed := first.performed ++ (f a first.state).performed }
  | .error e => { first with result := .error e }

theorem run_bind (p : Program Op Answer ε α) (f : α → Program Op Answer ε β) (s : σ) :
    (p >>= f).run answer s = (p.run answer s).andThen fun a s' => (f a).run answer s' := by
  induction p generalizing s with
  | done a => simp [Outcome.andThen]
  | raise e => simp [Outcome.andThen]
  | step op next ih =>
    simp only [step_bind, run_step, ih]
    unfold Outcome.andThen
    cases (run answer (next (answer op s).1) (answer op s).2).result <;> rfl

theorem run_catching (p : Program Op Answer ε α) (h : ε → Program Op Answer ε α) (s : σ) :
    (p.catching h).run answer s =
      match (p.run answer s).result with
      | .ok _ => p.run answer s
      | .error e =>
        { (h e).run answer (p.run answer s).state with
          performed := (p.run answer s).performed ++
            ((h e).run answer (p.run answer s).state).performed } := by
  induction p generalizing s with
  | done a => simp
  | raise e => simp
  | step op next ih =>
    simp only [step_catching, run_step, ih]
    generalize run answer (next (answer op s).1) (answer op s).2 = rest
    obtain ⟨performed, s', result⟩ := rest
    cases result <;> rfl

/-- Every operation anywhere in the tree satisfies `φ`. -/
def All (φ : Op → Prop) : Program Op Answer ε α → Prop
  | done _ => True
  | raise _ => True
  | step op next => φ op ∧ ∀ r, (next r).All φ

@[simp] theorem all_done (φ : Op → Prop) (a : α) : (done a : Program Op Answer ε α).All φ := trivial

@[simp] theorem all_raise (φ : Op → Prop) (e : ε) : (raise e : Program Op Answer ε α).All φ := trivial

@[simp] theorem all_step (φ : Op → Prop) (op : Op) (next : Answer op → Program Op Answer ε α) :
    (step op next).All φ ↔ φ op ∧ ∀ r, (next r).All φ := Iff.rfl

@[simp] theorem all_perform (φ : Op → Prop) (op : Op) :
    (perform op : Program Op Answer ε (Answer op)).All φ ↔ φ op :=
  ⟨fun h => h.1, fun h => ⟨h, fun _ => trivial⟩⟩

@[simp] theorem all_ofExcept (φ : Op → Prop) (x : Except ε α) :
    (ofExcept x : Program Op Answer ε α).All φ := by
  cases x <;> trivial

@[simp] theorem all_ite (φ : Op → Prop) (c : Prop) [Decidable c] (p q : Program Op Answer ε α) :
    (if c then p else q).All φ ↔ (c → p.All φ) ∧ (¬c → q.All φ) := by
  split <;> simp_all

theorem All.bind {φ : Op → Prop} {p : Program Op Answer ε α} {f : α → Program Op Answer ε β}
    (first : p.All φ) (rest : ∀ a, (f a).All φ) : (p >>= f).All φ := by
  induction p with
  | done a => exact rest a
  | raise e => trivial
  | step op next ih => exact ⟨first.1, fun r => ih r (first.2 r)⟩

theorem All.mono {φ ψ : Op → Prop} (weaker : ∀ op, φ op → ψ op) {p : Program Op Answer ε α}
    (all : p.All φ) : p.All ψ := by
  induction p with
  | done a => trivial
  | raise e => trivial
  | step op next ih => exact ⟨weaker op all.1, fun r => ih r (all.2 r)⟩

theorem All.catching {φ : Op → Prop} {p : Program Op Answer ε α} {h : ε → Program Op Answer ε α}
    (body : p.All φ) (handler : ∀ e, (h e).All φ) : (p.catching h).All φ := by
  induction p with
  | done a => trivial
  | raise e => exact handler e
  | step op next ih => exact ⟨body.1, fun r => ih r (body.2 r)⟩

theorem All.performed {φ : Op → Prop} {p : Program Op Answer ε α} (all : p.All φ) (s : σ) :
    ∀ op ∈ (p.run answer s).performed, φ op := by
  induction p generalizing s with
  | done a => simp
  | raise e => simp
  | step op next ih =>
    simp only [run_step, List.mem_cons, forall_eq_or_imp]
    exact ⟨all.1, ih _ (all.2 _) _⟩

/-- Every ending satisfies `fine`. -/
def Ends (fine : Except ε α → Prop) : Program Op Answer ε α → Prop
  | done a => fine (.ok a)
  | raise e => fine (.error e)
  | step _ next => ∀ r, (next r).Ends fine

/-- Once an operation that is not `quiet` has run, every ending is `fine`. -/
def Committed (quiet : Op → Prop) (fine : Except ε α → Prop) : Program Op Answer ε α → Prop
  | done _ => True
  | raise _ => True
  | step op next => (quiet op ∧ ∀ r, (next r).Committed quiet fine) ∨ ∀ r, (next r).Ends fine

variable {quiet : Op → Prop} {fine : Except ε α → Prop}

@[simp] theorem ends_done (a : α) :
    (done a : Program Op Answer ε α).Ends fine ↔ fine (.ok a) := Iff.rfl

@[simp] theorem ends_raise (e : ε) :
    (raise e : Program Op Answer ε α).Ends fine ↔ fine (.error e) := Iff.rfl

@[simp] theorem ends_step (op : Op) (next : Answer op → Program Op Answer ε α) :
    (step op next).Ends fine ↔ ∀ r, (next r).Ends fine := Iff.rfl

@[simp] theorem committed_done (a : α) :
    (done a : Program Op Answer ε α).Committed quiet fine := trivial

@[simp] theorem committed_raise (e : ε) :
    (raise e : Program Op Answer ε α).Committed quiet fine := trivial

@[simp] theorem ends_ite (c : Prop) [Decidable c] (p q : Program Op Answer ε α) :
    (if c then p else q).Ends fine ↔ (c → p.Ends fine) ∧ (¬c → q.Ends fine) := by
  split <;> simp_all

@[simp] theorem committed_ite (c : Prop) [Decidable c] (p q : Program Op Answer ε α) :
    (if c then p else q).Committed quiet fine ↔
      (c → p.Committed quiet fine) ∧ (¬c → q.Committed quiet fine) := by
  split <;> simp_all

theorem Ends.run {p : Program Op Answer ε α} (ends : p.Ends fine) (s : σ) :
    fine (p.run answer s).result := by
  induction p generalizing s with
  | done a => exact ends
  | raise e => exact ends
  | step op next ih => exact ih _ (ends _) _

theorem Ends.bind {mid : Except ε β → Prop} {p : Program Op Answer ε β}
    {f : β → Program Op Answer ε α} (first : p.Ends mid)
    (rest : ∀ b, mid (.ok b) → (f b).Ends fine) (failed : ∀ e, mid (.error e) → fine (.error e)) :
    (p >>= f).Ends fine := by
  induction p with
  | done b => exact rest b first
  | raise e => exact failed e first
  | step op next ih => exact fun r => ih r (first r)

theorem ends_true (p : Program Op Answer ε α) : p.Ends fun _ => True := by
  induction p with
  | done a => trivial
  | raise e => trivial
  | step op next ih => exact ih

/-- A continuation that is only ever given what its first part ends with. -/
theorem All.bind_ends {φ : Op → Prop} {mid : Except ε β → Prop} {p : Program Op Answer ε β}
    {f : β → Program Op Answer ε α} (first : p.All φ) (ends : p.Ends mid)
    (rest : ∀ b, mid (.ok b) → (f b).All φ) : (p >>= f).All φ := by
  induction p with
  | done b => exact rest b ends
  | raise e => trivial
  | step op next ih => exact ⟨first.1, fun r => ih r (first.2 r) (ends r)⟩

theorem Ends.mono {mid : Except ε α → Prop} {p : Program Op Answer ε α} (ends : p.Ends mid)
    (weaker : ∀ result, mid result → fine result) : p.Ends fine := by
  induction p with
  | done a => exact weaker _ ends
  | raise e => exact weaker _ ends
  | step op next ih => exact fun r => ih r (ends r)

theorem Ends.catching {mid : Except ε α → Prop} {p : Program Op Answer ε α}
    {h : ε → Program Op Answer ε α} (body : p.Ends mid) (returned : ∀ a, mid (.ok a) → fine (.ok a))
    (handler : ∀ e, mid (.error e) → (h e).Ends fine) : (p.catching h).Ends fine := by
  induction p with
  | done a => exact returned a body
  | raise e => exact handler e body
  | step op next ih => exact fun r => ih r (body r)

theorem Committed.of_ends {p : Program Op Answer ε α} (ends : p.Ends fine) :
    p.Committed quiet fine := by
  cases p with
  | done a => trivial
  | raise e => trivial
  | step op next => exact .inr ends

theorem Committed.of_all {p : Program Op Answer ε α} (silent : p.All quiet) :
    p.Committed quiet fine := by
  induction p with
  | done a => trivial
  | raise e => trivial
  | step op next ih => exact .inl ⟨silent.1, fun r => ih r (silent.2 r)⟩

theorem Committed.bind {p : Program Op Answer ε β} {f : β → Program Op Answer ε α}
    (silent : p.All quiet) (rest : ∀ b, (f b).Committed quiet fine) :
    (p >>= f).Committed quiet fine := by
  induction p with
  | done b => exact rest b
  | raise e => trivial
  | step op next ih => exact .inl ⟨silent.1, fun r => ih r (silent.2 r)⟩

theorem Committed.run {p : Program Op Answer ε α} (committed : p.Committed quiet fine) (s : σ)
    (bad : ¬ fine (p.run answer s).result) : ∀ op ∈ (p.run answer s).performed, quiet op := by
  induction p generalizing s with
  | done a => simp
  | raise e => simp
  | step op next ih =>
    simp only [run_step, List.mem_cons, forall_eq_or_imp]
    rcases committed with ⟨silent, rest⟩ | ends
    · exact ⟨silent, ih _ (rest _) _ bad⟩
    · exact absurd ((ends _).run answer _) bad

/-- What an environment's operations keep, a whole run keeps. -/
theorem All.run_state {φ : Op → Prop} {I : σ → Prop} {p : Program Op Answer ε α} (all : p.All φ)
    (kept : ∀ op s, φ op → I s → I (answer op s).2) {s : σ} (h : I s) :
    I (p.run answer s).state := by
  induction p generalizing s with
  | done a => exact h
  | raise e => exact h
  | step op next ih => exact ih _ (all.2 _) (kept op s all.1 h)

/-- The next operation of a program, if it is `op` and answered so. -/
def resume? [DecidableEq Op] (op : Op) (r : Answer op) :
    Program Op Answer ε α → Option (Program Op Answer ε α)
  | step op' next => if same : op = op' then some (next (same ▸ r)) else none
  | _ => none

theorem resume?_eq_some [DecidableEq Op] {op : Op} {r : Answer op} {p q : Program Op Answer ε α}
    (resumed : resume? op r p = some q) : ∃ next, p = step op next ∧ q = next r := by
  cases p with
  | done a => cases resumed
  | raise e => cases resumed
  | step op' next =>
    by_cases same : op = op'
    · subst same
      simp only [resume?, dite_true, Option.some.injEq] at resumed
      exact ⟨next, rfl, resumed.symm⟩
    · simp [resume?, same] at resumed

end Program
end Atomic
