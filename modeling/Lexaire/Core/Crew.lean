import Lexaire.Core.Alone
import Mathlib.Algebra.GroupWithZero.Nat
import Mathlib.Data.Finset.Lattice.Fold
import Mathlib.Data.Fintype.Defs
import Mathlib.Data.Nat.Find
import Mathlib.Logic.Function.Basic

/-! Threads made of blocks. A block ends by naming the next block, or the end of its thread,
so that a loop is a block that names itself. There are two rules for a crew of such threads:
rely and guarantee, and a budget for what is still done once a signal is raised. -/
namespace Atomic
open Transition

/-- Besides the threads' operations, `drifts` may move the shared state. -/
structure Crew (κ Op : Type) (Answer : Op → Type) (σ : Type) where
  block : κ → Program Op Answer Empty (Option κ)
  performs : (op : Op) → σ → Answer op → σ → Prop
  drifts : σ → σ → Prop

namespace Crew
variable {ι κ Op σ : Type} {Answer : Op → Type}

/-- What each thread has left to do; one that has ended, or does not run yet, has nothing. -/
structure State (ι κ : Type) (Answer : Op → Type) (σ : Type) where
  thread : ι → Option (Program Op Answer Empty (Option κ))
  shared : σ

inductive Label (ι κ : Type) (Answer : Op → Type) where
  | performs (i : ι) (e : Event Answer)
  | goes (i : ι) (k : κ)
  | ends (i : ι)
  | drifts

/-- Whose step it is. -/
def Label.thread? : Label ι κ Answer → Option ι
  | .performs i _ | .goes i _ | .ends i => some i
  | .drifts => none

inductive Next [DecidableEq ι] (w : Crew κ Op Answer σ) :
    State ι κ Answer σ → Label ι κ Answer → State ι κ Answer σ → Prop where
  | performs {m : State ι κ Answer σ} {i : ι} {op : Op}
      {next : Answer op → Program Op Answer Empty (Option κ)} {r : Answer op} {s : σ}
      (at_op : m.thread i = some (.step op next)) (effect : w.performs op m.shared r s) :
      Next w m (.performs i ⟨op, r⟩) ⟨Function.update m.thread i (some (next r)), s⟩
  | goes {m : State ι κ Answer σ} {i : ι} {k : κ} (at_end : m.thread i = some (.done (some k))) :
      Next w m (.goes i k) { m with thread := Function.update m.thread i (some (w.block k)) }
  | ends {m : State ι κ Answer σ} {i : ι} (at_end : m.thread i = some (.done none)) :
      Next w m (.ends i) { m with thread := Function.update m.thread i none }
  | drifts {m : State ι κ Answer σ} {s : σ} (moved : w.drifts m.shared s) :
      Next w m .drifts { m with shared := s }

/-- The step that a script asks for; `effect` and `drift` choose among what may happen. -/
def step? [DecidableEq ι] [DecidableEq Op] [DecidableEq κ] (w : Crew κ Op Answer σ)
    (effect : (op : Op) → σ → Answer op → Option σ) (drift : σ → σ) (m : State ι κ Answer σ) :
    Label ι κ Answer → Option (State ι κ Answer σ)
  | .performs i e => do
    let p ← m.thread i
    let rest ← Program.resume? e.1 e.2 p
    let s ← effect e.1 m.shared e.2
    return ⟨Function.update m.thread i (some rest), s⟩
  | .goes i k =>
    match m.thread i with
    | some (.done (some k')) =>
      if k = k' then some { m with thread := Function.update m.thread i (some (w.block k)) } else none
    | _ => none
  | .ends i =>
    match m.thread i with
    | some (.done none) => some { m with thread := Function.update m.thread i none }
    | _ => none
  | .drifts => some { m with shared := drift m.shared }

theorem step?_sound [DecidableEq ι] [DecidableEq Op] [DecidableEq κ] {w : Crew κ Op Answer σ}
    {effect : (op : Op) → σ → Answer op → Option σ} {drift : σ → σ}
    (sound : ∀ {op s r s'}, effect op s r = some s' → w.performs op s r s')
    (drifts : ∀ s, w.drifts s (drift s)) {m m' : State ι κ Answer σ} {e : Label ι κ Answer}
    (moved : step? w effect drift m e = some m') : Next w m e m' := by
  cases e with
  | performs i e =>
    simp only [step?, Option.bind_eq_bind, Option.bind_eq_some_iff, Option.pure_def,
      Option.some.injEq] at moved
    obtain ⟨p, running, rest, resumed, s, performed, rfl⟩ := moved
    obtain ⟨next, rfl, rfl⟩ := Program.resume?_eq_some resumed
    exact .performs running (sound performed)
  | goes i k =>
    simp only [step?] at moved
    split at moved
    · rename_i k' ended
      simp only [Option.ite_none_right_eq_some, Option.some.injEq] at moved
      obtain ⟨rfl, rfl⟩ := moved
      exact .goes ended
    · cases moved
  | ends i =>
    simp only [step?] at moved
    split at moved
    · rename_i ended
      obtain rfl := Option.some.inj moved
      exact .ends ended
    · cases moved
  | drifts =>
    obtain rfl := Option.some.inj moved
    exact .drifts (drifts m.shared)

abbrev History (ι κ : Type) (Answer : Op → Type) (σ : Type) :=
  List (State ι κ Answer σ × Label ι κ Answer)

variable {w : Crew κ Op Answer σ} {m m' : State ι κ Answer σ} {e : Label ι κ Answer}
  {path : History ι κ Answer σ} {i : ι}

/-! ## Rely and guarantee -/

/-- What each thread may take for granted and has to keep to: `entry` where a block begins,
`final` once it has ended. -/
structure Contract (ι κ Op σ : Type) where
  rely : ι → σ → σ → Prop
  good : ι → Op → σ → Prop
  entry : ι → κ → σ → Prop
  final : ι → σ → Prop

namespace Contract

def setting (c : Contract ι κ Op σ) (w : Crew κ Op Answer σ) (i : ι) : Setting Op Answer σ where
  env := c.rely i
  performs := w.performs

def post (c : Contract ι κ Op σ) (i : ι) : Except Empty (Option κ) → σ → Prop
  | .ok (some k), s => c.entry i k s
  | .ok none, s => c.final i s
  | .error e, _ => e.elim

/-- The code of a thread keeps to the contract from here on. -/
abbrev Fulfils (c : Contract ι κ Op σ) (w : Crew κ Op Answer σ) (i : ι)
    (p : Program Op Answer Empty (Option κ)) (s : σ) : Prop :=
  p.Holds (c.setting w i) (c.good i) (c.post i) s

structure Kept (c : Contract ι κ Op σ) (w : Crew κ Op Answer σ) : Prop where
  blocks : ∀ i k s, c.entry i k s → c.Fulfils w i (w.block k) s
  guarantee : ∀ i op s r s', c.good i op s → w.performs op s r s' → ∀ j, j ≠ i → c.rely j s s'
  drift : ∀ i s s', w.drifts s s' → c.rely i s s'
  settled : ∀ i s s', c.final i s → c.rely i s s' → c.final i s'

/-- Every thread is where its contract has it. -/
def Stands (c : Contract ι κ Op σ) (w : Crew κ Op Answer σ) (m : State ι κ Answer σ) (i : ι) : Prop :=
  match m.thread i with
  | some p => c.Fulfils w i p m.shared
  | none => c.final i m.shared

variable {c : Contract ι κ Op σ}

theorem Kept.moved (kept : c.Kept w) (stands : c.Stands w m i) (same : m'.thread i = m.thread i)
    (rely : c.rely i m.shared m'.shared) : c.Stands w m' i := by
  unfold Stands at *
  rw [same]
  cases running : m.thread i with
  | none =>
    rw [running] at stands
    exact kept.settled i _ _ stands rely
  | some p =>
    rw [running] at stands
    exact Program.Holds.interfered stands rely

theorem Kept.still (stands : c.Stands w m i) (same : m'.thread i = m.thread i)
    (shared : m'.shared = m.shared) : c.Stands w m' i := by
  unfold Stands at *
  rwa [same, shared]

variable [DecidableEq ι]

/-- One step of the crew keeps every thread to its contract. -/
theorem Kept.next (kept : c.Kept w) (stands : ∀ i, c.Stands w m i) (moved : Next w m e m') (i : ι) :
    c.Stands w m' i := by
  cases moved with
  | @performs j op next r s at_op effect =>
    have now : c.Fulfils w j (.step op next) m.shared := by
      simpa only [Stands, at_op] using stands j
    by_cases here : i = j
    · subst here
      simpa only [Stands, Function.update_self] using Program.Holds.performed now effect
    · exact kept.moved (stands i) (Function.update_of_ne here _ _)
        (kept.guarantee j op _ r s now.now_good effect i here)
  | @goes j k at_end =>
    have ended : c.Fulfils w j (.done (some k)) m.shared := by
      simpa only [Stands, at_end] using stands j
    by_cases here : i = j
    · subst here
      simpa only [Stands, Function.update_self] using kept.blocks i k _ ended.returned
    · exact Kept.still (stands i) (Function.update_of_ne here _ _) rfl
  | @ends j at_end =>
    have ended : c.Fulfils w j (.done none) m.shared := by
      simpa only [Stands, at_end] using stands j
    by_cases here : i = j
    · subst here
      simp only [Stands, Function.update_self]
      exact ended.returned
    · exact Kept.still (stands i) (Function.update_of_ne here _ _) rfl
  | drifts moved => exact kept.moved (stands i) rfl (kept.drift i _ _ moved)

/-- In every run every operation is performed where it is good. -/
theorem Kept.run (kept : c.Kept w) (run : Run (Next w) m path m') (stands : ∀ i, c.Stands w m i) :
    (∀ i, c.Stands w m' i) ∧
      ∀ p ∈ path, ∀ i (e : Event Answer), p.2 = .performs i e → c.good i e.1 p.1.shared := by
  refine run.invariant (fun _ _ => True)
    (fun m e => ∀ i (e' : Event Answer), e = .performs i e' → c.good i e'.1 m.shared)
    (fun stands _ moved => kept.next stands moved) ?_ stands fun _ _ => trivial
  rintro m _ m' stands - moved i e rfl
  cases moved with
  | @performs _ op next r s at_op effect =>
    have now : c.Fulfils w i (.step op next) m.shared := by
      simpa only [Stands, at_op] using stands i
    exact now.now_good

end Contract
end Crew

/-! ## After a signal -/

/-- An exception ends the block as `f` says. -/
def Program.recover {Op α ε : Type} {Answer : Op → Type} (f : ε → α) :
    Program Op Answer ε α → Program Op Answer Empty α
  | done a => done a
  | raise e => done (f e)
  | step op next => step op fun r => (next r).recover f

/-- What an answer may be once the signal is raised, and what an operation then costs. -/
structure Signal (Op : Type) (Answer : Op → Type) where
  heeds : (op : Op) → Answer op → Prop
  costs : (op : Op) → Answer op → Nat

namespace Program
variable {Op α β : Type} {Answer : Op → Type} {ε : Type}

/-- From here on a run that the signal answers costs at most `n`, and returns what `post` says. -/
def Spends (g : Signal Op Answer) (post : α → Prop) : Nat → Program Op Answer ε α → Prop
  | _, done a => post a
  | _, raise _ => True
  | n, step op next =>
    ∀ r, g.heeds op r → g.costs op r ≤ n ∧ (next r).Spends g post (n - g.costs op r)

/-- Wherever the signal comes, at most `n` is spent after it. -/
def Prudent (g : Signal Op Answer) (n : Nat) : Program Op Answer ε α → Prop
  | done _ => True
  | raise _ => True
  | step op next => (step op next).Spends g (fun _ => True) n ∧ ∀ r, (next r).Prudent g n

variable {g : Signal Op Answer} {post : α → Prop} {m n : Nat}

namespace Spends

theorem mono {p : Program Op Answer ε α} (spends : p.Spends g post m) (more : m ≤ n) :
    p.Spends g post n := by
  induction p generalizing m n with
  | done a => exact spends
  | raise e => trivial
  | step op next ih =>
    intro r heeded
    obtain ⟨paid, rest⟩ := spends r heeded
    exact ⟨paid.trans more, ih r rest (Nat.sub_le_sub_right more _)⟩

theorem weaken {post' : α → Prop} {p : Program Op Answer ε α} (spends : p.Spends g post n)
    (weaker : ∀ a, post a → post' a) : p.Spends g post' n := by
  induction p generalizing n with
  | done a => exact weaker a spends
  | raise e => trivial
  | step op next ih => exact fun r heeded => ⟨(spends r heeded).1, ih r (spends r heeded).2⟩

theorem bind {mid : β → Prop} {p : Program Op Answer ε β} {f : β → Program Op Answer ε α}
    (first : p.Spends g mid m) (rest : ∀ b, mid b → (f b).Spends g post n) :
    (p >>= f).Spends g post (m + n) := by
  induction p generalizing m with
  | done b => exact (rest b first).mono (Nat.le_add_left n m)
  | raise e => trivial
  | step op next ih =>
    intro r heeded
    obtain ⟨paid, first⟩ := first r heeded
    refine ⟨paid.trans (Nat.le_add_right m n), ?_⟩
    rw [Nat.sub_add_comm paid]
    exact ih r first

/-- A first part that costs nothing. -/
theorem seq {mid : β → Prop} {p : Program Op Answer ε β} {f : β → Program Op Answer ε α}
    (first : p.Spends g mid 0) (rest : ∀ b, mid b → (f b).Spends g post n) :
    (p >>= f).Spends g post n := by
  have both := first.bind rest
  rwa [Nat.zero_add] at both

/-- Operations that cost nothing. -/
theorem free {φ : Op → Prop} {p : Program Op Answer ε α} (all : p.All φ)
    (nothing : ∀ op r, φ op → g.costs op r = 0) : p.Spends g (fun _ => True) 0 := by
  induction p with
  | done a => trivial
  | raise e => trivial
  | step op next ih =>
    intro r _
    rw [nothing op r all.1]
    exact ⟨le_refl 0, ih r (all.2 r)⟩

theorem free_step {op : Op} {next : Answer op → Program Op Answer ε α}
    (nothing : ∀ r, g.costs op r = 0) (rest : ∀ r, g.heeds op r → (next r).Spends g post n) :
    (step op next).Spends g post n := by
  intro r heeded
  rw [nothing r]
  exact ⟨Nat.zero_le n, rest r heeded⟩

theorem recover {f : ε → α} {p : Program Op Answer ε α} (spends : p.Spends g post n)
    (raised : ∀ e, post (f e)) : (p.recover f : Program Op Answer Empty α).Spends g post n := by
  induction p generalizing n with
  | done a => exact spends
  | raise e => exact raised e
  | step op next ih => exact fun r heeded => ⟨(spends r heeded).1, ih r (spends r heeded).2⟩

/-- A handler that spends nothing. -/
theorem catching {p : Program Op Answer ε α} {h : ε → Program Op Answer ε α}
    (spends : p.Spends g post n) (raised : ∀ e, (h e).Spends g post 0) :
    (p.catching h).Spends g post n := by
  induction p generalizing n with
  | done a => exact spends
  | raise e => exact (raised e).mono (Nat.zero_le n)
  | step op next ih => exact fun r heeded => ⟨(spends r heeded).1, ih r (spends r heeded).2⟩

/-- Within the budget whatever the signal does. -/
theorem of_unheeded {p : Program Op Answer ε α}
    (spends : p.Spends { g with heeds := fun _ _ => True } post n) : p.Spends g post n := by
  induction p generalizing n with
  | done a => exact spends
  | raise e => trivial
  | step op next ih => exact fun r _ => ⟨(spends r trivial).1, ih r (spends r trivial).2⟩

end Spends

/-- Where the signal has come before, nothing is spent; later, `n` at most. -/
structure Heedful (g : Signal Op Answer) (n : Nat) (p : Program Op Answer ε α) : Prop where
  spends : p.Spends g (fun _ => True) 0
  prudent : p.Prudent g n

namespace Prudent

theorem mono {p : Program Op Answer ε α} (prudent : p.Prudent g m) (more : m ≤ n) :
    p.Prudent g n := by
  induction p with
  | done a => trivial
  | raise e => trivial
  | step op next ih => exact ⟨prudent.1.mono more, fun r => ih r (prudent.2 r)⟩

theorem spends {p : Program Op Answer ε α} (prudent : p.Prudent g n) :
    p.Spends g (fun _ => True) n := by
  cases p with
  | done a => trivial
  | raise e => trivial
  | step op next => exact prudent.1

theorem free_step {op : Op} {next : Answer op → Program Op Answer ε α}
    (nothing : ∀ r, g.costs op r = 0) (rest : ∀ r, (next r).Prudent g n) :
    (step op next).Prudent g n :=
  ⟨.free_step nothing fun r _ => (rest r).spends, rest⟩

/-- An operation with its price, before code that asks for the signal again. -/
theorem paid_step {op : Op} {next : Answer op → Program Op Answer ε α}
    (paid : ∀ r, g.costs op r ≤ n) (rest : ∀ r, (next r).Heedful g n) : (step op next).Prudent g n :=
  ⟨fun r _ => ⟨paid r, (rest r).spends.mono (Nat.zero_le _)⟩, fun r => (rest r).prudent⟩

theorem bind {p : Program Op Answer ε β} {f : β → Program Op Answer ε α} (first : p.Prudent g n)
    (rest : ∀ b, (f b).Heedful g n) : (p >>= f).Prudent g n := by
  induction p with
  | done b => exact (rest b).prudent
  | raise e => trivial
  | step op next ih =>
    exact ⟨first.spends.bind fun b _ => (rest b).spends, fun r => ih r (first.2 r)⟩

/-- Before a program that may still spend, nothing is spent. -/
theorem bind_free {φ : Op → Prop} {p : Program Op Answer ε β} {f : β → Program Op Answer ε α}
    (all : p.All φ) (nothing : ∀ op r, φ op → g.costs op r = 0) (rest : ∀ b, (f b).Prudent g n) :
    (p >>= f).Prudent g n := by
  induction p with
  | done b => exact rest b
  | raise e => trivial
  | step op next ih => exact .free_step (fun r => nothing op r all.1) fun r => ih r (all.2 r)

theorem costless (nothing : ∀ op r, g.costs op r = 0) (p : Program Op Answer ε α) :
    p.Prudent g n := by
  induction p with
  | done a => trivial
  | raise e => trivial
  | step op next ih => exact .free_step (nothing op) ih

theorem of_unheeded {p : Program Op Answer ε α}
    (spends : p.Spends { g with heeds := fun _ _ => True } post n) : p.Prudent g n := by
  induction p generalizing n with
  | done a => trivial
  | raise e => trivial
  | step op next ih =>
    refine ⟨(Spends.of_unheeded spends).weaken fun _ _ => trivial, fun r => ?_⟩
    exact (ih r (spends r trivial).2).mono (Nat.sub_le n _)

theorem recover {f : ε → α} {p : Program Op Answer ε α} (prudent : p.Prudent g n) :
    (p.recover f : Program Op Answer Empty α).Prudent g n := by
  induction p with
  | done a => trivial
  | raise e => trivial
  | step op next ih => exact ⟨prudent.1.recover fun _ => trivial, fun r => ih r (prudent.2 r)⟩

end Prudent

namespace Heedful

theorem done (a : α) : (done a : Program Op Answer ε α).Heedful g n := ⟨trivial, trivial⟩

theorem step {op : Op} {next : Answer op → Program Op Answer ε α} (nothing : ∀ r, g.costs op r = 0)
    (spends : ∀ r, g.heeds op r → (next r).Spends g (fun _ => True) 0)
    (prudent : ∀ r, (next r).Prudent g n) : (step op next).Heedful g n :=
  ⟨.free_step nothing spends, .free_step nothing prudent⟩

theorem free_step {op : Op} {next : Answer op → Program Op Answer ε α}
    (nothing : ∀ r, g.costs op r = 0) (rest : ∀ r, (next r).Heedful g n) :
    (Program.step op next).Heedful g n :=
  .step nothing (fun r _ => (rest r).spends) fun r => (rest r).prudent

theorem bind_free {φ : Op → Prop} {p : Program Op Answer ε β} {f : β → Program Op Answer ε α}
    (all : p.All φ) (nothing : ∀ op r, φ op → g.costs op r = 0) (rest : ∀ b, (f b).Heedful g n) :
    (p >>= f).Heedful g n := by
  refine ⟨?_, .bind_free all nothing fun b => (rest b).prudent⟩
  exact (Spends.free all nothing).seq fun b _ => (rest b).spends

end Heedful
end Program

namespace Crew
variable {ι κ Op σ : Type} {Answer : Op → Type} [DecidableEq ι] {g : Signal Op Answer}
  {w : Crew κ Op Answer σ} {m m' : State ι κ Answer σ} {path : History ι κ Answer σ} {n : Nat}
  {e : Label ι κ Answer}

/-- What one step costs a thread. -/
def Label.cost (g : Signal Op Answer) (i : ι) : Label ι κ Answer → Nat
  | .performs j e => if j = i then g.costs e.1 e.2 else 0
  | _ => 0

def cost (g : Signal Op Answer) (i : ι) (path : History ι κ Answer σ) : Nat :=
  (path.map fun p => p.2.cost g i).sum

theorem cost_snoc (g : Signal Op Answer) (i : ι) (path : History ι κ Answer σ)
    (p : State ι κ Answer σ × Label ι κ Answer) :
    cost g i (path ++ [p]) = cost g i path + p.2.cost g i := by
  simp [cost]

/-- A signal that stays raised, that every operation answers by, and that blocks ask for
before they spend or go on. -/
structure Heeded (w : Crew κ Op Answer σ) (g : Signal Op Answer) (raised : σ → Prop)
    (rank : κ → Nat) (n : Nat) : Prop where
  stays : ∀ op s r s', raised s → w.performs op s r s' → raised s'
  drifts : ∀ s s', raised s → w.drifts s s' → raised s'
  answers : ∀ op s r s', raised s → w.performs op s r s' → g.heeds op r
  asks : ∀ k, (w.block k).Spends g (fun next => ∀ k' ∈ next, rank k' < rank k) 0
  prudent : ∀ k, (w.block k).Prudent g n

variable {raised : σ → Prop} {rank : κ → Nat}

theorem Heeded.next_raised (heeded : w.Heeded g raised rank n) (moved : Next w m e m')
    (up : raised m.shared) : raised m'.shared := by
  cases moved with
  | performs at_op effect => exact heeded.stays _ _ _ _ up effect
  | drifts moved => exact heeded.drifts _ _ up moved
  | _ => exact up

/-- What a thread has left is prudent, wherever it is. -/
theorem Heeded.prudent_next (heeded : w.Heeded g raised rank n) (moved : Next w m e m')
    (prudent : ∀ i, ∀ p ∈ m.thread i, p.Prudent g n) : ∀ i, ∀ p ∈ m'.thread i, p.Prudent g n := by
  intro i
  cases moved with
  | @performs j op next r s at_op effect =>
    by_cases here : i = j
    · subst here
      simp only [Function.update_self, Option.mem_some_iff, forall_eq']
      exact (prudent i _ at_op).2 r
    · simpa only [Function.update_of_ne here] using prudent i
  | @goes j k at_end =>
    by_cases here : i = j
    · subst here
      simp only [Function.update_self, Option.mem_some_iff, forall_eq']
      exact heeded.prudent k
    · simpa only [Function.update_of_ne here] using prudent i
  | @ends j at_end =>
    by_cases here : i = j
    · subst here
      simp
    · simpa only [Function.update_of_ne here] using prudent i
  | drifts => exact prudent i

/-- A step pays out of what is left to spend. -/
theorem Heeded.budget_next (heeded : w.Heeded g raised rank n) (moved : Next w m e m')
    (up : raised m.shared) {i : ι} {k : Nat}
    (left : ∀ p ∈ m.thread i, p.Spends g (fun _ => True) k) :
    e.cost g i ≤ k ∧ ∀ p ∈ m'.thread i, p.Spends g (fun _ => True) (k - e.cost g i) := by
  cases moved with
  | @performs j op next r s at_op effect =>
    by_cases here : j = i
    · subst here
      simp only [Label.cost, if_true, Function.update_self, Option.mem_some_iff, forall_eq']
      exact left _ at_op r (heeded.answers _ _ _ _ up effect)
    · simp only [Label.cost, if_neg here, Nat.sub_zero, Function.update_of_ne (Ne.symm here)]
      exact ⟨Nat.zero_le k, left⟩
  | @goes j block at_end =>
    simp only [Label.cost, Nat.sub_zero]
    refine ⟨Nat.zero_le k, ?_⟩
    by_cases here : i = j
    · subst here
      simp only [Function.update_self, Option.mem_some_iff, forall_eq']
      exact ((heeded.asks block).mono (Nat.zero_le k)).weaken fun _ _ => trivial
    · simpa only [Function.update_of_ne here] using left
  | @ends j at_end =>
    simp only [Label.cost, Nat.sub_zero]
    refine ⟨Nat.zero_le k, ?_⟩
    by_cases here : i = j
    · subst here
      simp
    · simpa only [Function.update_of_ne here] using left
  | drifts => exact ⟨Nat.zero_le k, left⟩

/-- What is spent and what is left to spend are within the budget. -/
theorem Heeded.budget (heeded : w.Heeded g raised rank n) (run : Run (Next w) m path m')
    (up : raised m.shared) {i : ι} (left : ∀ p ∈ m.thread i, p.Spends g (fun _ => True) n) :
    raised m'.shared ∧ cost g i path ≤ n ∧
      ∀ p ∈ m'.thread i, p.Spends g (fun _ => True) (n - cost g i path) := by
  induction run with
  | nil => exact ⟨up, Nat.zero_le n, left⟩
  | snoc _ moved ih =>
    obtain ⟨up, within, left⟩ := ih
    obtain ⟨paid, left⟩ := heeded.budget_next moved up left
    rw [cost_snoc, ← Nat.sub_sub]
    exact ⟨heeded.next_raised moved up, Nat.add_le_of_le_sub' within paid, left⟩

/-- However a run goes on after the signal, no thread spends more than its budget. -/
theorem Heeded.run (heeded : w.Heeded g raised rank n) {start : State ι κ Answer σ}
    (prudent : ∀ i, ∀ p ∈ start.thread i, p.Prudent g n) {before after : History ι κ Answer σ}
    (first : Run (Next w) start before m) (rest : Run (Next w) m after m') (up : raised m.shared)
    (i : ι) : cost g i after ≤ n := by
  have left := first.invariant_always (fun prudent moved => heeded.prudent_next moved prudent) prudent
  exact (heeded.budget rest up fun p running => (left i p running).spends).2.1

/-- The steps of one thread while the signal is up, backwards. -/
inductive Moves (w : Crew κ Op Answer σ) (g : Signal Op Answer) :
    Program Op Answer Empty (Option κ) → Program Op Answer Empty (Option κ) → Prop where
  | performs {op : Op} {next : Answer op → Program Op Answer Empty (Option κ)} {r : Answer op}
      (heeded : g.heeds op r) : Moves w g (next r) (.step op next)
  | goes {k : κ} : Moves w g (w.block k) (.done (some k))

theorem acc_of_spends {post : Option κ → Prop} (ended : ∀ next, post next → Acc (Moves w g) (.done next))
    {p : Program Op Answer Empty (Option κ)} (spends : p.Spends g post n) : Acc (Moves w g) p := by
  induction p generalizing n with
  | done next => exact ended next spends
  | raise e => exact e.elim
  | step op next ih =>
    constructor
    intro q moved
    cases moved with
    | performs heeded => exact ih _ (spends _ heeded).2

theorem Heeded.acc_block (heeded : w.Heeded g raised rank n) (k : κ) : Acc (Moves w g) (w.block k) := by
  induction bound : rank k using Nat.strongRecOn generalizing k with
  | ind height ih =>
    subst bound
    refine acc_of_spends (fun next lower => ?_) (heeded.asks k)
    constructor
    intro q moved
    cases moved with
    | goes => exact ih _ (lower _ rfl) _ rfl

/-- While the signal is up the steps of one thread are well-founded. -/
theorem Heeded.wellFounded (heeded : w.Heeded g raised rank n) : WellFounded (Moves w g) := by
  constructor
  intro p
  induction p with
  | done next =>
    constructor
    intro q moved
    cases moved with
    | goes => exact heeded.acc_block _
  | raise e => exact e.elim
  | step op next ih =>
    constructor
    intro q moved
    cases moved with
    | performs => exact ih _

theorem Next.other {i : ι} (moved : Next w m e m') (other : e.thread? ≠ some i) :
    m'.thread i = m.thread i := by
  cases moved with
  | drifts => rfl
  | _ => exact Function.update_of_ne (fun same => other (congrArg some same.symm)) _ _

theorem Next.running {i : ι} (moved : Next w m e m') (own : e.thread? = some i) :
    m.thread i ≠ none := by
  cases moved with
  | performs at_op | goes at_op | ends at_op =>
    cases own
    simp [at_op]
  | drifts => cases own

theorem Heeded.moves (heeded : w.Heeded g raised rank n) {i : ι} (moved : Next w m e m')
    (own : e.thread? = some i) (up : raised m.shared) :
    ∃ p, m.thread i = some p ∧ ∀ q ∈ m'.thread i, Moves w g q p := by
  cases moved with
  | performs at_op effect =>
    cases own
    refine ⟨_, at_op, ?_⟩
    simp only [Function.update_self, Option.mem_some_iff, forall_eq']
    exact .performs (heeded.answers _ _ _ _ up effect)
  | goes at_end =>
    cases own
    refine ⟨_, at_end, ?_⟩
    simp only [Function.update_self, Option.mem_some_iff, forall_eq']
    exact .goes
  | ends at_end =>
    cases own
    exact ⟨_, at_end, by simp⟩
  | drifts => cases own

/-- A run without an end. -/
structure Endless (w : Crew κ Op Answer σ) (state : Nat → State ι κ Answer σ)
    (label : Nat → Label ι κ Answer) : Prop where
  next : ∀ k, Next w (state k) (label k) (state (k + 1))

variable {state : Nat → State ι κ Answer σ} {label : Nat → Label ι κ Answer}

theorem Heeded.endless_raised (heeded : w.Heeded g raised rank n) (endless : Endless w state label)
    (up : raised (state 0).shared) (k : Nat) : raised (state k).shared := by
  induction k with
  | zero => exact up
  | succ k ih => exact heeded.next_raised (endless.next k) ih

theorem Endless.waits (endless : Endless w state label) {i : ι} {k d : Nat}
    (others : ∀ j, k ≤ j → j < k + d → (label j).thread? ≠ some i) :
    (state (k + d)).thread i = (state k).thread i := by
  induction d with
  | zero => rfl
  | succ d ih =>
    have before := ih fun j from_k within => others j from_k (Nat.lt_succ_of_lt within)
    exact ((endless.next (k + d)).other (others _ (by omega) (by omega))).trans before

theorem Endless.ended (endless : Endless w state label) {i : ι} {k : Nat}
    (ended : (state k).thread i = none) (d : Nat) : (state (k + d)).thread i = none := by
  induction d with
  | zero => exact ended
  | succ d ih =>
    have other : (label (k + d)).thread? ≠ some i := fun own => (endless.next _).running own ih
    exact ((endless.next (k + d)).other other).trans ih

theorem Endless.silent (endless : Endless w state label) {i : ι} {k : Nat}
    (ended : (state k).thread i = none) (j : Nat) (from_k : k ≤ j) : (label j).thread? ≠ some i := by
  intro own
  have still := endless.ended ended (j - k)
  rw [Nat.add_sub_cancel' from_k] at still
  exact (endless.next j).running own still

theorem Heeded.rests (heeded : w.Heeded g raised rank n) (endless : Endless w state label)
    (up : raised (state 0).shared) (i : ι) (p : Program Op Answer Empty (Option κ)) :
    ∀ k, (state k).thread i = some p → ∃ K, ∀ j, K ≤ j → (label j).thread? ≠ some i := by
  induction p using heeded.wellFounded.induction with
  | _ p ih =>
    intro k at_p
    by_cases later : ∃ d, (label (k + d)).thread? = some i
    · have others : ∀ j, k ≤ j → j < k + Nat.find later → (label j).thread? ≠ some i := by
        intro j from_k within own
        refine Nat.find_min later (m := j - k) (by omega) ?_
        rwa [Nat.add_sub_cancel' from_k]
      obtain ⟨p', now, moves⟩ := heeded.moves (endless.next _) (Nat.find_spec later)
        (heeded.endless_raised endless up _)
      obtain rfl : p = p' := Option.some.inj (at_p.symm.trans ((endless.waits others).symm.trans now))
      cases next : (state (k + Nat.find later + 1)).thread i with
      | some q => exact ih q (moves q next) _ next
      | none => exact ⟨_, endless.silent next⟩
    · exact ⟨k, fun j from_k own => later ⟨j - k, by rwa [Nat.add_sub_cancel' from_k]⟩⟩

/-- While the signal is up no thread goes on for ever. -/
theorem Heeded.comes_to_rest (heeded : w.Heeded g raised rank n) (endless : Endless w state label)
    (up : raised (state 0).shared) (i : ι) : ∃ K, ∀ j, K ≤ j → (label j).thread? ≠ some i := by
  cases running : (state 0).thread i with
  | none => exact ⟨0, endless.silent running⟩
  | some p => exact heeded.rests endless up i p 0 running

/-- An endless run in which some thread goes on as long as one can. -/
structure Progressing (w : Crew κ Op Answer σ) (state : Nat → State ι κ Answer σ)
    (label : Nat → Label ι κ Answer) : Prop extends Endless w state label where
  progress : ∀ k, (∃ e m', Next w (state k) e m' ∧ e.thread? ≠ none) →
    ∃ j, k ≤ j ∧ (label j).thread? ≠ none

/-- After the signal a crew of finitely many threads comes to a state in which none can go on. -/
theorem Heeded.completes [Fintype ι] (heeded : w.Heeded g raised rank n)
    (progressing : Progressing w state label) (up : raised (state 0).shared) :
    ∃ K, ∀ e m', Next w (state K) e m' → e.thread? = none := by
  choose rest rests using heeded.comes_to_rest progressing.toEndless up
  refine ⟨Finset.univ.sup rest, fun e m' moved => ?_⟩
  by_contra can
  obtain ⟨j, later, goes⟩ := progressing.progress _ ⟨e, m', moved, can⟩
  obtain ⟨i, own⟩ := Option.ne_none_iff_exists'.mp goes
  exact rests i j ((Finset.le_sup (Finset.mem_univ i)).trans later) own

end Crew
end Atomic
