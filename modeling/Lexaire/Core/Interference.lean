import Lexaire.Core.Program

/-! A program among other threads. `Holds` is the rely-guarantee reading of a
residual program: however the environment moves in between, every operation the
program still performs is good and its end satisfies the postcondition. -/
namespace Atomic
open Relation

/-- What the other threads may do to the shared state, and what the operations do. -/
structure Setting (Op : Type) (Answer : Op → Type) (σ : Type) where
  env : σ → σ → Prop
  performs : (op : Op) → σ → Answer op → σ → Prop

def Setting.Stable {Op : Type} {Answer : Op → Type} {σ : Type} (w : Setting Op Answer σ)
    (P : σ → Prop) : Prop :=
  ∀ {s s'}, w.env s s' → P s → P s'

namespace Program
variable {Op : Type} {Answer : Op → Type} {ε α β σ : Type}

def Holds (w : Setting Op Answer σ) (good : Op → σ → Prop) (post : Except ε α → σ → Prop) :
    Program Op Answer ε α → σ → Prop
  | done a, s => ∀ s', ReflTransGen w.env s s' → post (.ok a) s'
  | raise e, s => ∀ s', ReflTransGen w.env s s' → post (.error e) s'
  | step op next, s => ∀ s', ReflTransGen w.env s s' →
      good op s' ∧ ∀ r s'', w.performs op s' r s'' → (next r).Holds w good post s''

variable {w : Setting Op Answer σ} {good : Op → σ → Prop} {post : Except ε α → σ → Prop}

namespace Holds

/-! What a machine of interleaved threads uses: each of its steps keeps `Holds`. -/

theorem interfered {p : Program Op Answer ε α} {s s' : σ} (h : p.Holds w good post s)
    (moved : w.env s s') : p.Holds w good post s' := by
  cases p with
  | done a => exact fun t reached => h t (.head moved reached)
  | raise e => exact fun t reached => h t (.head moved reached)
  | step op next => exact fun t reached => h t (.head moved reached)

theorem performed {op : Op} {next : Answer op → Program Op Answer ε α} {s s' : σ} {r : Answer op}
    (h : (step op next).Holds w good post s) (effect : w.performs op s r s') :
    (next r).Holds w good post s' :=
  (h s .refl).2 r s' effect

theorem now_good {op : Op} {next : Answer op → Program Op Answer ε α} {s : σ}
    (h : (step op next).Holds w good post s) : good op s :=
  (h s .refl).1

theorem returned {a : α} {s : σ} (h : (done a : Program Op Answer ε α).Holds w good post s) :
    post (.ok a) s :=
  h s .refl

theorem raised {e : ε} {s : σ} (h : (raise e : Program Op Answer ε α).Holds w good post s) :
    post (.error e) s :=
  h s .refl

end Holds

/-! Proof rules. An assertion at a program point must survive the environment. -/

theorem Setting.Stable.reaches {P : σ → Prop} (stable : w.Stable P) {s s' : σ}
    (reached : ReflTransGen w.env s s') (h : P s) : P s' := by
  induction reached with
  | refl => exact h
  | tail _ moved ih => exact stable moved ih

namespace Holds

theorem of_done {P : σ → Prop} {a : α} {s : σ} (stable : w.Stable P) (h : P s)
    (ended : ∀ s, P s → post (.ok a) s) : (done a : Program Op Answer ε α).Holds w good post s :=
  fun s' reached => ended s' (Setting.Stable.reaches stable reached h)

theorem of_raise {P : σ → Prop} {e : ε} {s : σ} (stable : w.Stable P) (h : P s)
    (ended : ∀ s, P s → post (.error e) s) :
    (raise e : Program Op Answer ε α).Holds w good post s :=
  fun s' reached => ended s' (Setting.Stable.reaches stable reached h)

theorem of_step {P : σ → Prop} {op : Op} {next : Answer op → Program Op Answer ε α} {s : σ}
    (stable : w.Stable P) (h : P s) (now : ∀ s, P s → good op s)
    (after : ∀ s r s', P s → w.performs op s r s' → (next r).Holds w good post s') :
    (step op next).Holds w good post s := by
  intro s' reached
  have h' := Setting.Stable.reaches stable reached h
  exact ⟨now s' h', fun r s'' effect => after s' r s'' h' effect⟩

theorem bind {mid : Except ε α → σ → Prop} {post : Except ε β → σ → Prop}
    {p : Program Op Answer ε α} {f : α → Program Op Answer ε β} {s : σ}
    (first : p.Holds w good mid s)
    (rest : ∀ a s, mid (.ok a) s → (f a).Holds w good post s)
    (failed : ∀ e s, mid (.error e) s → post (.error e) s) :
    (p >>= f).Holds w good post s := by
  induction p generalizing s with
  | done a => exact rest a s (first s .refl)
  | raise e => exact fun s' reached => failed e s' (first s' reached)
  | step op next ih =>
    intro s' reached
    exact ⟨(first s' reached).1, fun r s'' effect => ih r ((first s' reached).2 r s'' effect)⟩

theorem catching {mid : Except ε α → σ → Prop} {p : Program Op Answer ε α}
    {h : ε → Program Op Answer ε α} {s : σ} (body : p.Holds w good mid s)
    (returned : ∀ a s, mid (.ok a) s → post (.ok a) s)
    (handler : ∀ e s, mid (.error e) s → (h e).Holds w good post s) :
    (p.catching h).Holds w good post s := by
  induction p generalizing s with
  | done a => exact fun s' reached => returned a s' (body s' reached)
  | raise e => exact handler e s (body s .refl)
  | step op next ih =>
    intro s' reached
    exact ⟨(body s' reached).1, fun r s'' effect => ih r ((body s' reached).2 r s'' effect)⟩

/-- A program whose operations all keep a stable assertion needs no other argument. -/
theorem of_all {φ : Op → Prop} {P : σ → Prop} {p : Program Op Answer ε α} {s : σ}
    (stable : w.Stable P) (all : p.All φ)
    (kept : ∀ op s r s', φ op → P s → w.performs op s r s' → P s')
    (now : ∀ op s, φ op → P s → good op s) (ended : ∀ result s, P s → post result s) (h : P s) :
    p.Holds w good post s := by
  induction p generalizing s with
  | done a => exact of_done stable h fun s => ended _ s
  | raise e => exact of_raise stable h fun s => ended _ s
  | step op next ih =>
    refine of_step stable h (fun s => now op s all.1) ?_
    intro s r s' hs effect
    exact ih r (all.2 r) (kept op s r s' all.1 hs effect)

end Holds
end Program
end Atomic
