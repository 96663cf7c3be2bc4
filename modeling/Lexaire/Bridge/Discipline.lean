import Lexaire.Bridge.Lifecycle

/-! Sockets, context and threads of the bridge process. The main thread opens and closes them;
a helper relies on the socket it was started with until it returns. -/
namespace Lexaire.Bridge
open Atomic Transition RunOp

/-! ## What may be done when -/

def Socket.listening : Socket := { kind := .rep, bound := true }
def Socket.publishing : Socket := { kind := .pub, bound := true }

/-- No running thread holds this socket. -/
def Untouched (s : Resources) (socket : Nat) : Prop :=
  ∀ t pub, s.helper t = .started pub → socket ≠ pub

/-- The discipline of sockets, context and threads: nothing is used before it is there or after
it is gone, REP receives and sends in turn, and what is destroyed is not in use. -/
def Proper (s : Resources) : RunOp → Prop
  | .ctxNew => s.context = .absent
  | .newSocket _ => s.context = .live ∧ Untouched s s.created
  | .setLinger socket => (s.socket socket).isSome
  | .bind socket => (∃ k, s.socket socket = some k ∧ k.bound = false) ∧ Untouched s socket
  | .start helper pub => s.helper helper = .idle ∧ s.socket pub = some .publishing
  | .poll rep => s.socket rep = some .listening
  | .receive rep => s.socket rep = some .listening ∧ Untouched s rep
  | .sendReply rep _ => s.socket rep = some { Socket.listening with owes := true } ∧ Untouched s rep
  | .join helper => s.helper helper ≠ .idle ∧ s.helper helper ≠ .joined
  | .close socket => (s.socket socket).isSome ∧ Untouched s socket
  | .ctxDestroy => s.context = .live ∧ (∀ socket, s.socket socket = none) ∧
      ∀ t, s.helper t = .idle ∨ s.helper t = .joined
  | .publish pub _ => s.socket pub = some .publishing
  | .returns helper => ∃ pub, s.helper helper = .started pub
  | _ => True

/-- Whose operations they are. -/
def RunThread.owns : RunThread → RunOp → Prop
  | .main, .begins _ | .main, .watch _ | .main, .read | .main, .publish _ _ | .main, .returns _ => False
  | .main, _ => True
  | .helper t, .begins t' | .helper t, .returns t' => t' = t
  | .helper _, .stopRequested | .helper _, .watch _ | .helper _, .read | .helper _, .publish _ _ => True
  | .helper _, _ => False

/-! ## The contract of the threads -/

/-- What the other threads leave as it is for the main thread. -/
structure MainRely (s s' : Resources) : Prop where
  context : s'.context = s.context
  socket : s'.socket = s.socket
  created : s'.created = s.created
  helper : ∀ t, s'.helper t = s.helper t ∨
    ∃ pub, s.helper t = .started pub ∧ s'.helper t = .returned

/-- The socket that a started thread holds is one it can publish on. -/
def Fed (t : Helper) (s : Resources) : Prop :=
  ∀ pub, s.helper t = .started pub → s.socket pub = some .publishing

def Over (t : Helper) (s : Resources) : Prop := s.helper t = .returned ∨ s.helper t = .joined

structure HelperRely (t : Helper) (s s' : Resources) : Prop where
  running : ∀ pub, s.helper t = .started pub → s'.helper t = .started pub
  fed : Fed t s → Fed t s'
  ended : Over t s → Over t s'

/-- What the main thread holds: at most one socket of each kind, and threads in these phases. -/
structure Holding (context : ContextPhase) (held : SocketKind → Option (Nat × Socket))
    (phase : Helper → HelperPhase → Prop) (s : Resources) : Prop where
  context : s.context = context
  sockets : ∀ h k, s.socket h = some k ↔ ∃ kind, held kind = some (h, k)
  kinds : ∀ kind h k, held kind = some (h, k) → k.kind = kind
  created : ∀ h k, s.socket h = some k → h < s.created
  fed : ∀ t pub, phase t (.started pub) → held .pub = some (pub, .publishing)
  helper : ∀ t, phase t (s.helper t)

def slots (rep pub : Option (Nat × Socket)) : SocketKind → Option (Nat × Socket)
  | .rep => rep
  | .pub => pub

def Down (_ : Helper) (p : HelperPhase) : Prop := p = .idle

def Up (pub : Nat) (_ : Helper) (p : HelperPhase) : Prop := p = .started pub ∨ p = .returned

def Joined (_ : Helper) (p : HelperPhase) : Prop := p = .joined

/-- Nothing is left behind, unless the context cannot be destroyed. -/
structure Released (s : Resources) : Prop where
  context : s.context ≠ .live
  sockets : ∀ h, s.socket h = none
  helper : ∀ t, s.helper t = .idle ∨ s.helper t = .joined

def mainEntry : RunBlock → Resources → Prop
  | .setUp => Holding .absent (fun _ => none) Down
  | .turn rep pub => Holding .live (slots (some (rep, .listening)) (some (pub, .publishing))) (Up pub)
  | .tearDown rep pub => fun s => ∃ k,
      Holding .live (slots (rep.map fun h => (h, k)) (some (pub, .publishing))) (Up pub) s
  | _ => fun _ => False

def helperEntry (t : Helper) : RunBlock → Resources → Prop
  | .heartbeatStart => fun s => t = .heartbeat ∧ Fed t s
  | .heartbeat _ => fun s => t = .heartbeat ∧ Fed t s ∧ ∃ pub, s.helper t = .started pub
  | .teleStart => fun s => t = .tele ∧ Fed t s
  | .tele pub => fun s => t = .tele ∧ Fed t s ∧ s.helper t = .started pub
  | _ => fun _ => False

def discipline : Crew.Contract RunThread RunBlock RunOp Resources where
  rely
    | .main => MainRely
    | .helper t => HelperRely t
  good i op s := i.owns op ∧ Proper s op
  entry
    | .main => mainEntry
    | .helper t => helperEntry t
  final
    | .main => Released
    | .helper t => Over t

/-! ## What the others leave alone -/

theorem MainRely.refl (s : Resources) : MainRely s s := ⟨rfl, rfl, rfl, fun _ => .inl rfl⟩

theorem HelperRely.refl (t : Helper) (s : Resources) : HelperRely t s s :=
  ⟨fun _ running => running, id, id⟩

/-- Helpers neither hold the context nor ask for the stop flag. -/
theorem HelperRely.of_same {t : Helper} {s s' : Resources} (helper : s'.helper t = s.helper t)
    (socket : ∀ pub, s.helper t = .started pub → s'.socket pub = s.socket pub) : HelperRely t s s' where
  running pub started := helper.trans started
  fed fed pub started := by
    rw [helper] at started
    exact (socket pub started).trans (fed pub started)
  ended := by simp [Over, helper]

/-- A change to one socket that no thread holds. -/
theorem HelperRely.of_socket {t : Helper} {s s' : Resources} {h : Nat} {x : Option Socket}
    (helper : s'.helper t = s.helper t) (socket : s'.socket = Function.update s.socket h x)
    (untouched : Untouched s h) : HelperRely t s s' := by
  refine .of_same helper fun pub started => ?_
  rw [socket, Function.update_of_ne (untouched t pub started).symm]

theorem helper_ne {t t' : Helper} (f : Helper → HelperPhase) (p : HelperPhase) (other : t ≠ t') :
    Function.update f t' p t = f t :=
  Function.update_of_ne other p f

theorem main_guarantee {op : RunOp} {s s' : Resources} {r : op.Answer} (owns : RunThread.main.owns op)
    (proper : Proper s op) (effect : op.performs s r s') (t : Helper) : HelperRely t s s' := by
  obtain ⟨may, rfl⟩ := effect
  cases op with
  | setStop | ctxDestroy => exact .of_same rfl fun _ _ => rfl
  | ctxNew => cases r <;> exact .of_same rfl fun _ _ => rfl
  | newSocket kind =>
    cases r with
    | none => exact .refl t s
    | some h =>
      obtain rfl := eq_of_beq may
      exact .of_socket rfl rfl proper.2
  | bind h | sendReply h reply =>
    cases r with
    | false => exact .refl t s
    | true => exact .of_socket rfl rfl proper.2
  | receive h =>
    cases r with
    | none => exact .refl t s
    | some parsed => exact .of_socket rfl rfl proper.2
  | close h => exact .of_socket rfl rfl proper.2
  | start t' pub =>
    by_cases same : t = t'
    · subst same
      refine ⟨fun pub' started => ?_, fun _ pub' started => ?_, fun ended => ?_⟩
      · rw [proper.1] at started
        cases started
      · simp only [RunOp.after, Resources.setHelper, Function.update_self,
          HelperPhase.started.injEq] at started
        exact started ▸ proper.2
      · rcases ended with ended | ended <;> rw [proper.1] at ended <;> cases ended
    · exact .of_same (helper_ne _ _ same) fun _ _ => rfl
  | join t' =>
    by_cases same : t = t'
    · subst same
      have returned : s.helper t = .returned := eq_of_beq may
      refine ⟨fun pub started => ?_, fun _ pub started => ?_, fun _ => ?_⟩
      · rw [returned] at started
        cases started
      · simp [RunOp.after, Resources.setHelper] at started
      · exact .inr (Function.update_self t _ _)
    · exact .of_same (helper_ne _ _ same) fun _ _ => rfl
  | begins | watch | read | publish | returns => exact owns.elim
  | stopRequested | connect | hasAutopilot | setLinger | poll | serve => exact .refl t s

/-- A helper changes nothing but where it stands itself. -/
theorem helper_effect {t : Helper} {op : RunOp} {s s' : Resources} {r : op.Answer}
    (owns : (RunThread.helper t).owns op) (effect : op.performs s r s') :
    s' = s ∨ op = .returns t ∧ s' = s.setHelper t .returned := by
  obtain ⟨-, rfl⟩ := effect
  cases op with
  | returns t' =>
    obtain rfl : t' = t := owns
    exact .inr ⟨rfl, rfl⟩
  | begins | stopRequested | watch | read | publish => exact .inl rfl
  | _ => exact owns.elim

theorem guarantee {i j : RunThread} {op : RunOp} {s s' : Resources} {r : op.Answer}
    (owns : i.owns op) (proper : Proper s op) (effect : op.performs s r s') (other : j ≠ i) :
    discipline.rely j s s' := by
  cases i with
  | main =>
    cases j with
    | main => exact absurd rfl other
    | helper t => exact main_guarantee owns proper effect t
  | helper t =>
    rcases helper_effect owns effect with rfl | ⟨rfl, rfl⟩
    · cases j with
      | main => exact .refl _
      | helper t' => exact .refl t' _
    · cases j with
      | main =>
        refine ⟨rfl, rfl, rfl, fun t' => ?_⟩
        by_cases same : t' = t
        · subst same
          obtain ⟨pub, started⟩ := proper
          exact .inr ⟨pub, started, Function.update_self t' _ _⟩
        · exact .inl (helper_ne _ _ same)
      | helper t' =>
        have apart : t' ≠ t := fun same => other (congrArg _ same)
        exact .of_same (helper_ne _ _ apart) fun _ _ => rfl

theorem Released.later {s s' : Resources} (released : Released s) (rely : MainRely s s') :
    Released s' where
  context := rely.context ▸ released.context
  sockets h := rely.socket ▸ released.sockets h
  helper t := by
    rcases rely.helper t with same | ⟨pub, started, -⟩
    · exact same ▸ released.helper t
    · rcases released.helper t with down | down
      all_goals
        rw [started] at down
        cases down

/-! ## What the main thread holds -/

section
variable {context : ContextPhase} {held : SocketKind → Option (Nat × Socket)}
  {phase : Helper → HelperPhase → Prop} {s s' : Resources} {kind : SocketKind} {h : Nat} {k : Socket}

/-- Phases that outlive the return of the thread. -/
def Lasting (phase : Helper → HelperPhase → Prop) : Prop :=
  ∀ t pub, phase t (.started pub) → phase t .returned

def Unstarted (phase : Helper → HelperPhase → Prop) : Prop := ∀ t pub, ¬ phase t (.started pub)

theorem Unstarted.lasting (unstarted : Unstarted phase) : Lasting phase :=
  fun t pub started => absurd started (unstarted t pub)

theorem Holding.later (holding : Holding context held phase s) (lasting : Lasting phase)
    (rely : MainRely s s') : Holding context held phase s' where
  context := rely.context.trans holding.context
  sockets h k := by rw [rely.socket, holding.sockets]
  kinds := holding.kinds
  created h k found := by
    rw [rely.socket] at found
    exact rely.created ▸ holding.created h k found
  fed := holding.fed
  helper t := by
    rcases rely.helper t with same | ⟨pub, started, returned⟩
    · exact same ▸ holding.helper t
    · exact returned ▸ lasting t pub (started ▸ holding.helper t)

theorem Holding.socket (holding : Holding context held phase s) (kind : SocketKind)
    (own : held kind = some (h, k)) :
    s.socket h = some k :=
  (holding.sockets h k).mpr ⟨kind, own⟩

theorem Holding.untouched (holding : Holding context held phase s)
    (other : ∀ k, held .pub ≠ some (h, k)) : Untouched s h := by
  rintro t pub started rfl
  exact other _ (holding.fed t h (started ▸ holding.helper t))

theorem Holding.rep_untouched (holding : Holding context held phase s)
    (own : held .rep = some (h, k)) : Untouched s h := by
  refine holding.untouched fun k' pub => ?_
  obtain rfl := Option.some.inj ((holding.socket _ own).symm.trans (holding.socket _ pub))
  exact absurd ((holding.kinds _ _ _ own).symm.trans (holding.kinds _ _ _ pub)) (by decide)

theorem Holding.idle_untouched (holding : Holding context held phase s) (unstarted : Unstarted phase) :
    Untouched s h := by
  rintro t pub started rfl
  exact unstarted t h (started ▸ holding.helper t)

/-- The main thread opens, changes or closes its socket of one kind. -/
theorem Holding.put (holding : Holding context held phase s) {x : Option Socket} {created : Nat}
    (own : (∃ k, held kind = some (h, k)) ∨ held kind = none ∧ h = s.created)
    (fits : ∀ k ∈ x, k.kind = kind ∧ h < created) (grown : s.created ≤ created)
    (fed : ∀ t pub, phase t (.started pub) → kind ≠ .pub) :
    Holding context (Function.update held kind (x.map (h, ·))) phase
      { s with socket := Function.update s.socket h x, created } where
  context := holding.context
  sockets h' k' := by
    have elsewhere (kind' : SocketKind) (other : kind' ≠ kind) : held kind' ≠ some (h, k') := by
      intro found
      rcases own with ⟨k, own⟩ | ⟨-, rfl⟩
      · obtain rfl := Option.some.inj ((holding.socket _ found).symm.trans (holding.socket _ own))
        exact other ((holding.kinds _ _ _ found).symm.trans (holding.kinds _ _ _ own))
      · exact Nat.lt_irrefl _ (holding.created _ _ (holding.socket _ found))
    by_cases here : h' = h
    · subst here
      simp only [Function.update_self]
      constructor
      · intro found
        exact ⟨kind, by rw [Function.update_self, found]; rfl⟩
      · rintro ⟨kind', found⟩
        by_cases same : kind' = kind
        · subst same
          simpa using found
        · rw [Function.update_of_ne same] at found
          exact absurd found (elsewhere kind' same)
    · simp only [Function.update_of_ne here, holding.sockets]
      refine exists_congr fun kind' => ?_
      by_cases same : kind' = kind
      · subst same
        rw [Function.update_self]
        constructor
        · intro found
          rcases own with ⟨k, own⟩ | ⟨none, -⟩
          · exact absurd (congrArg Prod.fst (Option.some.inj (found.symm.trans own))) here
          · rw [none] at found
            cases found
        · intro found
          obtain ⟨k, -, same⟩ := Option.map_eq_some_iff.mp found
          exact absurd (congrArg Prod.fst same).symm here
      · rw [Function.update_of_ne same]
  kinds kind' h' k' found := by
    by_cases same : kind' = kind
    · subst same
      rw [Function.update_self] at found
      obtain ⟨k, held, same⟩ := Option.map_eq_some_iff.mp found
      obtain ⟨rfl, rfl⟩ := Prod.mk.inj same
      exact (fits k held).1
    · rw [Function.update_of_ne same] at found
      exact holding.kinds _ _ _ found
  created h' k' found := by
    by_cases here : h' = h
    · subst here
      simp only [Function.update_self] at found
      exact (fits k' found).2
    · simp only [Function.update_of_ne here] at found
      exact (holding.created _ _ found).trans_le grown
  fed t pub started := by
    rw [Function.update_of_ne (fed t pub started).symm]
    exact holding.fed t pub started
  helper := holding.helper

/-- A helper changes its phase by the main thread's doing. -/
theorem Holding.moves (holding : Holding context held phase s) {t : Helper} {p : HelperPhase}
    {φ : HelperPhase → Prop} (now : φ p)
    (fed : ∀ pub, φ (.started pub) → held .pub = some (pub, .publishing)) :
    Holding context held (Function.update phase t φ)
      { s with helper := Function.update s.helper t p } where
  context := holding.context
  sockets := holding.sockets
  kinds := holding.kinds
  created := holding.created
  fed t' pub started := by
    by_cases same : t' = t
    · subst same
      rw [Function.update_self] at started
      exact fed pub started
    · rw [Function.update_of_ne same] at started
      exact holding.fed t' pub started
  helper t' := by
    by_cases same : t' = t
    · subst same
      simpa only [Function.update_self] using now
    · simpa only [Function.update_of_ne same] using holding.helper t'

theorem Holding.stop (holding : Holding context held phase s) (stop : Bool) :
    Holding context held phase { s with stop } :=
  ⟨holding.context, holding.sockets, holding.kinds, holding.created, holding.fed, holding.helper⟩

end

/-! ## Rules for the main thread -/

section
variable {cfg : Settings} {unspecified : Int32} {context : ContextPhase}
  {held : SocketKind → Option (Nat × Socket)} {phase : Helper → HelperPhase → Prop}
  {s : Resources} {op : RunOp} {kind : SocketKind} {h : Nat} {k : Socket}

abbrev Keeps (cfg : Settings) (unspecified : Int32) (p : RunCode Empty (Option RunBlock))
    (s : Resources) : Prop :=
  discipline.Fulfils (process cfg unspecified) .main p s

theorem keeps_call {f : op.Answer → RunCode Empty (Option RunBlock)}
    (holding : Holding context held phase s) (lasting : Lasting phase) (owns : RunThread.main.owns op)
    (proper : ∀ s, Holding context held phase s → Proper s op)
    (after : ∀ s r s', Holding context held phase s → op.performs s r s' →
      Keeps cfg unspecified (f r) s') : Keeps cfg unspecified (call op >>= f) s :=
  .of_step (fun rely holding => holding.later lasting rely) holding
    (fun s holding => ⟨owns, proper s holding⟩) after

theorem keeps_done {next : Option RunBlock} (lasting : Lasting phase)
    (holding : Holding context held phase s)
    (ended : ∀ s, Holding context held phase s → discipline.post .main (.ok next) s) :
    Keeps cfg unspecified (.done next) s :=
  .of_done (fun rely holding => holding.later lasting rely) holding ended

/-- An operation that only answers. -/
theorem keeps_asked {f : op.Answer → RunCode Empty (Option RunBlock)}
    (holding : Holding context held phase s) (lasting : Lasting phase) (owns : RunThread.main.owns op)
    (proper : ∀ s, Holding context held phase s → Proper s op)
    (still : ∀ s r s', op.performs s r s' → s' = s)
    (after : ∀ r s, Holding context held phase s → Keeps cfg unspecified (f r) s) :
    Keeps cfg unspecified (call op >>= f) s := by
  refine keeps_call holding lasting owns proper fun s r s' holding effect => ?_
  obtain rfl := still s r s' effect
  exact after r _ holding

theorem keeps_newSocket {f : Option Nat → RunCode Empty (Option RunBlock)}
    (holding : Holding .live held phase s) (lasting : Lasting phase) (free : held kind = none)
    (unfed : ∀ t pub, phase t (.started pub) → kind ≠ .pub)
    (failed : ∀ s, Holding .live held phase s → Keeps cfg unspecified (f none) s)
    (opened : ∀ h s, Holding .live (Function.update held kind (some (h, { kind }))) phase s →
      Keeps cfg unspecified (f (some h)) s) :
    Keeps cfg unspecified (call (.newSocket kind) >>= f) s := by
  refine keeps_call holding lasting trivial (fun s holding => ?_) fun s r s' holding effect => ?_
  · refine ⟨holding.context, holding.untouched fun k found => ?_⟩
    exact Nat.lt_irrefl _ (holding.created _ _ (holding.socket _ found))
  · obtain ⟨may, rfl⟩ := effect
    cases r with
    | none => exact failed _ holding
    | some h =>
      obtain rfl := eq_of_beq may
      exact opened _ _ (holding.put (x := some { kind }) (.inr ⟨free, rfl⟩) (by simp)
        (Nat.le_succ _) unfed)

/-- A new state of a socket that is held. -/
theorem Holding.changed (holding : Holding context held phase s) (kind : SocketKind)
    (own : held kind = some (h, k))
    (f : Socket → Socket) (fits : (f k).kind = k.kind)
    (unfed : ∀ t pub, phase t (.started pub) → kind ≠ .pub) :
    Holding context (Function.update held kind (some (h, f k))) phase
      (s.setSocket h ((s.socket h).map f)) := by
  have kept := holding.kinds _ _ _ own
  have numbered := holding.created _ _ (holding.socket _ own)
  rw [holding.socket _ own]
  exact holding.put (x := some (f k)) (.inl ⟨k, own⟩) (by simp [fits, kept, numbered]) le_rfl unfed

theorem keeps_bind {f : Bool → RunCode Empty (Option RunBlock)} (kind : SocketKind)
    (holding : Holding context held phase s)
    (lasting : Lasting phase) (own : held kind = some (h, k)) (unbound : k.bound = false)
    (untouched : ∀ s, Holding context held phase s → Untouched s h)
    (unfed : ∀ t pub, phase t (.started pub) → kind ≠ .pub)
    (failed : ∀ s, Holding context held phase s → Keeps cfg unspecified (f false) s)
    (bound : ∀ s, Holding context (Function.update held kind (some (h, { k with bound := true }))) phase s →
      Keeps cfg unspecified (f true) s) :
    Keeps cfg unspecified (call (.bind h) >>= f) s := by
  refine keeps_call holding lasting trivial (fun s holding => ?_) fun s r s' holding effect => ?_
  · exact ⟨⟨k, holding.socket _ own, unbound⟩, untouched s holding⟩
  · obtain ⟨-, rfl⟩ := effect
    cases r with
    | false => exact failed _ holding
    | true => exact bound _ (holding.changed _ own (fun k => { k with bound := true }) rfl unfed)

theorem keeps_close {f : Unit → RunCode Empty (Option RunBlock)} (kind : SocketKind)
    (holding : Holding context held phase s)
    (lasting : Lasting phase) (own : held kind = some (h, k))
    (untouched : ∀ s, Holding context held phase s → Untouched s h)
    (unfed : ∀ t pub, phase t (.started pub) → kind ≠ .pub)
    (closed : ∀ s, Holding context (Function.update held kind none) phase s →
      Keeps cfg unspecified (f ()) s) :
    Keeps cfg unspecified (call (.close h) >>= f) s := by
  refine keeps_call holding lasting trivial (fun s holding => ?_) fun s r s' holding effect => ?_
  · exact ⟨by rw [holding.socket _ own]; rfl, untouched s holding⟩
  · obtain ⟨-, rfl⟩ := effect
    exact closed _ (holding.put (x := none) (.inl ⟨k, own⟩) (by simp) le_rfl unfed)

theorem keeps_start {t : Helper} {f : Unit → RunCode Empty (Option RunBlock)}
    (holding : Holding context held phase s) (lasting : Lasting phase)
    (own : held .pub = some (h, .publishing)) (idle : ∀ p, phase t p → p = .idle)
    (started : ∀ s, Holding context held (Function.update phase t (Up h t)) s →
      Keeps cfg unspecified (f ()) s) :
    Keeps cfg unspecified (call (.start t h) >>= f) s := by
  refine keeps_call holding lasting trivial (fun s holding => ?_) fun s r s' holding effect => ?_
  · exact ⟨idle _ (holding.helper t), holding.socket _ own⟩
  · obtain ⟨-, rfl⟩ := effect
    refine started _ (holding.moves (φ := Up h t) (.inl rfl) ?_)
    rintro pub (same | same)
    · cases same
      exact own
    · cases same

theorem keeps_join {t : Helper} {f : Unit → RunCode Empty (Option RunBlock)}
    (holding : Holding context held phase s) (lasting : Lasting phase)
    (up : ∀ p, phase t p → p ≠ .idle ∧ p ≠ .joined)
    (joined : ∀ s, Holding context held (Function.update phase t (Joined t)) s →
      Keeps cfg unspecified (f ()) s) :
    Keeps cfg unspecified (call (.join t) >>= f) s := by
  refine keeps_call holding lasting trivial (fun s holding => ?_) fun s r s' holding effect => ?_
  · exact up _ (holding.helper t)
  · obtain ⟨-, rfl⟩ := effect
    refine joined _ (holding.moves (φ := Joined t) rfl ?_)
    rintro pub ⟨⟩

/-- The last line of every way out that had a context. -/
theorem keeps_ctxDestroy (holding : Holding .live held phase s) (none_held : ∀ kind, held kind = none)
    (down : ∀ t p, phase t p → p = .idle ∨ p = .joined) :
    Keeps cfg unspecified (do let _ ← call .ctxDestroy; return none) s := by
  have sockets {s : Resources} (holding : Holding .live held phase s) (h : Nat) : s.socket h = none := by
    refine Option.eq_none_iff_forall_ne_some.mpr fun k found => ?_
    obtain ⟨kind, own⟩ := (holding.sockets h k).mp found
    rw [none_held] at own
    cases own
  have unstarted : Unstarted phase := by
    intro t pub started
    rcases down t _ started with same | same <;> cases same
  refine keeps_call holding unstarted.lasting trivial (fun s holding => ?_) fun s r s' holding effect => ?_
  · exact ⟨holding.context, sockets holding, fun t => down t _ (holding.helper t)⟩
  · obtain ⟨-, rfl⟩ := effect
    have closed := sockets holding
    have gone : Released (RunOp.after .ctxDestroy s r) :=
      ⟨by cases r <;> simp [RunOp.after], closed, fun t => down t _ (holding.helper t)⟩
    exact .of_done (P := Released) (fun rely released => released.later rely) gone fun _ released => released

end

/-! ## The code of the main thread -/

@[simp] theorem update_slots_rep (a b x : Option (Nat × Socket)) :
    Function.update (slots a b) .rep x = slots x b := by
  funext kind
  cases kind <;> rfl

@[simp] theorem update_slots_pub (a b x : Option (Nat × Socket)) :
    Function.update (slots a b) .pub x = slots a x := by
  funext kind
  cases kind <;> rfl

theorem no_slots : (fun _ => none) = slots none none := by
  funext kind
  cases kind <;> rfl

theorem unstarted_down : Unstarted Down := by
  rintro t pub ⟨⟩

theorem lasting_up (pub : Nat) : Lasting (Up pub) := fun _ _ _ => .inr rfl

section
variable {cfg : Settings} {unspecified : Int32} {s : Resources} {rep pub : Nat} {k k' : Socket}

theorem giveUp_keeps (holding : Holding .live (slots (some (rep, k)) (some (pub, k'))) Down s) :
    Keeps cfg unspecified (giveUp rep pub) s := by
  have down (t : Helper) (p : HelperPhase) (idle : Down t p) : p = .idle ∨ p = .joined := .inl idle
  refine keeps_close .rep holding unstarted_down.lasting rfl
    (fun s holding => holding.idle_untouched unstarted_down) (by simp) fun s holding => ?_
  rw [update_slots_rep] at holding
  refine keeps_close .pub holding unstarted_down.lasting rfl
    (fun s holding => holding.idle_untouched unstarted_down)
    (fun t pub started => absurd started (unstarted_down t pub)) fun s holding => ?_
  rw [update_slots_pub] at holding
  exact keeps_ctxDestroy holding (by rintro (_ | _) <;> rfl) down

/-- Operations that need nothing and leave everything as it is. -/
def RunOp.quiet : RunOp → Bool
  | .stopRequested | .connect | .hasAutopilot | .serve _ => true
  | _ => false

theorem quiet_owned {op : RunOp} (quiet : op.quiet = true) : RunThread.main.owns op := by
  cases op with
  | stopRequested | connect | hasAutopilot | serve => trivial
  | _ => cases quiet

theorem quiet_proper {op : RunOp} (quiet : op.quiet = true) (s : Resources) : Proper s op := by
  cases op with
  | stopRequested | connect | hasAutopilot | serve => trivial
  | _ => cases quiet

theorem quiet_still {op : RunOp} (quiet : op.quiet = true) {s s' : Resources} {r : op.Answer}
    (effect : op.performs s r s') : s' = s := by
  obtain ⟨-, rfl⟩ := effect
  cases op with
  | stopRequested | connect | hasAutopilot | serve => rfl
  | _ => cases quiet

theorem keeps_quiet {α : Type} {context : ContextPhase} {held : SocketKind → Option (Nat × Socket)}
    {phase : Helper → HelperPhase → Prop} {p : RunCode Empty α}
    {f : α → RunCode Empty (Option RunBlock)} (quiet : p.All (·.quiet = true))
    (holding : Holding context held phase s) (lasting : Lasting phase)
    (rest : ∀ a s, Holding context held phase s → Keeps cfg unspecified (f a) s) :
    Keeps cfg unspecified (p >>= f) s := by
  have kept : p.Holds (discipline.setting (process cfg unspecified) .main) (discipline.good .main)
      (fun _ => Holding context held phase) s := by
    refine .of_all (fun rely holding => holding.later lasting rely) quiet ?_ ?_ ?_ holding
    · intro op s r s' quiet holding effect
      exact quiet_still quiet effect ▸ holding
    · exact fun op s quiet _ => ⟨quiet_owned quiet, quiet_proper quiet s⟩
    · exact fun _ _ holding => holding
  exact kept.bind rest fun e => e.elim

theorem awaitAutopilot_quiet (tries : Nat) : (awaitAutopilot tries).All (·.quiet = true) := by
  induction tries with
  | zero => trivial
  | succ tries ih =>
    refine ⟨rfl, fun stopped => ?_⟩
    cases stopped with
    | true => trivial
    | false =>
      refine ⟨rfl, fun found => ?_⟩
      cases found with
      | true => trivial
      | false => exact ih

theorem down_unfed (kind : SocketKind) (t : Helper) (pub : Nat) (started : Down t (.started pub)) :
    kind ≠ .pub :=
  absurd started (unstarted_down t pub)

theorem up_unfed {pub : Nat} (t : Helper) (pub' : Nat) (_ : Up pub t (.started pub')) :
    SocketKind.rep ≠ .pub := by decide

theorem both_up (pub : Nat) :
    Function.update (Function.update Down .heartbeat (Up pub .heartbeat)) .tele (Up pub .tele) =
      Up pub := by
  funext t
  cases t <;> rfl

theorem bindBoth_keeps
    (holding : Holding .live (slots (some (rep, { kind := .rep })) (some (pub, { kind := .pub }))) Down s) :
    Keeps cfg unspecified (bindBoth rep pub) s := by
  have lasting := unstarted_down.lasting
  have idle {context : ContextPhase} {held : SocketKind → Option (Nat × Socket)} {h : Nat}
      (s : Resources) (holding : Holding context held Down s) : Untouched s h :=
    holding.idle_untouched unstarted_down
  refine keeps_asked holding lasting trivial (fun s holding => ?_) (fun _ _ _ effect => effect.2) ?_
  · rw [Proper, holding.socket .rep rfl]
    rfl
  intro _ s holding
  refine keeps_asked holding lasting trivial (fun s holding => ?_) (fun _ _ _ effect => effect.2) ?_
  · rw [Proper, holding.socket .pub rfl]
    rfl
  intro _ s holding
  refine keeps_bind .rep holding lasting rfl rfl idle (down_unfed .rep)
    (fun s holding => giveUp_keeps holding) fun s holding => ?_
  rw [update_slots_rep] at holding
  refine keeps_bind .pub holding lasting rfl rfl idle (down_unfed .pub)
    (fun s holding => giveUp_keeps holding) fun s holding => ?_
  rw [update_slots_pub] at holding
  refine keeps_start holding lasting rfl (fun p down => down) fun s holding => ?_
  have one_up : Lasting (Function.update Down .heartbeat (Up pub .heartbeat)) := by
    rintro (_ | _) p started
    · exact .inr rfl
    · cases started
  refine keeps_start holding one_up rfl (fun p down => down) fun s holding => ?_
  rw [both_up] at holding
  exact keeps_done (lasting_up pub) holding fun _ holding => holding

theorem setUp_keeps (holding : Holding .absent (fun _ => none) Down s) :
    Keeps cfg unspecified setUp s := by
  have lasting := unstarted_down.lasting
  have released {s : Resources} (holding : Holding .absent (fun _ => none) Down s) : Released s := by
    refine ⟨by simp [holding.context], fun h => ?_, fun t => .inl (holding.helper t)⟩
    refine Option.eq_none_iff_forall_ne_some.mpr fun k found => ?_
    obtain ⟨kind, own⟩ := (holding.sockets h k).mp found
    cases own
  have unfed (kind : SocketKind) (t : Helper) (pub : Nat) (started : Down t (.started pub)) :
      kind ≠ .pub := absurd started (unstarted_down t pub)
  refine keeps_asked holding lasting trivial (fun _ _ => trivial) (fun _ _ _ effect => effect.2) ?_
  intro connected s holding
  cases connected with
  | false => exact keeps_done lasting holding fun _ => released
  | true =>
    refine keeps_quiet (awaitAutopilot_quiet 50) holding lasting fun found s holding => ?_
    cases found with
    | false => exact keeps_done lasting holding fun _ => released
    | true =>
      refine keeps_call holding lasting trivial (fun _ holding => holding.context) ?_
      rintro s r s' holding ⟨-, rfl⟩
      cases r with
      | false => exact keeps_done lasting holding fun _ => released
      | true =>
        have live : Holding .live (slots none none) Down { s with context := .live } :=
          no_slots ▸ ⟨rfl, holding.sockets, holding.kinds, holding.created, holding.fed, holding.helper⟩
        have idle {held : SocketKind → Option (Nat × Socket)} {h : Nat} (s : Resources)
            (holding : Holding .live held Down s) : Untouched s h :=
          holding.idle_untouched unstarted_down
        have down (t : Helper) (p : HelperPhase) (idle : Down t p) : p = .idle ∨ p = .joined := .inl idle
        refine keeps_newSocket live lasting rfl (down_unfed .rep) (fun s holding => ?_)
          fun rep s holding => ?_
        · refine keeps_newSocket holding lasting rfl (down_unfed .pub) (fun s holding => ?_)
            fun pub s holding => ?_
          · exact keeps_ctxDestroy holding (by rintro (_ | _) <;> rfl) down
          · rw [update_slots_pub] at holding
            change Keeps _ _ (do call (.close pub); let _ ← call .ctxDestroy; return none) s
            refine keeps_close .pub holding lasting rfl idle (down_unfed .pub)
              fun s holding => ?_
            rw [update_slots_pub] at holding
            exact keeps_ctxDestroy holding (by rintro (_ | _) <;> rfl) down
        · rw [update_slots_rep] at holding
          refine keeps_newSocket holding lasting rfl (down_unfed .pub) (fun s holding => ?_)
            fun pub s holding => ?_
          · change Keeps _ _ (do call (.close rep); let _ ← call .ctxDestroy; return none) s
            refine keeps_close .rep holding lasting rfl idle (down_unfed .rep)
              fun s holding => ?_
            rw [update_slots_rep] at holding
            exact keeps_ctxDestroy holding (by rintro (_ | _) <;> rfl) down
          · rw [update_slots_pub] at holding
            exact bindBoth_keeps holding

theorem within_quiet {α : Type} {p : Code α} : (within .serve (fun _ => rfl) p).All (·.quiet = true) := by
  induction p with
  | done a => trivial
  | raise e => trivial
  | step op next ih => exact ⟨rfl, fun r => ih r⟩

theorem recover_all {φ : RunOp → Prop} {α : Type} {p : RunCode String α} {f : String → α}
    (all : p.All φ) : (p.recover f).All φ := by
  induction p with
  | done a => trivial
  | raise e => trivial
  | step op next ih => exact ⟨all.1, fun r => ih r (all.2 r)⟩

theorem turnOnce_keeps (serving : mainEntry (.turn rep pub) s) :
    Keeps cfg unspecified (turnOnce cfg rep pub) s := by
  have lasting := lasting_up pub
  have untouched {held : SocketKind → Option (Nat × Socket)} {h : Nat} {k : Socket}
      (own : held .rep = some (h, k)) (s : Resources) (holding : Holding .live held (Up pub) s) :
      Untouched s h :=
    holding.rep_untouched own
  have again {s : Resources} (serving : mainEntry (.turn rep pub) s) :
      Keeps cfg unspecified (.done (some (.turn rep pub))) s :=
    keeps_done lasting serving fun _ holding => holding
  have leaves {h : Nat} {k : Socket} {s : Resources}
      (holding : Holding .live (slots (some (h, k)) (some (pub, .publishing))) (Up pub) s) :
      Keeps cfg unspecified (.done (some (.tearDown (some h) pub))) s :=
    keeps_done lasting holding fun _ holding => ⟨k, holding⟩
  refine keeps_asked serving lasting trivial (fun _ _ => trivial) (fun _ _ _ effect => effect.2) ?_
  intro stopped s holding
  cases stopped with
  | true => exact leaves holding
  | false =>
    refine keeps_asked holding lasting trivial (fun s holding => holding.socket .rep rfl)
      (fun _ _ _ effect => effect.2) ?_
    intro readable s holding
    cases readable with
    | false => exact again holding
    | true =>
      refine keeps_call holding lasting trivial (fun s holding => ?_) ?_
      · exact ⟨holding.socket .rep rfl, untouched rfl s holding⟩
      rintro s r s' holding ⟨-, rfl⟩
      cases r with
      | none => exact again holding
      | some parsed =>
        have owing := holding.changed .rep rfl (fun k => { k with owes := true }) rfl up_unfed
        refine keeps_quiet (recover_all within_quiet) owing lasting fun result s owing => ?_
        refine keeps_call owing lasting trivial (fun s owing => ?_) ?_
        · exact ⟨owing.socket .rep rfl, untouched rfl s owing⟩
        rintro s sent s' owing ⟨-, rfl⟩
        cases sent with
        | true =>
          have settled := owing.changed .rep rfl (fun k => { k with owes := false }) rfl up_unfed
          simp only [update_slots_rep] at settled
          exact again settled
        | false =>
          rw [update_slots_rep] at owing
          refine keeps_close .rep owing lasting rfl (untouched rfl) up_unfed
            fun s closed => ?_
          rw [update_slots_rep] at closed
          refine keeps_newSocket closed lasting rfl up_unfed (fun s closed => ?_) fun h s opened => ?_
          · exact keeps_done lasting closed fun _ holding => ⟨.listening, holding⟩
          · rw [update_slots_rep] at opened
            refine keeps_asked opened lasting trivial (fun s opened => ?_) (fun _ _ _ effect => effect.2) ?_
            · rw [Proper, opened.socket .rep rfl]
              rfl
            intro _ s opened
            refine keeps_bind .rep opened lasting rfl rfl (untouched rfl) up_unfed
              (fun s opened => leaves opened) fun s bound => ?_
            rw [update_slots_rep] at bound
            exact keeps_done lasting bound fun _ holding => holding

theorem joined_both (pub : Nat) :
    Function.update (Function.update (Up pub) .heartbeat (Joined .heartbeat)) .tele (Joined .tele) =
      Joined := by
  funext t
  cases t <;> rfl

theorem up_started {pub : Nat} {t : Helper} {p : HelperPhase} (up : Up pub t p) :
    p ≠ .idle ∧ p ≠ .joined := by
  rcases up with rfl | rfl <;> simp

theorem tearDown_keeps {rep : Option Nat} (serving : mainEntry (.tearDown rep pub) s) :
    Keeps cfg unspecified (tearDown rep pub) s := by
  obtain ⟨k, holding⟩ := serving
  refine keeps_call holding (lasting_up pub) trivial (fun _ _ => trivial) ?_
  rintro s _ s' holding ⟨-, rfl⟩
  refine keeps_join (holding.stop true) (lasting_up pub) (fun p up => up_started up) fun s holding => ?_
  have one_joined : Lasting (Function.update (Up pub) .heartbeat (Joined .heartbeat)) := by
    rintro (_ | _) p started
    · cases started
    · exact .inr rfl
  refine keeps_join holding one_joined (fun p up => up_started (t := .tele) up) fun s holding => ?_
  rw [joined_both] at holding
  have unstarted : Unstarted Joined := by
    rintro t p ⟨⟩
  have unfed (kind : SocketKind) (t : Helper) (p : Nat) (started : Joined t (.started p)) :
      kind ≠ .pub := absurd started (unstarted t p)
  have closes {s : Resources} (holding : Holding .live (slots none (some (pub, .publishing))) Joined s) :
      Keeps cfg unspecified (do call (.close pub); let _ ← call .ctxDestroy; return none) s := by
    refine keeps_close .pub holding unstarted.lasting rfl
      (fun s holding => holding.idle_untouched unstarted) (unfed .pub) fun s holding => ?_
    rw [update_slots_pub] at holding
    exact keeps_ctxDestroy holding (by rintro (_ | _) <;> rfl) fun t p joined => .inr joined
  cases rep with
  | none => exact closes holding
  | some rep =>
    change Keeps _ _ (do call (.close rep); call (.close pub); let _ ← call .ctxDestroy; return none) s
    refine keeps_close .rep holding unstarted.lasting rfl
      (fun s holding => holding.idle_untouched unstarted) (unfed .rep) fun s holding => ?_
    rw [Option.map_some, update_slots_rep] at holding
    exact closes holding

end

/-! ## The helpers -/

section
variable {cfg : Settings} {unspecified : Int32} {t : Helper} {s s' : Resources} {pub : Nat}

abbrev Helps (cfg : Settings) (unspecified : Int32) (t : Helper)
    (p : RunCode Empty (Option RunBlock)) (s : Resources) : Prop :=
  discipline.Fulfils (process cfg unspecified) (.helper t) p s

/-- A helper at work, with the socket it was started with. -/
structure Working (t : Helper) (pub : Nat) (s : Resources) : Prop where
  started : s.helper t = .started pub
  publishing : s.socket pub = some .publishing

theorem Working.later (working : Working t pub s) (rely : HelperRely t s s') : Working t pub s' := by
  have started := rely.running pub working.started
  refine ⟨started, rely.fed (fun pub' same => ?_) pub started⟩
  rw [working.started] at same
  cases same
  exact working.publishing

theorem Working.fed (working : Working t pub s) : Fed t s := by
  intro pub' same
  rw [working.started] at same
  cases same
  exact working.publishing

/-- Operations of a helper that leave everything as it is. -/
def RunOp.idle : RunOp → Bool
  | .stopRequested | .read | .watch _ => true
  | _ => false

theorem helps_done {next : Option RunBlock} (working : Working t pub s)
    (goes : ∀ s, Working t pub s → discipline.post (.helper t) (.ok next) s) :
    Helps cfg unspecified t (.done next) s :=
  .of_done (fun rely working => working.later rely) working goes

theorem idle_good {op : RunOp} (idle : op.idle = true) (s : Resources) :
    discipline.good (.helper t) op s := by
  cases op with
  | stopRequested | read | watch => exact ⟨trivial, trivial⟩
  | _ => cases idle

theorem idle_still {op : RunOp} (idle : op.idle = true) {r : op.Answer}
    (effect : op.performs s r s') : s' = s := by
  obtain ⟨-, rfl⟩ := effect
  cases op with
  | stopRequested | read | watch => rfl
  | _ => cases idle

theorem helps_idle {α : Type} {p : RunCode Empty α} {f : α → RunCode Empty (Option RunBlock)}
    (idle : p.All (·.idle = true)) (working : Working t pub s)
    (rest : ∀ a s, Working t pub s → Helps cfg unspecified t (f a) s) :
    Helps cfg unspecified t (p >>= f) s := by
  have kept : p.Holds (discipline.setting (process cfg unspecified) (.helper t))
      (discipline.good (.helper t)) (fun _ => Working t pub) s := by
    refine .of_all (fun rely working => working.later rely) idle ?_ ?_ ?_ working
    · intro op s r s' idle working effect
      exact idle_still idle effect ▸ working
    · exact fun op s idle _ => idle_good idle s
    · exact fun _ _ working => working
  exact kept.bind rest fun e => e.elim

theorem helps_asked {op : RunOp} {f : op.Answer → RunCode Empty (Option RunBlock)}
    (idle : op.idle = true) (working : Working t pub s)
    (rest : ∀ r s, Working t pub s → Helps cfg unspecified t (f r) s) :
    Helps cfg unspecified t (call op >>= f) s :=
  helps_idle (p := call op) ⟨idle, fun _ => trivial⟩ working rest

theorem leave_helps (working : Working t pub s) : Helps cfg unspecified t (leave t) s := by
  refine .of_step (fun rely working => working.later rely) working
    (fun s working => ⟨rfl, pub, working.started⟩) fun s _ s' working effect => ?_
  obtain ⟨-, rfl⟩ := effect
  exact .of_done (P := Over t) (fun rely ended => rely.ended ended) (.inl (Function.update_self t _ _))
    fun _ ended => ended

/-- A helper that has not been started waits for it. -/
theorem begins_helps {f : Nat → RunCode Empty (Option RunBlock)} (fed : Fed t s)
    (rest : ∀ pub s, Working t pub s → Helps cfg unspecified t (f pub) s) :
    Helps cfg unspecified t (call (.begins t) >>= f) s := by
  refine .of_step (P := Fed t) (fun rely fed => rely.fed fed) fed (fun s _ => ⟨rfl, trivial⟩) ?_
  intro s pub s' fed effect
  have started : s.helper t = .started pub := eq_of_beq effect.1
  obtain rfl : s' = s := effect.2
  exact rest pub _ ⟨started, fed pub started⟩

theorem within_watch_idle {α : Type} (p : Code α) :
    (within .watch (fun _ => rfl) p).All (·.idle = true) := by
  induction p with
  | done a => trivial
  | raise e => trivial
  | step op next ih => exact ⟨rfl, fun r => ih r⟩

theorem heartbeatRound_helps (w : Watch) (working : Working .heartbeat pub s) :
    Helps cfg unspecified .heartbeat (heartbeatRound cfg w) s := by
  refine helps_asked (by rfl) working fun stopped s working => ?_
  cases stopped with
  | true => exact leave_helps working
  | false =>
    refine helps_idle (recover_all (within_watch_idle _)) working fun w s working => ?_
    exact helps_done working fun s working => ⟨rfl, working.fed, pub, working.started⟩

theorem teleRound_helps (working : Working .tele pub s) :
    Helps cfg unspecified .tele (teleRound unspecified pub) s := by
  refine helps_asked (by rfl) working fun stopped s working => ?_
  cases stopped with
  | true => exact leave_helps working
  | false =>
    refine helps_asked (by rfl) working fun readings s working => ?_
    refine helps_asked (by rfl) working fun stopped s working => ?_
    cases stopped with
    | true => exact leave_helps working
    | false =>
      refine .of_step (fun rely working => working.later rely) working
        (fun s working => ⟨trivial, working.publishing⟩) ?_
      rintro s r s' working ⟨-, rfl⟩
      exact helps_done working fun s working => ⟨rfl, working.fed, working.started⟩

theorem main_blocks (b : RunBlock) (entry : mainEntry b s) :
    Keeps cfg unspecified ((process cfg unspecified).block b) s := by
  cases b with
  | setUp => exact setUp_keeps entry
  | turn rep pub => exact turnOnce_keeps entry
  | tearDown rep pub => exact tearDown_keeps entry
  | _ => exact entry.elim

theorem helper_blocks (b : RunBlock) (entry : helperEntry t b s) :
    Helps cfg unspecified t ((process cfg unspecified).block b) s := by
  cases b with
  | heartbeatStart =>
    obtain ⟨rfl, fed⟩ := entry
    exact begins_helps fed fun pub s working =>
      helps_done working fun s working => ⟨rfl, working.fed, pub, working.started⟩
  | heartbeat w =>
    obtain ⟨rfl, fed, pub, started⟩ := entry
    exact heartbeatRound_helps w ⟨started, fed pub started⟩
  | teleStart =>
    obtain ⟨rfl, fed⟩ := entry
    exact begins_helps fed fun pub s working =>
      helps_done working fun s working => ⟨rfl, working.fed, working.started⟩
  | tele pub =>
    obtain ⟨rfl, fed, started⟩ := entry
    exact teleRound_helps ⟨started, fed pub started⟩
  | _ => exact entry.elim

theorem discipline_kept (cfg : Settings) (unspecified : Int32) :
    discipline.Kept (process cfg unspecified) where
  blocks i b s entry := by
    cases i with
    | main => exact main_blocks b entry
    | helper t => exact helper_blocks b entry
  guarantee i op s r s' good effect j other := guarantee good.1 good.2 effect other
  drift i s s' moved := by
    obtain rfl := moved
    cases i with
    | main => exact ⟨rfl, rfl, rfl, fun _ => .inl rfl⟩
    | helper t => exact .of_same rfl fun _ _ => rfl
  settled i s s' final rely := by
    cases i with
    | main => exact Released.later final rely
    | helper t => exact HelperRely.ended rely final

theorem start_stands (cfg : Settings) (unspecified : Int32) (i : RunThread) :
    discipline.Stands (process cfg unspecified) (ProcessState.start cfg unspecified) i := by
  cases i with
  | main =>
    refine main_blocks .setUp ⟨rfl, fun h k => ?_, by simp, ?_, ?_, fun t => rfl⟩
    · constructor
      · rintro ⟨⟩
      · rintro ⟨_, ⟨⟩⟩
    · rintro h k ⟨⟩
    · rintro t pub ⟨⟩
  | helper t =>
    have fed : Fed t {} := by
      rintro pub ⟨⟩
    cases t with
    | heartbeat => exact helper_blocks .heartbeatStart ⟨rfl, fed⟩
    | tele => exact helper_blocks .teleStart ⟨rfl, fed⟩

end

/-- In every interleaving of the threads with each other and with a signal, whatever fails: the
sockets, the context and the threads are used within their discipline, and once `run()` has
returned every socket is closed, no thread runs and no context is left but one whose own
destruction has failed. -/
theorem resources_released {cfg : Settings} {unspecified : Int32} {m : ProcessState}
    {path : ProcessHistory}
    (run : Run (Crew.Next (process cfg unspecified)) (ProcessState.start cfg unspecified) path m) :
    (∀ p ∈ path, ∀ i e, p.2 = .performs i e → i.owns e.1 ∧ Proper p.1.shared e.1) ∧
      (m.thread .main = none → Released m.shared) := by
  obtain ⟨stands, good⟩ := (discipline_kept cfg unspecified).run run (start_stands cfg unspecified)
  refine ⟨good, fun ended => ?_⟩
  have main := stands .main
  rwa [Crew.Contract.Stands, ended] at main

/-! ## A run with a failing bind -/

deriving instance DecidableEq for Watch
deriving instance DecidableEq for RunBlock

def RunOp.performs? (op : RunOp) (s : Resources) (r : op.Answer) : Option Resources :=
  if op.answers s r then some (op.after s r) else none

theorem RunOp.performs?_sound {op : RunOp} {s s' : Resources} {r : op.Answer}
    (performed : op.performs? s r = some s') : op.performs s r s' := by
  simp only [RunOp.performs?, Option.ite_none_right_eq_some, Option.some.injEq] at performed
  exact ⟨performed.1, performed.2.symm⟩

/-- The step of the process that a script asks for. -/
def processStep? (cfg : Settings) (unspecified : Int32) :
    ProcessState → Crew.Label RunThread RunBlock RunOp.Answer → Option ProcessState :=
  Crew.step? (process cfg unspecified) RunOp.performs? fun s => { s with stop := true }

theorem processStep?_sound {cfg : Settings} {unspecified : Int32} {m m' : ProcessState}
    {e : Crew.Label RunThread RunBlock RunOp.Answer}
    (moved : processStep? cfg unspecified m e = some m') : Crew.Next (process cfg unspecified) m e m' :=
  Crew.step?_sound RunOp.performs?_sound (fun _ => rfl) moved

/-- Another process has the port of the PUB socket. -/
def portTaken : List (Crew.Label RunThread RunBlock RunOp.Answer) := [
  .performs .main ⟨.connect, true⟩,
  .performs .main ⟨.stopRequested, false⟩,
  .performs .main ⟨.hasAutopilot, true⟩,
  .performs .main ⟨.ctxNew, true⟩,
  .performs .main ⟨.newSocket .rep, some 0⟩,
  .performs .main ⟨.newSocket .pub, some 1⟩,
  .performs .main ⟨.setLinger 0, ()⟩,
  .performs .main ⟨.setLinger 1, ()⟩,
  .performs .main ⟨.bind 0, true⟩,
  .performs .main ⟨.bind 1, false⟩,
  .performs .main ⟨.close 0, ()⟩,
  .performs .main ⟨.close 1, ()⟩,
  .performs .main ⟨.ctxDestroy, true⟩,
  .ends .main]

theorem resources_released_bind : ∃ path m,
    Run (Crew.Next (process {} 0)) (ProcessState.start {} 0) path m ∧ path.length = 14 ∧
      m.thread .main = none ∧ Released m.shared := by
  have checked : (replay (processStep? {} 0) (ProcessState.start {} 0) portTaken).any
      (fun reached => reached.1.length == 14 && (reached.2.thread .main).isNone) = true := by
    decide +kernel
  obtain ⟨⟨path, m⟩, played, seen⟩ := (Option.any_eq_true _ _).mp checked
  obtain ⟨length, ended⟩ := Bool.and_eq_true_iff.mp seen
  have ended := Option.isNone_iff_eq_none.mp ended
  have run := Run.of_replay processStep?_sound played
  exact ⟨path, m, run, eq_of_beq length, ended, (resources_released run).2 ended⟩

end Lexaire.Bridge
