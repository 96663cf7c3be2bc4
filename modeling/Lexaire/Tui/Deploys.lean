import Lexaire.Tui.Menu

/-! How many deploys of a target run at once. The state of a target is also the guard
against a second deploy, and a startup check writes it without looking. -/
namespace Lexaire.Tui
open Transition

def Job.deploys (target : Target) : Job → Bool
  | .startupDeploy t | .menuDeploy t _ => t = target
  | _ => false

/-- The startup checks; the stack is not deployed at startup. -/
def Job.checks (target : Target) : Job → Bool
  | .relayCheck => target = .relay
  | .publisherCheck => target = .publisher
  | _ => false

def AppContext.deploys (ctx : AppContext) (target : Target) : Nat :=
  ctx.inFlight.countP (·.deploys target)

/-- At most one deploy of the target is in flight, and its state says whether one is. -/
structure OneDeploy (target : Target) (ctx : AppContext) : Prop where
  single : ctx.deploys target ≤ 1
  shown : ctx.service target = .deploying ↔ 0 < ctx.deploys target

/-- The startup check of the target ends. -/
def Checks (target : Target) : AppContext × Label → Bool
  | (ctx, .completes place _ _) => ctx.inFlight[place]?.any (·.checks target)
  | _ => false

/-- It ends while a deploy of the target is in flight. -/
def Overtakes (target : Target) (p : AppContext × Label) : Prop :=
  Checks target p = true ∧ 0 < p.1.deploys target

instance (target : Target) : DecidablePred (Overtakes target) := fun p =>
  inferInstanceAs (Decidable (Checks target p = true ∧ 0 < p.1.deploys target))

/-- What a step does to a target, apart from its startup check. -/
inductive Effect (target : Target) (ctx ctx' : AppContext) : Prop where
  | untouched : ctx'.service target = ctx.service target → ctx'.deploys target = ctx.deploys target →
      Effect target ctx ctx'
  | started : ctx.service target ≠ .deploying → ctx'.service target = .deploying →
      ctx'.deploys target = ctx.deploys target + 1 → Effect target ctx ctx'
  | ended : ctx'.service target ≠ .deploying → ctx'.deploys target + 1 = ctx.deploys target →
      Effect target ctx ctx'
  | observed : ctx.service target ≠ .deploying → ctx'.service target ≠ .deploying →
      ctx'.deploys target = ctx.deploys target → Effect target ctx ctx'

/-- What the startup check of a target does to it. -/
def CheckEffect (target : Target) (ctx ctx' : AppContext) : Prop :=
  (ctx'.service target ≠ .deploying ∧ ctx'.deploys target = ctx.deploys target) ∨
    (ctx'.service target = .deploying ∧ ctx'.deploys target = ctx.deploys target + 1)

section
variable {ctx ctx' : AppContext} {target : Target}

theorem Effect.keeps (effect : Effect target ctx ctx') (one : OneDeploy target ctx) :
    OneDeploy target ctx' := by
  obtain ⟨single, shown⟩ := one
  cases effect with
  | untouched same same' =>
    rw [← same, ← same'] at shown
    rw [← same'] at single
    exact ⟨single, shown⟩
  | started idle now more =>
    have none : ¬ 0 < ctx.deploys target := fun some => idle (shown.mpr some)
    constructor
    · omega
    · simp only [now, true_iff]
      omega
  | ended now fewer =>
    constructor
    · omega
    · simp only [now, false_iff]
      omega
  | observed idle now same =>
    rw [← same] at single shown
    have none : ¬ 0 < ctx'.deploys target := fun some => idle (shown.mpr some)
    exact ⟨single, by simp only [now, none]⟩

theorem Effect.congr {before : AppContext} (effect : Effect target before ctx')
    (same : before.service target = ctx.service target)
    (same' : before.deploys target = ctx.deploys target) : Effect target ctx ctx' := by
  cases effect with
  | untouched kept kept' => exact .untouched (kept.trans same) (kept'.trans same')
  | started idle now more => exact .started (same ▸ idle) now (same' ▸ more)
  | ended now fewer => exact .ended now (same' ▸ fewer)
  | observed idle now kept => exact .observed (same ▸ idle) now (kept.trans same')

theorem Effect.congr' {after : AppContext} (effect : Effect target ctx after)
    (same : ctx'.service target = after.service target)
    (same' : ctx'.deploys target = after.deploys target) : Effect target ctx ctx' := by
  cases effect with
  | untouched kept kept' => exact .untouched (same.trans kept) (same'.trans kept')
  | started idle now more => exact .started idle (same.trans now) (same'.trans more)
  | ended now fewer => exact .ended (same ▸ now) (same' ▸ fewer)
  | observed idle now kept => exact .observed idle (same ▸ now) (same'.trans kept)

theorem CheckEffect.keeps_iff (effect : CheckEffect target ctx ctx') :
    OneDeploy target ctx' ↔ ctx.deploys target = 0 := by
  rcases effect with ⟨now, same⟩ | ⟨now, more⟩
  · constructor
    · rintro ⟨-, shown⟩
      simp only [now, false_iff] at shown
      omega
    · intro none
      constructor
      · omega
      · simp only [now, false_iff]
        omega
  · constructor
    · rintro ⟨single, -⟩
      omega
    · intro none
      constructor
      · omega
      · simp only [now, true_iff]
        omega

/-! ## The handlers -/

theorem deploys_setService (other : Target) (s : ServiceState) :
    (ctx.setService other s).deploys target = ctx.deploys target := by
  simp only [AppContext.deploys, AppContext.inFlight_setService]

theorem deploys_spawn (job : Job) : (ctx.spawn job).deploys target =
    ctx.deploys target + if job.deploys target then 1 else 0 := by
  simp only [AppContext.deploys, AppContext.inFlight_spawn, List.countP_append, List.countP_singleton]

theorem deploys_subView (content : String) :
    (ctx.subView content).deploys target = ctx.deploys target := rfl

theorem subView_effect (content : String) : Effect target ctx (ctx.subView content) :=
  .untouched (ctx.service_subView target content) rfl

theorem runDeploy_effect (other : Target) (title progress okSuffix : String)
    (idle : ctx.service other ≠ .deploying) :
    Effect target ctx (runDeploy ctx other title progress okSuffix) := by
  by_cases same : target = other
  · subst same
    apply Effect.started idle
    · simp [runDeploy]
    · simp [runDeploy, deploys_spawn, deploys_subView, deploys_setService, Job.deploys]
  · apply Effect.untouched
    · simp [runDeploy, same]
    · simp [runDeploy, deploys_spawn, deploys_subView, deploys_setService, Job.deploys, Ne.symm same]

theorem guardedDeploy_effect (other : Target) (title what progress okSuffix : String) :
    Effect target ctx (guardedDeploy ctx other title what progress okSuffix) := by
  unfold guardedDeploy
  split
  · exact subView_effect _
  · next idle => exact runDeploy_effect other title progress okSuffix idle

theorem processCommand_effect (cmd : String) : Effect target ctx (processCommand ctx cmd) := by
  have view (state : State) : Effect target ctx { ctx with state } := by
    apply Effect.untouched
    · cases target <;> rfl
    · rfl
  unfold processCommand
  split
  · split
    · exact .untouched rfl rfl
    · split
      · apply Effect.untouched
        · simp [startPreflight]
        · simp [startPreflight, deploys_spawn, deploys_subView, Job.deploys]
      · exact subView_effect _
      · exact view .monitoring
      · exact view .services
      · exact guardedDeploy_effect ..
      · unfold restartPublisher
        split
        · exact subView_effect _
        · exact guardedDeploy_effect ..
      · exact guardedDeploy_effect ..
      · exact .untouched rfl rfl
  · exact view .mainMenu

theorem exitToState_ne (rc : Int) : exitToState rc ≠ .deploying := by
  unfold exitToState
  split
  · decide
  · split <;> decide

theorem deployed_ne (rc : Int) : deployed rc ≠ .deploying := by
  unfold deployed
  split <;> decide

/-- The state without a job that has ended. -/
def AppContext.without (ctx : AppContext) (place : Nat) : AppContext :=
  { ctx with inFlight := ctx.inFlight.eraseIdx place }

theorem service_without (place : Nat) : (ctx.without place).service target = ctx.service target := by
  cases target <;> rfl

theorem deploys_without {place : Nat} {job : Job} (there : ctx.inFlight[place]? = some job) :
    (ctx.without place).deploys target + (if job.deploys target then 1 else 0) =
      ctx.deploys target := by
  obtain ⟨within, same⟩ := List.getElem?_eq_some_iff.mp there
  have perm := (List.getElem_cons_eraseIdx_perm within).countP_eq (·.deploys target)
  rw [same, List.countP_cons] at perm
  exact perm

theorem checked_effect (other : Target) (rc : Int) :
    (target ≠ other → Effect target ctx (checked ctx other rc)) ∧
      (target = other → CheckEffect target ctx (checked ctx other rc)) := by
  simp only [checked]
  constructor
  · intro apart
    apply Effect.untouched
    · split <;> simp [apart]
    · split
      · exact deploys_setService other _
      · simp [deploys_spawn, deploys_setService, Job.deploys, Ne.symm apart]
  · rintro rfl
    split
    · left
      constructor
      · simpa using exitToState_ne rc
      · exact deploys_setService target _
    · right
      constructor
      · simp
      · simp [deploys_spawn, deploys_setService, Job.deploys]

theorem deployed_effect (other : Target) (rc : Int)
    (more : ctx'.deploys target + (if target = other then 1 else 0) = ctx.deploys target)
    (same : ctx'.service target = ctx.service target) :
    Effect target ctx (ctx'.setService other (deployed rc)) := by
  by_cases here : target = other
  · apply Effect.ended
    · simpa [here] using deployed_ne rc
    · rw [if_pos here] at more
      rw [deploys_setService]
      exact more
  · apply Effect.untouched
    · simp [here, same]
    · rw [if_neg here] at more
      rw [deploys_setService]
      exact more

/-- What the end of a startup check does to a target, by whether it is the target's own. -/
theorem check_ends_effect {place : Nat} {job : Job} (there : ctx.inFlight[place]? = some job)
    (rc : Int) {other : Target} (checks : job.checks target = decide (other = target))
    (none : job.deploys target = false) :
    (job.checks target = false → Effect target ctx (checked (ctx.without place) other rc)) ∧
      (job.checks target = true → CheckEffect target ctx (checked (ctx.without place) other rc)) := by
  have same : (ctx.without place).service target = ctx.service target := service_without place
  have fewer := @deploys_without ctx target place job there
  have ⟨apart, here⟩ := @checked_effect (ctx.without place) target other rc
  simp only [none, Bool.false_eq_true, if_false, Nat.add_zero] at fewer
  rw [checks, decide_eq_false_iff_not, decide_eq_true_iff]
  constructor
  · intro differ
    exact (apart (Ne.symm differ)).congr same fewer
  · intro equal
    have effect := here equal.symm
    unfold CheckEffect at effect ⊢
    rw [fewer] at effect
    exact effect

/-- What the end of a job does to a target, by whether it is the target's startup check. -/
theorem complete_effect {place : Nat} {job : Job} (there : ctx.inFlight[place]? = some job)
    (rc : Int) (output : String) :
    (job.checks target = false → Effect target ctx (complete (ctx.without place) rc output job)) ∧
      (job.checks target = true →
        CheckEffect target ctx (complete (ctx.without place) rc output job)) := by
  have same : (ctx.without place).service target = ctx.service target := service_without place
  have fewer := @deploys_without ctx target place job there
  cases job with
  | preflight =>
    constructor
    · intro _
      apply Effect.untouched
      · rw [← same]
        cases target <;> rfl
      · exact fewer
    · intro checks
      cases checks
  | relayCheck => exact check_ends_effect there rc (by cases target <;> rfl) rfl
  | publisherCheck => exact check_ends_effect there rc (by cases target <;> rfl) rfl
  | stackQuery =>
    constructor
    · intro _
      have same' : (ctx.without place).stackState = ctx.stackState := rfl
      simp only [complete, same']
      split
      · next idle =>
        cases target with
        | stack => exact .observed idle (exitToState_ne rc) fewer
        | _ => exact .untouched rfl fewer
      · exact .untouched same fewer
    · intro checks
      cases checks
  | startupDeploy other =>
    constructor
    · intro _
      apply deployed_effect other rc _ same
      simpa [Job.deploys, eq_comm] using fewer
    · intro checks
      cases checks
  | menuDeploy other okSuffix =>
    constructor
    · intro _
      have effect : Effect target ctx ((ctx.without place).setService other (deployed rc)) := by
        apply deployed_effect other rc _ same
        simpa [Job.deploys, eq_comm] using fewer
      have content : (complete (ctx.without place) rc output (.menuDeploy other okSuffix)).service
          target = ((ctx.without place).setService other (deployed rc)).service target := by
        cases target <;> rfl
      exact effect.congr' content rfl
    · intro checks
      cases checks

end

/-! ## Runs -/

theorem next_effect {ctx ctx' : AppContext} {label : Label} (next : ctx.Next label ctx')
    (target : Target) :
    (Checks target (ctx, label) = false ∧ Effect target ctx ctx') ∨
      (Checks target (ctx, label) = true ∧ CheckEffect target ctx ctx') := by
  cases label with
  | stackTick =>
    obtain rfl := Option.some.inj next
    left
    refine ⟨rfl, .untouched ?_ ?_⟩
    · exact ctx.service_spawn target .stackQuery
    · exact deploys_spawn .stackQuery
  | enters cmd =>
    obtain rfl := Option.some.inj next
    exact .inl ⟨rfl, processCommand_effect cmd⟩
  | completes place rc output =>
    obtain ⟨job, there, rfl⟩ := Option.map_eq_some_iff.mp next
    have ⟨other, check⟩ := @complete_effect ctx target place job there rc output
    cases checks : job.checks target with
    | false => exact .inl ⟨by simp [Checks, there, checks], other checks⟩
    | true => exact .inr ⟨by simp [Checks, there, checks], check checks⟩

/-- A step loses the property exactly if it ends an overtaken startup check. -/
theorem next_keeps_iff {ctx ctx' : AppContext} {label : Label} {target : Target}
    (one : OneDeploy target ctx) (next : ctx.Next label ctx') :
    OneDeploy target ctx' ↔ ¬ Overtakes target (ctx, label) := by
  rcases next_effect next target with ⟨other, effect⟩ | ⟨checks, effect⟩
  · have kept : OneDeploy target ctx' := effect.keeps one
    simp only [kept, true_iff]
    simp [Overtakes, other]
  · rw [effect.keeps_iff]
    simp only [Overtakes, checks, true_and]
    omega

theorem launched_oneDeploy (droneHost publisherRepo : String) (target : Target) :
    OneDeploy target (launched droneHost publisherRepo) := by
  have started : ∃ jobs, (launched droneHost publisherRepo).inFlight = jobs ∧
      jobs.countP (·.deploys target) = 0 ∧
      (launched droneHost publisherRepo).service target = .unknown := by
    simp only [launched, ensurePublisherRunning, ensureRelayRunning, refreshStackState]
    by_cases configured : publisherRepo = ""
    · refine ⟨[.stackQuery, .relayCheck], ?_, rfl, ?_⟩
      · simp [AppContext.spawn, configured]
      · simp [AppContext.spawn, configured]
        cases target <;> rfl
    · refine ⟨[.stackQuery, .relayCheck, .publisherCheck], ?_, rfl, ?_⟩
      · simp [AppContext.spawn, configured]
      · simp [AppContext.spawn, configured]
        cases target <;> rfl
  obtain ⟨jobs, same, none, idle⟩ := started
  have none : (launched droneHost publisherRepo).deploys target = 0 := by
    rw [AppContext.deploys, same, none]
  constructor
  · omega
  · simp [idle, none]

/-- In a run of the TUI at most one deploy of a target is in flight at any time, with the
target's state saying so, if and only if no startup check of it ends during a deploy. -/
theorem one_deploy_iff {droneHost publisherRepo : String} {path : List (AppContext × Label)}
    {ctx : AppContext} (run : Run AppContext.Next (launched droneHost publisherRepo) path ctx)
    (target : Target) :
    ((∀ p ∈ path, OneDeploy target p.1) ∧ OneDeploy target ctx) ↔
      ∀ p ∈ path, ¬ Overtakes target p := by
  generalize initial : launched droneHost publisherRepo = start at run
  induction run with
  | nil =>
    subst initial
    simpa using launched_oneDeploy droneHost publisherRepo target
  | @snoc ctx ctx' path label run next ih =>
    simp only [List.mem_append, List.mem_singleton, or_imp, forall_and, forall_eq]
    rw [← ih]
    constructor
    · rintro ⟨⟨before, here⟩, after⟩
      exact ⟨⟨before, here⟩, (next_keeps_iff here next).mp after⟩
    · rintro ⟨⟨before, here⟩, steady⟩
      exact ⟨⟨before, here⟩, (next_keeps_iff here next).mpr steady⟩

/-- The stack has no startup check, so for it nothing more is needed. -/
theorem stack_oneDeploy {droneHost publisherRepo : String} {path : List (AppContext × Label)}
    {ctx : AppContext} (run : Run AppContext.Next (launched droneHost publisherRepo) path ctx) :
    OneDeploy .stack ctx := by
  refine run.invariant_always ?_ (launched_oneDeploy droneHost publisherRepo .stack)
  intro ctx label ctx' one next
  apply (next_keeps_iff one next).mpr
  rintro ⟨checks, -⟩
  cases label with
  | completes place rc output =>
    obtain ⟨job, -, stack⟩ := (Option.any_eq_true _ _).mp checks
    cases job <;> cases stack
  | _ => cases checks

/-- The relay is found down and deployed; a second deploy is refused and the first one ends. -/
def redeployed : List Label :=
  [.completes 1 1 "", .enters "5", .completes 2 0 ""]

theorem one_deploy_iff_redeployed : ∃ path ctx,
    Run AppContext.Next (launched "pi@drone" "https://host/repo") path ctx ∧
      (∀ p ∈ path, OneDeploy .relay p.1) ∧ OneDeploy .relay ctx ∧ ctx.relayState = .up := by
  have replayed : ∃ path ctx, replay AppContext.step? (launched "pi@drone" "https://host/repo")
      redeployed = some (path, ctx) ∧ ctx.relayState = .up ∧ ∀ p ∈ path, ¬ Overtakes .relay p :=
    ⟨_, _, rfl, rfl, by decide +kernel⟩
  obtain ⟨path, ctx, replayed, up, steady⟩ := replayed
  have run : Run AppContext.Next _ path ctx := .of_replay id replayed
  have ⟨before, here⟩ := (one_deploy_iff run .relay).mpr steady
  exact ⟨path, ctx, run, before, here, up⟩

/-- The operator restarts the relay before its startup check has ended. -/
def overtaken : List Label := [.enters "5", .completes 1 1 ""]

/-- The check then starts a second deploy beside the first. -/
theorem relay_deployed_twice : ¬ ∀ droneHost publisherRepo path ctx,
    Run AppContext.Next (launched droneHost publisherRepo) path ctx →
      ∀ target, OneDeploy target ctx := by
  intro claimed
  have replayed : ∃ path ctx, replay AppContext.step? (launched "pi@drone" "https://host/repo")
      overtaken = some (path, ctx) ∧ ctx.deploys .relay = 2 :=
    ⟨_, _, rfl, by decide +kernel⟩
  obtain ⟨path, ctx, replayed, twice⟩ := replayed
  have one := claimed _ _ path ctx (.of_replay id replayed) .relay
  have single := one.single
  omega

end Lexaire.Tui
