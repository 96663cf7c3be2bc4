import Lexaire.Tui.Deploys

/-! Whose text the submenu shows. The menu items and the completions of their processes
write one shared content; here it is kept in pieces, each with the item it is for. -/
namespace Lexaire.Tui
open Transition

/-- The menu items with a submenu. -/
inductive Item where
  | preflight | qgcSetup | relay | publisher | stack
deriving DecidableEq

def Item.ofChoice : Int → Option Item
  | 1 => some .preflight
  | 2 => some .qgcSetup
  | 5 => some .relay
  | 6 => some .publisher
  | 7 => some .stack
  | _ => none

def Target.item : Target → Item
  | .relay => .relay
  | .publisher => .publisher
  | .stack => .stack

/-- The item that started the process; none did so at startup. -/
def Job.item? : Job → Option Item
  | .preflight => some .preflight
  | .menuDeploy target _ => some target.item
  | _ => none

/-- The item that a line of input chooses. -/
def AppContext.chooses (ctx : AppContext) (cmd : String) : Option Item :=
  if ctx.state = .mainMenu ∧ cmd ≠ "" then Item.ofChoice (choiceOf cmd) else none

/-- What the end of a deploy started from the menu appends. -/
def deployResult (rc : Int) (okSuffix : String) : String :=
  (if rc = 0 then okSuffix
    else "  Failed (exit " ++ toString rc ++ ").\n  See /tmp/lexaire-tui.log for stderr.") ++
    "\n\n  Press Enter to return."

/-- The state, the item chosen last, and the content in pieces. -/
structure Shown where
  ctx : AppContext
  chosen : Option Item := none
  pieces : List (Item × String) := []

/-- What a step of the menu to `ctx` leaves of the pieces, and what it adds. -/
def Shown.follow (s : Shown) (ctx : AppContext) : Label → Shown
  | .stackTick => { s with ctx }
  | .enters cmd =>
    match s.ctx.chooses cmd with
    | some item => { ctx, chosen := some item, pieces := [(item, ctx.subContent)] }
    | none => { s with ctx }
  | .completes place rc _ =>
    match s.ctx.inFlight[place]? with
    | some .preflight => { s with ctx, pieces := [(.preflight, ctx.subContent)] }
    | some (.menuDeploy target okSuffix) =>
      { s with ctx, pieces := s.pieces ++ [(target.item, deployResult rc okSuffix)] }
    | _ => { s with ctx }

def Shown.step? (s : Shown) (label : Label) : Option Shown :=
  (s.ctx.step? label).map fun ctx => s.follow ctx label

def Shown.Next (s : Shown) (label : Label) (s' : Shown) : Prop := s.step? label = some s'

def Shown.content (s : Shown) : String := String.join (s.pieces.map (·.2))

/-- In a submenu only text for the item chosen last is shown. -/
def Shown.Faithful (s : Shown) : Prop :=
  s.ctx.state = .subMenu → ∀ piece ∈ s.pieces, s.chosen = some piece.1

/-- The item whose process ends. -/
def Shown.ends? : Shown × Label → Option Item
  | (s, .completes place _ _) => s.ctx.inFlight[place]?.bind Job.item?
  | _ => none

/-- A process of a menu item does not end in another item's submenu. -/
def Shown.Own (p : Shown × Label) : Prop :=
  ∀ item ∈ Shown.ends? p, p.1.ctx.state = .subMenu → p.1.chosen = some item

instance : DecidablePred Shown.Own := fun p =>
  inferInstanceAs (Decidable (∀ item ∈ Shown.ends? p, p.1.ctx.state = .subMenu →
    p.1.chosen = some item))

/-! ## One step -/

section
variable {ctx ctx' : AppContext} {s s' : Shown} {label : Label}

/-- With its pieces the menu steps as it does without. -/
theorem Shown.next_iff : s.Next label s' ↔ ∃ ctx, s.ctx.Next label ctx ∧ s' = s.follow ctx label := by
  unfold Next step? AppContext.Next
  rw [Option.map_eq_some_iff]
  exact exists_congr fun ctx => and_congr_right fun _ => eq_comm

/-- A line that chooses no item opens no submenu. -/
theorem processCommand_none {cmd : String} (none : ctx.chooses cmd = none) :
    (processCommand ctx cmd).state ≠ .subMenu ∧
      (processCommand ctx cmd).subContent = ctx.subContent := by
  unfold processCommand
  unfold AppContext.chooses at none
  split
  · next menu =>
    split
    · simp [menu]
    · next typed =>
      rw [if_pos ⟨menu, typed⟩] at none
      split <;> simp_all [Item.ofChoice]
  · simp

@[simp] theorem state_setService (target : Target) (s : ServiceState) :
    (ctx.setService target s).state = ctx.state := by
  cases target <;> rfl

@[simp] theorem subContent_setService (target : Target) (s : ServiceState) :
    (ctx.setService target s).subContent = ctx.subContent := by
  cases target <;> rfl

theorem checked_view (target : Target) (rc : Int) :
    (checked ctx target rc).state = ctx.state ∧ (checked ctx target rc).subContent = ctx.subContent := by
  unfold checked
  dsimp only
  split
  · simp
  · simp [AppContext.spawn]

/-- The startup checks and deploys do not touch the view. -/
theorem complete_background (ctx : AppContext) (rc : Int) (output : String) {job : Job}
    (background : job.item? = none) :
    (complete ctx rc output job).state = ctx.state ∧
      (complete ctx rc output job).subContent = ctx.subContent := by
  cases job with
  | preflight => cases background
  | menuDeploy target okSuffix => cases background
  | relayCheck => exact checked_view .relay rc
  | publisherCheck => exact checked_view .publisher rc
  | stackQuery =>
    simp only [complete]
    split <;> exact ⟨rfl, rfl⟩
  | startupDeploy target => simp [complete]

theorem complete_menuDeploy (ctx : AppContext) (rc : Int) (output okSuffix : String)
    (target : Target) :
    (complete ctx rc output (.menuDeploy target okSuffix)).state = ctx.state ∧
      (complete ctx rc output (.menuDeploy target okSuffix)).subContent =
        ctx.subContent ++ deployResult rc okSuffix := by
  simp [complete, deployResult, String.append_assoc]

/-- What a step does with the view: it leaves it, closes or opens one, or the process of an
item writes. -/
inductive ViewStep (s : Shown) (label : Label) (s' : Shown) : Prop where
  | kept (state : s'.ctx.state = s.ctx.state) (content : s'.ctx.subContent = s.ctx.subContent)
      (chosen : s'.chosen = s.chosen) (pieces : s'.pieces = s.pieces)
      (own : Shown.Own (s, label)) : ViewStep s label s'
  | closed (state : s'.ctx.state ≠ .subMenu) (content : s'.ctx.subContent = s.ctx.subContent)
      (pieces : s'.pieces = s.pieces) (own : Shown.Own (s, label)) : ViewStep s label s'
  | opened (item : Item) (chosen : s'.chosen = some item)
      (pieces : s'.pieces = [(item, s'.ctx.subContent)]) (own : Shown.Own (s, label)) :
      ViewStep s label s'
  | wrote (item : Item) (state : s'.ctx.state = s.ctx.state) (chosen : s'.chosen = s.chosen)
      (own : Shown.Own (s, label) ↔ (s.ctx.state = .subMenu → s.chosen = some item))
      (pieces : s'.pieces = [(item, s'.ctx.subContent)] ∨ ∃ text,
        s'.pieces = s.pieces ++ [(item, text)] ∧ s'.ctx.subContent = s.ctx.subContent ++ text) :
      ViewStep s label s'

theorem Shown.own_of_none (quiet : Shown.ends? (s, label) = none) : Shown.Own (s, label) := by
  intro item ended
  rw [quiet] at ended
  cases ended

theorem Shown.own_of_some {item : Item} (ended : Shown.ends? (s, label) = some item) :
    Shown.Own (s, label) ↔ (s.ctx.state = .subMenu → s.chosen = some item) := by
  constructor
  · exact fun own => own item ended
  · intro chosen item' ended'
    obtain rfl := Option.some.inj (ended.symm.trans ended')
    exact chosen

theorem Shown.follow_background {place : Nat} {job : Job}
    (there : s.ctx.inFlight[place]? = some job) (background : job.item? = none) {rc : Int}
    {output : String} : s.follow ctx (.completes place rc output) = { s with ctx } := by
  simp only [follow, there]
  cases job with
  | preflight => cases background
  | menuDeploy target okSuffix => cases background
  | _ => rfl

theorem Shown.next_view (next : s.Next label s') : ViewStep s label s' := by
  obtain ⟨ctx, moved, rfl⟩ := next_iff.mp next
  cases label with
  | stackTick =>
    obtain rfl := Option.some.inj moved
    exact .kept rfl rfl rfl rfl (own_of_none rfl)
  | enters cmd =>
    obtain rfl := Option.some.inj moved
    cases chosen : s.ctx.chooses cmd with
    | some item =>
      simp only [follow, chosen]
      exact .opened item rfl rfl (own_of_none rfl)
    | none =>
      simp only [follow, chosen]
      obtain ⟨left, same⟩ := processCommand_none chosen
      exact .closed left same rfl (own_of_none rfl)
  | completes place rc output =>
    obtain ⟨job, there, rfl⟩ := Option.map_eq_some_iff.mp moved
    have ended : ends? (s, .completes place rc output) = job.item? := by
      rw [ends?, there]
      rfl
    by_cases background : job.item? = none
    · obtain ⟨state, content⟩ := complete_background (s.ctx.without place) rc output background
      rw [follow_background there background]
      exact .kept state content rfl rfl (own_of_none (ended.trans background))
    · cases job with
      | preflight =>
        simp only [follow, there]
        exact .wrote .preflight rfl rfl (own_of_some ended) (.inl rfl)
      | menuDeploy target okSuffix =>
        obtain ⟨state, content⟩ :=
          complete_menuDeploy (s.ctx.without place) rc output okSuffix target
        simp only [follow, there]
        exact .wrote target.item state rfl (own_of_some ended) (.inr ⟨_, rfl, content⟩)
      | _ => exact absurd rfl background

/-- The pieces are the content. -/
theorem Shown.next_content (whole : s.ctx.subContent = s.content) (next : s.Next label s') :
    s'.ctx.subContent = s'.content := by
  have one (item : Item) (text : String) : String.join ([(item, text)].map (·.2)) = text := by
    simp
  unfold content at whole ⊢
  cases next_view next with
  | kept state content chosen pieces own => rw [content, pieces, whole]
  | closed state content pieces own => rw [content, pieces, whole]
  | opened item chosen pieces own => rw [pieces, one]
  | wrote item state chosen own pieces =>
    rcases pieces with pieces | ⟨text, pieces, content⟩
    · rw [pieces, one]
    · rw [pieces, content, whole, List.map_append, String.join_append, one]

/-- From a faithful view a step leads to a faithful one exactly when a process that ends is
the view's own. -/
theorem Shown.next_faithful_iff (faithful : s.Faithful) (next : s.Next label s') :
    s'.Faithful ↔ Shown.Own (s, label) := by
  unfold Faithful at faithful ⊢
  cases next_view next with
  | kept state content chosen pieces own =>
    rw [state, chosen, pieces]
    exact iff_of_true faithful own
  | closed state content pieces own => exact iff_of_true (fun shown => absurd shown state) own
  | opened item chosen pieces own =>
    rw [chosen, pieces]
    exact iff_of_true (by simp) own
  | wrote item state chosen own pieces =>
    rw [own, state, chosen]
    apply forall_congr'
    intro shown
    rcases pieces with pieces | ⟨text, pieces, content⟩
    · simp [pieces]
    · rw [pieces, List.forall_mem_append]
      constructor
      · exact fun both => both.2 _ List.mem_cons_self
      · exact fun chosen => ⟨faithful shown, by simpa using chosen⟩

/-! ## Runs -/

variable {path : List (Shown × Label)}

theorem launched_view (droneHost publisherRepo : String) :
    (launched droneHost publisherRepo).state = .mainMenu ∧
      (launched droneHost publisherRepo).subContent = "" := by
  unfold launched ensurePublisherRunning
  split <;> exact ⟨rfl, rfl⟩

/-- What a submenu shows is the text of the item chosen last, at every point of a run,
exactly when the processes that end while a submenu is shown are its own. -/
theorem submenu_faithful_iff {droneHost publisherRepo : String}
    (run : Run Shown.Next { ctx := launched droneHost publisherRepo } path s) :
    s.ctx.subContent = s.content ∧
      (((∀ p ∈ path, p.1.Faithful) ∧ s.Faithful) ↔ ∀ p ∈ path, Shown.Own p) := by
  generalize started : ({ ctx := launched droneHost publisherRepo } : Shown) = t at run
  constructor
  · refine Run.invariant_always (I := fun s => s.ctx.subContent = s.content)
      (fun whole next => Shown.next_content whole next) run ?_
    subst started
    exact (launched_view droneHost publisherRepo).2
  · induction run with
    | nil =>
      subst started
      exact iff_of_true ⟨by simp, fun _ piece member => nomatch member⟩ (by simp)
    | snoc earlier next ih =>
      simp only [List.forall_mem_append, List.forall_mem_singleton]
      rw [← ih]
      constructor
      · rintro ⟨⟨before, here⟩, there⟩
        exact ⟨⟨before, here⟩, (Shown.next_faithful_iff here next).mp there⟩
      · rintro ⟨⟨before, here⟩, own⟩
        exact ⟨⟨before, here⟩, (Shown.next_faithful_iff here next).mpr own⟩

end

/-- The relay is redeployed under the eyes of the operator. -/
theorem submenu_faithful_iff_watched : ∃ path s,
    Run Shown.Next { ctx := launched "pi@drone" "https://host/repo" } path s ∧
      s.ctx.state = .subMenu ∧ s.pieces.length = 2 ∧ s.ctx.subContent = s.content ∧
      (∀ p ∈ path, p.1.Faithful) ∧ s.Faithful := by
  have replayed : ∃ path s, replay Shown.step? { ctx := launched "pi@drone" "https://host/repo" }
      [.enters "5", .completes 3 0 ""] = some (path, s) ∧ s.ctx.state = .subMenu ∧
      s.pieces.length = 2 ∧ ∀ p ∈ path, Shown.Own p :=
    ⟨_, _, rfl, rfl, rfl, by decide +kernel⟩
  obtain ⟨path, s, replayed, shown, two, own⟩ := replayed
  have run : Run Shown.Next _ path s := .of_replay id replayed
  obtain ⟨whole, faithful⟩ := submenu_faithful_iff run
  exact ⟨path, s, run, shown, two, whole, faithful.mpr own⟩

/-- The operator turns to another item while the relay is redeployed. -/
theorem relay_result_elsewhere : ¬ ∀ droneHost publisherRepo path s,
    Run Shown.Next { ctx := launched droneHost publisherRepo } path s → s.Faithful := by
  intro claimed
  have replayed : ∃ path s, replay Shown.step? { ctx := launched "pi@drone" "https://host/repo" }
      [.enters "5", .enters "", .enters "2", .completes 3 0 ""] = some (path, s) ∧
      s.ctx.state = .subMenu ∧ s.chosen = some .qgcSetup ∧ s.pieces.map (·.1) = [.qgcSetup, .relay] :=
    ⟨_, _, rfl, rfl, rfl, rfl⟩
  obtain ⟨path, s, replayed, shown, chosen, items⟩ := replayed
  have faithful := claimed _ _ path s (.of_replay id replayed) shown
  have member : Item.relay ∈ s.pieces.map (·.1) := by simp [items]
  obtain ⟨piece, there, relay⟩ := List.mem_map.mp member
  have same := chosen.symm.trans (faithful piece there)
  rw [relay] at same
  cases same

end Lexaire.Tui
