import Lexaire.Publisher.Script

/-! What a deploy that exits 0 leaves running. The script decides whether to build by
comparing two commits of the checkout; the image is a third one, and it is left behind
when a deploy moves the checkout and then ends before it has built. -/
namespace Lexaire.Publisher
open Atomic Atomic.Program Transition

variable {ImageName Commit : Type} (imageName : Commit → ImageName)

/-- The image is not the checkout's. -/
def Behind (s : Companion ImageName Commit) (c : Checkout Commit) : Prop :=
  ∃ image, s.images (imageName c.head) = some image ∧ image ≠ c.head

/-- The checkout is the one requested and up to date, and its image is not its own. -/
def Stale (url : String) (s : Companion ImageName Commit) : Prop :=
  ∃ c, s.checkout = some c ∧ c.url = url ∧ c.head = s.upstream url ∧ Behind imageName s c

/-- No checkout is ahead of its image. -/
def Built (s : Companion ImageName Commit) : Prop :=
  ∀ c, s.checkout = some c → ¬ Behind imageName s c

/-- What a deploy that exits 0 has done. -/
structure Deployed (url : String) (s s' : Companion ImageName Commit) : Prop where
  current : ¬ Stale imageName url s → s'.running = some (s.upstream url)
  built : Built imageName s → Built imageName s'

section
variable {imageName} {s s' : Companion ImageName Commit} {c : Checkout Commit} {url : String}

theorem Built.not_stale (built : Built imageName s) : ¬ Stale imageName url s := by
  rintro ⟨c, here, -, -, behind⟩
  exact built c here behind

theorem upCommit_eq (build : Bool) (current : ¬ Behind imageName s c) :
    s.upCommit imageName build c = c.head := by
  cases build with
  | true => rfl
  | false =>
    simp only [Companion.upCommit, Bool.false_eq_true, if_false]
    cases image : s.images (imageName c.head) with
    | none => rfl
    | some commit => exact not_not.mp fun other => current ⟨commit, image, other⟩

variable [DecidableEq ImageName]

theorem not_behind_up {build : Bool} (same : s.upCommit imageName build c = c.head) :
    ¬ Behind imageName (s.up imageName build c) c := by
  rintro ⟨image, held, other⟩
  simp only [Companion.up, Companion.upImages, Function.update_self, Option.some.injEq] at held
  exact other (held.symm.trans same)

theorem built_up {build : Bool} (here : s.checkout = some c)
    (same : s.upCommit imageName build c = c.head) : Built imageName (s.up imageName build c) := by
  intro c' here'
  obtain rfl : c = c' := Option.some.inj (here.symm.trans here')
  exact not_behind_up same

/-! ## The commands -/

/-- What holds of a script that runs with nothing else touching the companion. -/
abbrev Ensures (imageName : Commit → ImageName) {α : Type}
    (post : Except Aborted α → Companion ImageName Commit → Prop) (p : Script Commit α)
    (s : Companion ImageName Commit) : Prop :=
  p.Holds (.alone (Effect imageName)) (fun _ _ => True) post s

/-- Whatever ends badly is no deploy. -/
def Returns {α : Type} (post : α → Companion ImageName Commit → Prop) :
    Except Aborted α → Companion ImageName Commit → Prop
  | .ok a, s => post a s
  | .error _, _ => True

variable {post : Unit → Companion ImageName Commit → Prop}

theorem checked_ensures {command : Command}
    (succeeded : ∀ s', Effect imageName (.run command) s true s' → post () s') :
    Ensures imageName (Returns post) (checked command) s := by
  apply Holds.alone_step trivial
  intro r s' effect
  cases r with
  | true => exact Holds.alone_done (succeeded s' effect)
  | false => exact Holds.alone_raise trivial

theorem Ensures.andThen {α β : Type} {mid : α → Companion ImageName Commit → Prop}
    {post : β → Companion ImageName Commit → Prop} {p : Script Commit α} {f : α → Script Commit β}
    (first : Ensures imageName (Returns mid) p s)
    (rest : ∀ a s, mid a s → Ensures imageName (Returns post) (f a) s) :
    Ensures imageName (Returns post) (p >>= f) s :=
  Holds.bind first rest fun _ _ _ => trivial

theorem perform_ensures {α : Type} {post : α → Companion ImageName Commit → Prop} {op : Op}
    {f : op.Answer Commit → Script Commit α}
    (after : ∀ r s', Effect imageName op s r s' → Ensures imageName (Returns post) (f r) s') :
    Ensures imageName (Returns post) (perform op >>= f) s :=
  Holds.alone_step trivial after

theorem composeUp_ensures {build : Bool} (here : s.checkout = some c)
    (up : post () (s.up imageName build c)) :
    Ensures imageName (Returns post) (checked (.composeUp build)) s := by
  apply checked_ensures
  intro s' effect
  cases effect with
  | composeUp _ here' =>
    obtain rfl : c = _ := Option.some.inj (here.symm.trans here')
    exact up

/-! ## The parts of the script -/

/-- The script comes to a deploy of `url` with nothing changed and the repository's own
checkout, or with none. -/
structure Found (url : String) (s s' : Companion ImageName Commit) : Prop where
  upstream : s'.upstream = s.upstream
  checkout : s' = s ∧ (∃ c, s.checkout = some c ∧ c.url = url) ∨ s'.checkout = none

theorem dropOther_ensures (named : url ≠ "") :
    Ensures imageName (Returns fun _ => Found url s) (dropOther url) s := by
  apply perform_ensures
  rintro - - ⟨⟩
  cases here : s.checkout with
  | none => exact Holds.alone_done ⟨rfl, .inr here⟩
  | some c =>
    apply perform_ensures
    intro haveUrl s' effect
    have still : s' = s := by cases effect <;> rfl
    subst still
    by_cases other : Option.getD haveUrl "" ≠ url
    · rw [if_pos other]
      apply perform_ensures
      intro down t effect
      cases down with
      | false => exact Holds.alone_raise trivial
      | true =>
        apply checked_ensures
        intro t' removed
        cases effect
        cases removed
        exact ⟨rfl, .inr rfl⟩
    · rw [if_neg other]
      apply Holds.alone_done
      refine ⟨rfl, .inl ⟨rfl, c, here, ?_⟩⟩
      cases effect with
      | originUrl here' =>
        obtain rfl : c = _ := Option.some.inj (here.symm.trans here')
        exact not_not.mp other
      | originUrl_failed => exact absurd (not_not.mp other).symm named

theorem head_ensures {f : Commit → Script Commit Unit} (here : s.checkout = some c)
    (rest : Ensures imageName (Returns post) (f c.head) s) :
    Ensures imageName (Returns post)
      (perform .head >>= fun answer => assigned .head answer >>= f) s := by
  apply perform_ensures
  intro answer s' effect
  cases effect with
  | head here' =>
    obtain rfl : c = _ := Option.some.inj (here.symm.trans here')
    exact rest
  | head_failed => exact Holds.alone_raise trivial

theorem originHead_ensures {f : Commit → Script Commit Unit} (here : s.checkout = some c)
    (rest : Ensures imageName (Returns post) (f c.originHead) s) :
    Ensures imageName (Returns post)
      (perform .originHead >>= fun answer => assigned .originHead answer >>= f) s := by
  apply perform_ensures
  intro answer s' effect
  cases effect with
  | originHead here' =>
    obtain rfl : c = _ := Option.some.inj (here.symm.trans here')
    exact rest
  | originHead_failed => exact Holds.alone_raise trivial

theorem firstDeploy_ensures (same : s'.upstream = s.upstream) :
    Ensures imageName (Returns fun _ => Deployed imageName url s) (firstDeploy url) s' := by
  have cloned : Ensures imageName (Returns fun _ t => ∃ c, t.checkout = some c ∧
      c.head = s.upstream url) (checked (.clone url)) s' := by
    apply checked_ensures
    intro t effect
    cases effect
    exact ⟨_, rfl, congrFun same url⟩
  apply cloned.andThen
  rintro - t ⟨c, here, head⟩
  apply composeUp_ensures here
  constructor
  · intro _
    exact congrArg some head
  · intro _
    exact built_up here rfl

/-- Where the script may get to. -/
def Reaches (imageName : Commit → ImageName) (p : Script Commit Unit)
    (s : Companion ImageName Commit) (rest : Script Commit Unit) (s' : Companion ImageName Commit) :
    Prop :=
  ∃ path, Run (Turn (Effect imageName)) (p, s) path (rest, s')

variable {rest : Script Commit Unit}

theorem Reaches.here : Reaches imageName rest s rest s := ⟨[], .nil _⟩

theorem Reaches.step {op : Op} {next : op.Answer Commit → Script Commit Unit}
    {t : Companion ImageName Commit} (r : op.Answer Commit) (effect : Effect imageName op s r t)
    (reaches : Reaches imageName (next r) t rest s') :
    Reaches imageName (.step op next) s rest s' := by
  obtain ⟨path, run⟩ := reaches
  exact ⟨_, (Run.single (.perform r effect)).trans run⟩

theorem found_checkout (here : s.checkout = some c) : Effect imageName .hasCheckout s true s := by
  have found : s.checkout.isSome = true := by rw [here, Option.isSome_some]
  exact found ▸ .hasCheckout s

theorem no_checkout (none : s.checkout = none) : Effect imageName .hasCheckout s false s := by
  have found : s.checkout.isSome = false := by rw [none, Option.isSome_none]
  exact found ▸ .hasCheckout s

variable [DecidableEq Commit]

theorem update_ensures (here : s.checkout = some c) (own : c.url = url) :
    Ensures imageName (Returns fun _ => Deployed imageName url s) update s := by
  have fetched : Ensures imageName (Returns fun _ s' => s' = s.fetched c) (checked .fetch) s := by
    apply checked_ensures
    intro s' effect
    cases effect with
    | fetch here' =>
      obtain rfl : c = _ := Option.some.inj (here.symm.trans here')
      rfl
  apply fetched.andThen
  rintro - s' rfl
  apply head_ensures rfl
  apply originHead_ensures rfl
  by_cases same : c.head = s.upstream c.url
  · rw [if_pos same]
    apply composeUp_ensures rfl
    have used (current : ¬ Behind imageName s c) :
        (s.fetched c).upCommit imageName false { c with originHead := s.upstream c.url } = c.head :=
      upCommit_eq false current
    constructor
    · intro notStale
      refine congrArg some ((used fun behind => notStale ?_).trans (same.trans (own ▸ rfl)))
      exact ⟨c, here, own, own ▸ same, behind⟩
    · intro built
      exact built_up rfl (used (built c here))
  · rw [if_neg same]
    have wasReset : Ensures imageName (Returns fun _ s' =>
        s' = (s.fetched c).wasReset { c with originHead := s.upstream c.url })
        (checked .resetHard) (s.fetched c) := by
      apply checked_ensures
      intro s' effect
      cases effect with
      | resetHard here' =>
        obtain rfl := Option.some.inj here'
        rfl
    apply wasReset.andThen
    rintro - s' rfl
    apply composeUp_ensures rfl
    constructor
    · intro _
      exact congrArg some (own ▸ rfl)
    · intro _
      exact built_up rfl rfl

theorem deployPublisher_ensures :
    Ensures imageName (Returns fun _ => Deployed imageName url s) (deployPublisher url) s := by
  unfold deployPublisher
  by_cases unset : url = ""
  · rw [if_pos unset]
    exact Holds.alone_raise trivial
  rw [if_neg unset]
  apply (dropOther_ensures unset).andThen
  rintro - s' ⟨upstream, found⟩
  apply perform_ensures
  intro r t effect
  cases effect
  rcases found with ⟨rfl, c, here, own⟩ | none
  · rw [here]
    exact update_ensures here own
  · rw [none]
    exact firstDeploy_ensures upstream

end

/-! ## Deploys -/

variable [DecidableEq ImageName] [DecidableEq Commit]

/-- How a deploy ended; `none` when it was killed. -/
def ended : Script Commit Unit → Option (Except Aborted Unit)
  | .done _ => some (.ok ())
  | .raise why => some (.error why)
  | .step _ _ => none

inductive Label (Commit : Type) where
  | deploys (url : String) (ended : Option (Except Aborted Unit)) (running : Option Commit)
  | moves (url : String) (commit : Commit)

def Label.Succeeds : Label Commit → Prop
  | .deploys _ ended _ => ended = some (.ok ())
  | .moves _ _ => True

/-- A deploy runs as far as it gets; the repositories move between deploys. -/
inductive Next : Companion ImageName Commit → Label Commit → Companion ImageName Commit → Prop where
  | deploys {s s' : Companion ImageName Commit} {url : String} {rest : Script Commit Unit}
      {path : List _} :
      Run (Turn (Effect imageName)) (deployPublisher url, s) path (rest, s') →
      Next s (.deploys url (ended rest) s'.running) s'
  | moves (s : Companion ImageName Commit) (url : String) (commit : Commit) :
      Next s (.moves url commit) { s with upstream := Function.update s.upstream url commit }

/-- Nothing is cloned, and nothing runs. -/
def Companion.fresh (upstream : String → Commit) : Companion ImageName Commit :=
  { checkout := none, images := fun _ => none, running := none, upstream }

/-- A deploy that exits 0 runs what the requested repository declares. -/
def Current : Companion ImageName Commit × Label Commit → Prop
  | (s, .deploys url (some (.ok _)) running) => running = some (s.upstream url)
  | _ => True

def StartsStale : Companion ImageName Commit × Label Commit → Prop
  | (s, .deploys url _ _) => Stale imageName url s
  | (_, .moves _ _) => False

section
variable {imageName} {s s' : Companion ImageName Commit} {c : Checkout Commit} {url : String}

theorem deploys_ok {outcome : Option (Except Aborted Unit)} {running : Option Commit}
    (moved : Next imageName s (.deploys url outcome running) s') (exited : outcome = some (.ok ())) :
    Deployed imageName url s s' ∧ running = s'.running := by
  cases moved with
  | @deploys _ _ rest _ run =>
    have ensured := Holds.along run deployPublisher_ensures
    cases rest with
    | done => exact ⟨ensured.returned, rfl⟩
    | raise why => cases exited
    | step op next => cases exited

theorem next_current {label : Label Commit} (moved : Next imageName s label s')
    (notStale : ¬ StartsStale imageName (s, label)) : Current (s, label) := by
  cases label with
  | moves url commit => trivial
  | deploys url outcome running =>
    rcases outcome with _ | _ | _
    · trivial
    · trivial
    · obtain ⟨deployed, rfl⟩ := deploys_ok moved rfl
      exact deployed.current notStale

variable {rest : Script Commit Unit}

theorem Reaches.next (reaches : Reaches imageName (deployPublisher url) s rest s') :
    Next imageName s (.deploys url (ended rest) s'.running) s' := by
  obtain ⟨path, run⟩ := reaches
  exact .deploys run

/-- With the repository's own checkout the script goes on to the update. -/
theorem Reaches.own (here : s.checkout = some c) (reaches : Reaches imageName update s rest s') :
    Reaches imageName (deployPublisher c.url) s rest s' := by
  rw [deployPublisher, if_neg c.named]
  simp only [dropOther, perform_bind, step_bind]
  refine .step true (found_checkout here) ?_
  refine .step (some c.url) (.originUrl here) ?_
  simp only [Option.getD_some, ne_eq, not_true_eq_false, if_false]
  exact .step true (found_checkout here) reaches

/-- With none it goes on to the first deploy. -/
theorem Reaches.none (none : s.checkout = none) (named : url ≠ "")
    (reaches : Reaches imageName (firstDeploy url) s rest s') :
    Reaches imageName (deployPublisher url) s rest s' := by
  rw [deployPublisher, if_neg named]
  simp only [dropOther, perform_bind, step_bind]
  refine .step false (no_checkout none) ?_
  exact .step false (no_checkout none) reaches

/-- The fetch, and the two heads read. -/
theorem Reaches.fetched (here : s.checkout = some c)
    (reaches : Reaches imageName (if c.head = s.upstream c.url then checked (.composeUp false)
      else do checked .resetHard; checked (.composeUp true)) (s.fetched c) rest s') :
    Reaches imageName update s rest s' := by
  have here' : (s.fetched c).checkout = some { c with originHead := s.upstream c.url } := rfl
  simp only [update, checked, perform_bind, step_bind]
  refine .step true (.fetch here) ?_
  have head : Effect imageName .head (s.fetched c) (some c.head) (s.fetched c) :=
    .head (c := { c with originHead := s.upstream c.url }) here'
  refine .step (some c.head) head ?_
  exact .step (some (s.upstream c.url)) (.originHead here') reaches

/-- The checkout that a clone or a reset of `url` leaves. -/
def Companion.checkedOut (s : Companion ImageName Commit) (url : String) (named : url ≠ "") :
    Checkout Commit :=
  ⟨url, s.upstream url, s.upstream url, named⟩

theorem first_deploys (none : s.checkout = none) (named : url ≠ "") :
    Next imageName s (.deploys url (some (.ok ())) (some (s.upstream url)))
      (Companion.up imageName { s with checkout := some (s.checkedOut url named) } true
        (s.checkedOut url named)) := by
  have reaches : Reaches imageName (firstDeploy url) s (.done ())
      (Companion.up imageName { s with checkout := some (s.checkedOut url named) } true
        (s.checkedOut url named)) :=
    .step true (.clone none named) (.step true (.composeUp true rfl) .here)
  exact (Reaches.none none named reaches).next

/-- A deploy whose build fails has moved the checkout already. -/
theorem unbuilt_deploys (here : s.checkout = some c) (moved : c.head ≠ s.upstream c.url) :
    Next imageName s
      (.deploys c.url (some (.error (.failed (.run (.composeUp true))))) s.running)
      { s with checkout := some (s.checkedOut c.url c.named) } := by
  have reaches : Reaches imageName (deployPublisher c.url) s
      (.raise (.failed (.run (.composeUp true))))
      { s with checkout := some (s.checkedOut c.url c.named) } := by
    apply Reaches.own here
    apply Reaches.fetched here
    rw [if_neg moved]
    have reset : Effect imageName (.run .resetHard) (s.fetched c) true
        { s with checkout := some (s.checkedOut c.url c.named) } :=
      .resetHard (c := { c with originHead := s.upstream c.url }) rfl
    exact .step true reset (.step false (.build_failed _ true) .here)
  exact reaches.next

/-- With the checkout up to date an existing image is run, whatever it was built from. -/
theorem reused_deploys {image : Commit} (here : s.checkout = some c)
    (same : c.head = s.upstream c.url) (held : s.images (imageName c.head) = some image) :
    ∃ s', Next imageName s (.deploys c.url (some (.ok ())) (some image)) s' := by
  have used : (s.fetched c).upCommit imageName false { c with originHead := s.upstream c.url } =
      image := by
    simp [Companion.upCommit, Companion.fetched, held]
  have reaches : Reaches imageName (deployPublisher c.url) s (.done ())
      ((s.fetched c).up imageName false { c with originHead := s.upstream c.url }) := by
    apply Reaches.own here
    apply Reaches.fetched here
    rw [if_pos same]
    exact .step true (.composeUp false rfl) .here
  have moved := reaches.next
  simp only [Companion.up, used] at moved
  exact ⟨_, moved⟩

theorem stale_deploys (stale : Stale imageName url s) : ∃ running s',
    Next imageName s (.deploys url (some (.ok ())) running) s' ∧ running ≠ some (s.upstream url) := by
  obtain ⟨c, here, rfl, same, image, held, other⟩ := stale
  obtain ⟨s', moved⟩ := reused_deploys here same held
  refine ⟨_, s', moved, ?_⟩
  intro current
  exact other ((Option.some.inj current).trans same.symm)

/-- From any companion, after any deploys that ended in any way and any moves of the
repositories between them: a deploy that does not start stale runs what the repository
declares, and exactly the stale companions can be deployed without running it. -/
theorem deploys_current_iff {s₀ : Companion ImageName Commit}
    {path : List (Companion ImageName Commit × Label Commit)}
    (run : Run (Next imageName) s₀ path s) :
    (∀ p ∈ path, ¬ StartsStale imageName p → Current p) ∧
      ∀ url, (∀ outcome running s', Next imageName s (.deploys url outcome running) s' →
        Current (s, .deploys url outcome running)) ↔ ¬ Stale imageName url s := by
  constructor
  · intro p member notStale
    obtain ⟨before, after, at_step⟩ := List.append_of_mem member
    obtain ⟨u, -, moved⟩ := run.split at_step
    exact next_current moved notStale
  · intro url
    constructor
    · intro current stale
      obtain ⟨running, s', moved, other⟩ := stale_deploys stale
      exact other (current _ _ _ moved)
    · intro notStale outcome running s' moved
      exact next_current moved notStale

/-- The image is the checkout's for as long as no deploy fails or is killed. -/
theorem unfailing_current {s₀ : Companion ImageName Commit}
    {path : List (Companion ImageName Commit × Label Commit)}
    (run : Run (Next imageName) s₀ path s) (built : Built imageName s₀)
    (unfailing : ∀ p ∈ path, p.2.Succeeds) : ∀ p ∈ path, Current p := by
  refine (run.invariant (fun _ label => label.Succeeds) (fun s label => Current (s, label))
    ?_ ?_ built unfailing).2
  · intro s label s' built succeeded moved
    cases label with
    | moves url commit =>
      cases moved
      exact built
    | deploys url outcome running =>
      exact (deploys_ok moved succeeded).1.built built
  · intro s label s' built succeeded moved
    apply next_current moved
    cases label with
    | moves url commit => exact id
    | deploys url outcome running => exact built.not_stale

end

/-! One repository whose containers run from one image. -/

def oneImage (_ : Nat) : Unit := ()

/-- The repository stands at commit 1 and moves to 2; the build of 2 fails. -/
def failedUpdate : List (Label Nat) :=
  [.deploys "publisher" (some (.ok ())) (some 1), .moves "publisher" 2,
    .deploys "publisher" (some (.error (.failed (.run (.composeUp true))))) (some 1)]

theorem publisher_named : "publisher" ≠ "" := by decide

theorem failed_update_runs : ∃ path s, Run (Next oneImage) (.fresh fun _ => 1) path s ∧
    path.map Prod.snd = failedUpdate ∧ s.checkout = some ⟨"publisher", 2, 2, publisher_named⟩ ∧
    s.images (oneImage 2) = some 1 ∧ s.upstream "publisher" = 2 := by
  have first : Run (Next oneImage) (.fresh fun _ => 1) _ _ :=
    .single (first_deploys rfl publisher_named)
  have update := (first.snoc (.moves _ "publisher" 2)).snoc
    (unbuilt_deploys (c := ⟨"publisher", 1, 1, publisher_named⟩) rfl (by decide))
  exact ⟨_, _, update, rfl, rfl, rfl, rfl⟩

/-- The next deploy exits 0 and runs the image of 1, although its fetch finds 2. -/
theorem old_image_deployed : ∃ path s, Run (Next oneImage) (.fresh fun _ => 1) path s ∧
    path.map Prod.snd = failedUpdate ++ [.deploys "publisher" (some (.ok ())) (some 1)] ∧
    ∃ p ∈ path, ¬ Current p := by
  obtain ⟨path, s, run, labels, here, held, upstream⟩ := failed_update_runs
  obtain ⟨s', reused⟩ := reused_deploys here upstream.symm held
  refine ⟨_, s', run.snoc reused, ?_, _, List.mem_append_right path (List.mem_singleton_self _), ?_⟩
  · rw [List.map_append, labels, List.map_singleton]
  · simp [Current, upstream]

theorem deploys_current_iff_failed_update : ∃ path s, Run (Next oneImage) (.fresh fun _ => 1) path s ∧
    path.map Prod.snd = failedUpdate ∧ (∀ p ∈ path, ¬ StartsStale oneImage p → Current p) ∧
    ¬ ∀ outcome running s', Next oneImage s (.deploys "publisher" outcome running) s' →
      Current (s, .deploys "publisher" outcome running) := by
  obtain ⟨path, s, run, labels, here, held, upstream⟩ := failed_update_runs
  obtain ⟨current, iff_stale⟩ := deploys_current_iff run
  refine ⟨path, s, run, labels, current, ?_⟩
  rw [iff_stale "publisher", not_not]
  exact ⟨_, here, rfl, upstream.symm, 1, held, by decide⟩

end Lexaire.Publisher
