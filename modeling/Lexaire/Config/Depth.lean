import Lexaire.Config.Lookups

/-! How deep maps nest below the root decides how long a path can be followed. A
lookup on a map moves the root one level down, and none moves it up again, so the
longest path of the file is out of reach from the second lookup on. -/
namespace Lexaire
open Yaml

/-- Keys that a dotted path can spell. -/
def DotFree (key : String) : Prop := '.' ∉ key.toList

/-- From content `c`, at most `n` maps nest along such keys. -/
def Within (m : Memory) : Nat → Nat → Prop
  | 0, c => (m.content c).isMap = false
  | n + 1, c => ∀ entries key cell, m.content c = .map entries → DotFree key →
      entries.lookup key = some cell → Within m n (m.ref cell)

theorem within_of_not_map {m : Memory} {c : Nat} (scalar : (m.content c).isMap = false) (n : Nat) :
    Within m n c := by
  cases n with
  | zero => exact scalar
  | succ n =>
    intro entries key cell at_c
    rw [at_c] at scalar
    cases scalar

theorem Within.succ {m : Memory} {n c : Nat} (within : Within m n c) : Within m (n + 1) c := by
  induction n generalizing c with
  | zero => exact within_of_not_map within 1
  | succ n ih =>
    intro entries key cell at_c spelled found
    exact ih (within entries key cell at_c spelled found)

theorem Within.mono {m : Memory} {n k c : Nat} (within : Within m n c) (le : n ≤ k) :
    Within m k c := by
  induction le with
  | refl => exact within
  | step _ ih => exact ih.succ

theorem Within.child {m : Memory} {n c cell : Nat} {entries : List (String × Nat)} {key : String}
    (within : Within m n c) (at_c : m.content c = .map entries) (spelled : DotFree key)
    (found : entries.lookup key = some cell) : ∃ k, n = k + 1 ∧ Within m k (m.ref cell) := by
  cases n with
  | zero =>
    simp only [Within, at_c] at within
    cases within
  | succ k => exact ⟨k, rfl, within entries key cell at_c spelled found⟩

/-- No content is its own child. -/
theorem Within.child_ne {m : Memory} {n c cell : Nat} {entries : List (String × Nat)} {key : String}
    (within : Within m n c) (at_c : m.content c = .map entries) (spelled : DotFree key)
    (found : entries.lookup key = some cell) : m.ref cell ≠ c := by
  intro same
  induction n with
  | zero =>
    obtain ⟨k, absurd, -⟩ := within.child at_c spelled found
    cases absurd
  | succ n ih =>
    apply ih
    simpa only [same] using within entries key cell at_c spelled found

theorem within_fresh {m : Memory} (fresh : Fresh m) {n c : Nat} (below : c < n) :
    Within m n c := by
  induction n generalizing c with
  | zero => exact absurd below (Nat.not_lt_zero c)
  | succ n ih =>
    intro entries key cell at_c _ found
    apply ih
    have older := fresh.ordered at_c (mem_of_lookup found)
    omega

theorem within_redirect {m : Memory} {cur target : Nat}
    (lower : ∀ n, Within m n (m.ref cur) → Within m n target) {n c : Nat} (within : Within m n c) :
    Within (m.redirect cur target) n c := by
  induction n generalizing c with
  | zero => exact within
  | succ n ih =>
    intro entries key cell at_c spelled found
    have old := within entries key cell at_c spelled found
    by_cases same : cell = cur
    · subst same
      simpa only [Memory.redirect, Function.update_self] using ih (lower n old)
    · simpa only [Memory.redirect, Function.update_of_ne same] using ih old

theorem within_insert {m : Memory} (closed : Closed m) {d : Nat} {entries : List (String × Nat)}
    {key : String} (at_d : m.content d = .map entries) {n c : Nat} (below : c < m.next)
    (within : Within m n c) : Within (m.insert d entries key) n c := by
  have undefined : (m.insert d entries key).content m.next = .undefined := by
    have apart : m.next ≠ d := by
      rintro rfl
      rw [closed.blank (Nat.le_refl _)] at at_d
      cases at_d
    rw [insert_content, Function.update_of_ne apart, Function.update_self]
  have kept {e : Nat} (old : e < m.next) (other : e ≠ d) :
      (m.insert d entries key).content e = m.content e := by
    rw [insert_content, Function.update_of_ne other, Function.update_of_ne (Nat.ne_of_lt old)]
  induction n generalizing c with
  | zero =>
    have other : c ≠ d := by
      rintro rfl
      simp only [Within, at_d] at within
      cases within
    simpa only [Within, kept below other] using within
  | succ n ih =>
    intro entries' key' cell at_c spelled found
    have older {es} (at_c : m.content c = .map es) (found : es.lookup key' = some cell) :
        Within (m.insert d entries key) n ((m.insert d entries key).ref cell) := by
      have bound := closed.bounded at_c (mem_of_lookup found)
      rw [insert_ref, Function.update_of_ne (Nat.ne_of_lt bound)]
      exact ih (closed.refs bound) (within es key' cell at_c spelled found)
    by_cases same : c = d
    · subst same
      rw [insert_content, Function.update_self] at at_c
      obtain rfl := Content.map.inj at_c
      rw [List.lookup_append] at found
      cases at_key : entries.lookup key' with
      | some cell' =>
        simp only [at_key, Option.some_or, Option.some.injEq] at found
        exact older at_d (found ▸ at_key)
      | none =>
        simp only [at_key, Option.none_or] at found
        obtain ⟨-, rfl⟩ := Prod.mk.inj (List.mem_singleton.mp (mem_of_lookup found))
        rw [insert_ref, Function.update_self]
        apply within_of_not_map
        rw [undefined]
        rfl
    · rw [kept below same] at at_c
      exact older at_c found

/-- Every cell refers at least as deep in the tree as before. -/
structure Lowered (m m' : Memory) : Prop where
  next : m.next ≤ m'.next
  within : ∀ {n cell}, cell < m.next → Within m n (m.ref cell) → Within m' n (m'.ref cell)

theorem Lowered.refl (m : Memory) : Lowered m m := ⟨Nat.le_refl _, fun _ within => within⟩

theorem Lowered.trans {m m' m'' : Memory} (first : Lowered m m') (second : Lowered m' m'') :
    Lowered m m'' where
  next := Nat.le_trans first.next second.next
  within below within :=
    second.within (Nat.lt_of_lt_of_le below first.next) (first.within below within)

/-- What `cur = cur[part]` leaves behind, on a map. -/
structure Entered (m : Memory) (cur n : Nat) (m' : Memory) (cur' : Nat) : Prop where
  closed : Closed m'
  lowered : Lowered m m'
  below : cur' < m'.next
  handle : Within m' n (m'.ref cur')
  cell : Within m' n (m'.ref cur)

theorem redirect_entered {m : Memory} (closed : Closed m) {cur child n : Nat}
    (below : child < m.next) (other : child ≠ cur)
    (lower : ∀ n, Within m n (m.ref cur) → Within m n (m.ref child))
    (within : Within m n (m.ref child)) :
    Entered m cur n (m.redirect cur (m.ref child)) child where
  closed := closed.redirect (closed.refs below)
  below := below
  lowered := by
    refine ⟨Nat.le_refl _, ?_⟩
    intro k cell bound within
    by_cases same : cell = cur
    · subst same
      simpa only [Memory.redirect, Function.update_self] using
        within_redirect lower (lower k within)
    · simpa only [Memory.redirect, Function.update_of_ne same] using
        within_redirect lower within
  handle := by
    simpa only [Memory.redirect, Function.update_of_ne other] using within_redirect lower within
  cell := by
    simpa only [Memory.redirect, Function.update_self] using within_redirect lower within

theorem enter_lowers {m : Memory} (closed : Closed m) {cur n : Nat} (below : cur < m.next)
    (within : Within m n (m.ref cur)) (map : (m.contentOf cur).isMap = true) {part : String}
    (spelled : DotFree part) :
    ∃ k, n = k + 1 ∧ Entered m cur k (m.enter cur part).1 (m.enter cur part).2 := by
  cases at_cur : m.contentOf cur with
  | map entries =>
    have at_ref : m.content (m.ref cur) = .map entries := at_cur
    cases found : entries.lookup part with
    | some child =>
      obtain ⟨k, rfl, deeper⟩ := within.child at_ref spelled found
      have apart := within.child_ne at_ref spelled found
      rw [Memory.enter_found at_cur found apart]
      refine ⟨k, rfl, redirect_entered closed (closed.bounded at_ref (mem_of_lookup found)) ?_ ?_
        deeper⟩
      · rintro rfl
        exact apart rfl
      · intro j inside
        obtain ⟨i, rfl, deeper⟩ := inside.child at_ref spelled found
        exact deeper.succ
    | none =>
      cases n with
      | zero =>
        simp only [Within, at_ref] at within
        cases within
      | succ k =>
        rw [Memory.enter_missing at_cur found below (closed.refs below)]
        have inserted := closed.insert at_ref (closed.refs below) part
        have child : (m.insert (m.ref cur) entries part).ref m.next = m.next := by
          rw [insert_ref, Function.update_self]
        have undefined (j : Nat) : Within (m.insert (m.ref cur) entries part) j m.next := by
          apply within_of_not_map
          rw [insert_content, Function.update_of_ne (Nat.ne_of_gt (closed.refs below)),
            Function.update_self]
          rfl
        have grown : Lowered m (m.insert (m.ref cur) entries part) := by
          refine ⟨Nat.le_succ _, ?_⟩
          intro j cell bound inside
          rw [insert_ref, Function.update_of_ne (Nat.ne_of_lt bound)]
          exact within_insert closed at_ref (closed.refs bound) inside
        have entered : Entered (m.insert (m.ref cur) entries part) cur k
            ((m.insert (m.ref cur) entries part).redirect cur m.next) m.next := by
          have redirected := redirect_entered (n := k) inserted (Nat.lt_succ_self m.next)
            (Nat.ne_of_gt below)
          rw [child] at redirected
          exact redirected (fun j _ => undefined j) (undefined k)
        exact ⟨k, rfl, { entered with lowered := grown.trans entered.lowered }⟩
  | _ =>
    rw [at_cur] at map
    cases map

theorem traverse_lowers {m : Memory} (closed : Closed m) {cur n : Nat} (below : cur < m.next)
    (within : Within m n (m.ref cur)) (path : List String) (spelled : ∀ part ∈ path, DotFree part) :
    Closed (traverse m cur path).1 ∧ Lowered m (traverse m cur path).1 := by
  induction path generalizing m cur n with
  | nil => exact ⟨closed, .refl m⟩
  | cons part rest ih =>
    have first := spelled part (by simp)
    have others : ∀ key ∈ rest, DotFree key := fun key member => spelled key (by simp [member])
    cases map : (m.contentOf cur).isMap with
    | true =>
      obtain ⟨k, -, entered⟩ := enter_lowers closed below within map first
      obtain ⟨kept, lowered⟩ := ih entered.closed entered.below entered.handle others
      rw [traverse_cons_map map]
      exact ⟨kept, entered.lowered.trans lowered⟩
    | false =>
      rw [traverse_cons_not_map map]
      exact ⟨closed, .refl m⟩

/-- From a map, the cell it starts at ends up strictly deeper. -/
theorem traverse_root {m : Memory} (closed : Closed m) {cur n : Nat} (below : cur < m.next)
    (within : Within m n (m.ref cur)) (map : (m.contentOf cur).isMap = true) (path : List String)
    (spelled : ∀ part ∈ path, DotFree part) (some_part : path ≠ []) :
    ∃ k, n = k + 1 ∧ Within (traverse m cur path).1 k ((traverse m cur path).1.ref cur) := by
  cases path with
  | nil => exact absurd rfl some_part
  | cons part rest =>
    obtain ⟨k, rfl, entered⟩ := enter_lowers closed below within map (spelled part (by simp))
    have others : ∀ key ∈ rest, DotFree key := fun key member => spelled key (by simp [member])
    obtain ⟨-, lowered⟩ := traverse_lowers entered.closed entered.below entered.handle rest others
    rw [traverse_cons_map map]
    exact ⟨k, rfl, lowered.within (Nat.lt_of_lt_of_le below entered.lowered.next) entered.cell⟩

/-- A path longer than the nesting ends in `YAML::Node()`. -/
theorem traverse_too_long {m : Memory} (closed : Closed m) {cur n : Nat} (below : cur < m.next)
    (within : Within m n (m.ref cur)) (path : List String) (spelled : ∀ part ∈ path, DotFree part)
    (long : n < path.length) : (traverse m cur path).2 = none := by
  induction path generalizing m cur n with
  | nil => exact absurd long (Nat.not_lt_zero n)
  | cons part rest ih =>
    have others : ∀ key ∈ rest, DotFree key := fun key member => spelled key (by simp [member])
    cases map : (m.contentOf cur).isMap with
    | true =>
      obtain ⟨k, rfl, entered⟩ := enter_lowers closed below within map (spelled part (by simp))
      rw [traverse_cons_map map]
      apply ih entered.closed entered.below entered.handle others
      simpa using long
    | false => rw [traverse_cons_not_map map]

theorem exists_longer {β : Type} (entries : List (String × β)) :
    ∃ length, ∀ entry ∈ entries, entry.1.length < length := by
  induction entries with
  | nil => exact ⟨0, by simp⟩
  | cons entry rest ih =>
    obtain ⟨length, longer⟩ := ih
    refine ⟨max (entry.1.length + 1) length, ?_⟩
    intro other member
    rcases List.mem_cons.mp member with rfl | member
    · omega
    · have := longer other member
      omega

/-- No map has all the keys. -/
theorem exists_missing {β : Type} (entries : List (String × β)) :
    ∃ key, DotFree key ∧ entries.lookup key = none := by
  obtain ⟨length, longer⟩ := exists_longer entries
  refine ⟨String.ofList (List.replicate length 'x'), by simp [DotFree], ?_⟩
  rw [List.lookup_eq_none_iff]
  intro entry member
  have other : String.ofList (List.replicate length 'x') ≠ entry.1 := by
    intro same
    have lengths := congrArg String.length same
    rw [String.length_ofList, List.length_replicate] at lengths
    exact Nat.ne_of_gt (longer entry member) lengths
  simpa using other

/-- A fresh reader gets as far as the maps nest, and misses the key there. -/
theorem exists_deep_path {m : Memory} {n c : Nat} (deep : ¬ Within m n c) :
    ∃ path : List String, path.length = n + 1 ∧ (∀ part ∈ path, DotFree part) ∧
      peek m c path = .undefined := by
  induction n generalizing c with
  | zero =>
    cases at_c : m.content c with
    | map entries =>
      obtain ⟨key, spelled, missing⟩ := exists_missing entries
      exact ⟨[key], rfl, by simpa using spelled, by simp [peek, at_c, missing]⟩
    | _ => simp [Within, at_c, Content.isMap] at deep
  | succ n ih =>
    simp only [Within, not_forall] at deep
    obtain ⟨entries, key, cell, at_c, spelled, found, deeper⟩ := deep
    obtain ⟨path, length, all, missed⟩ := ih deeper
    refine ⟨key :: path, by simp [length], ?_, by simp [peek, at_c, found, missed]⟩
    intro part member
    rcases List.mem_cons.mp member with rfl | member
    · exact spelled
    · exact all part member

/-! Dotted paths and their keys. -/

theorem splitOn_dot_free {chars : List Char} {part : List Char}
    (member : part ∈ chars.splitOn '.') : '.' ∉ part := by
  induction chars generalizing part with
  | nil =>
    simp only [List.splitOn_nil, List.mem_singleton] at member
    simp [member]
  | cons c chars ih =>
    rw [List.splitOn_cons_eq_if_modifyHead] at member
    by_cases dot : c = '.'
    · simp only [dot, beq_self_eq_true, if_true, List.mem_cons] at member
      rcases member with rfl | member
      · simp
      · exact ih member
    · simp only [beq_eq_false_iff_ne.mpr dot, Bool.false_eq_true, if_false] at member
      cases split : chars.splitOn '.' with
      | nil => exact absurd split (List.splitOn_ne_nil '.' chars)
      | cons first others =>
        rw [split, List.modifyHead_cons, List.mem_cons] at member
        rcases member with rfl | member
        · have tail : '.' ∉ first := ih (by simp [split])
          simp [tail, Ne.symm dot]
        · exact ih (by simp [split, member])

theorem parts_dotFree {dotted part : String} (member : part ∈ parts dotted) : DotFree part := by
  obtain ⟨chars, inside, rfl⟩ := List.mem_map.mp member
  simpa [DotFree] using splitOn_dot_free inside

theorem exists_dotted {path : List String} (some_part : path ≠ [])
    (spelled : ∀ part ∈ path, DotFree part) : ∃ dotted, parts dotted = path := by
  refine ⟨String.ofList (['.'].intercalate (path.map String.toList)), ?_⟩
  rw [parts, String.toList_ofList, List.splitOn_intercalate]
  · simp [Function.comp_def]
  · intro chars member
    obtain ⟨part, inside, rfl⟩ := List.mem_map.mp member
    exact spelled part inside
  · simpa using some_part

end Lexaire
