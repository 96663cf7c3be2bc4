import Mathlib.Logic.Function.Basic

/-! The part of yaml-cpp that the configuration rests on, for documents of nested
maps and scalars. A node handle holds a cell, and a cell refers to content. Copies
of a handle share the cell; assigning to a handle makes its cell refer to the
content of the other one, so everything that holds the cell sees the change. -/
namespace Lexaire.Yaml

inductive Document where
  | null
  | scalar (text : String)
  | map (entries : List (String × Document))

def Document.isMap : Document → Bool
  | .map _ => true
  | _ => false

/-- The entries of a map lead to cells. -/
inductive Content where
  | undefined
  | null
  | scalar (text : String)
  | map (entries : List (String × Nat))

def Content.isMap : Content → Bool
  | .map _ => true
  | _ => false

/-- Cells and contents are numbered; a new cell gets the content of its number. -/
structure Memory where
  ref : Nat → Nat := id
  content : Nat → Content := fun _ => .undefined
  next : Nat := 0

namespace Memory

def contentOf (m : Memory) (cell : Nat) : Content := m.content (m.ref cell)

def create (m : Memory) (c : Content) : Memory × Nat :=
  ({ ref := Function.update m.ref m.next m.next
     content := Function.update m.content m.next c
     next := m.next + 1 }, m.next)

/-- A new undefined child under `key`, at the end of a map. -/
def insert (m : Memory) (c : Nat) (entries : List (String × Nat)) (key : String) : Memory :=
  let (m', child) := m.create .undefined
  { m' with content := Function.update m'.content c (.map (entries ++ [(key, child)])) }

/-- `cur[key]` on a map that is not const: a missing key is inserted. Other nodes
do not get here. -/
def subscript (m : Memory) (cell : Nat) (key : String) : Memory × Nat :=
  match m.contentOf cell with
  | .map entries =>
    match entries.lookup key with
    | some child => (m, child)
    | none => (m.insert (m.ref cell) entries key, m.next)
  | _ => (m, cell)

/-- `node::set_ref`. -/
def redirect (m : Memory) (cell target : Nat) : Memory :=
  { m with ref := Function.update m.ref cell target }

/-- `cur = child`: nothing for two handles of one content; otherwise the cell
that `cur` holds is redirected, and `cur` then holds the other cell. -/
def assign (m : Memory) (cell child : Nat) : Memory × Nat :=
  if m.ref cell = m.ref child then (m, cell) else (m.redirect cell (m.ref child), child)

/-- `cur = cur[key]`. -/
def enter (m : Memory) (cell : Nat) (key : String) : Memory × Nat :=
  let sub := m.subscript cell key
  sub.1.assign cell sub.2

theorem enter_found {m : Memory} {cell child : Nat} {key : String} {entries : List (String × Nat)}
    (at_cell : m.contentOf cell = .map entries) (found : entries.lookup key = some child)
    (other : m.ref child ≠ m.ref cell) :
    m.enter cell key = (m.redirect cell (m.ref child), child) := by
  simp [enter, subscript, at_cell, found, assign, Ne.symm other]

theorem enter_missing {m : Memory} {cell : Nat} {key : String} {entries : List (String × Nat)}
    (at_cell : m.contentOf cell = .map entries) (missing : entries.lookup key = none)
    (below : cell < m.next) (old : m.ref cell < m.next) :
    m.enter cell key = ((m.insert (m.ref cell) entries key).redirect cell m.next, m.next) := by
  have other : (m.insert (m.ref cell) entries key).ref cell ≠ m.next := by
    simp only [insert, create, Function.update_of_ne (Nat.ne_of_lt below)]
    omega
  have child : (m.insert (m.ref cell) entries key).ref m.next = m.next := by
    simp only [insert, create, Function.update_self]
  simp [enter, subscript, at_cell, missing, assign, child, other]

end Memory

mutual
/-- What the parser builds: children before their map, each in a cell of its own. -/
def load : Document → Memory → Memory × Nat
  | .null, m => m.create .null
  | .scalar text, m => m.create (.scalar text)
  | .map entries, m =>
    let loaded := loadEntries entries m
    loaded.1.create (.map loaded.2)

def loadEntries : List (String × Document) → Memory → Memory × List (String × Nat)
  | [], m => (m, [])
  | (key, v) :: rest, m =>
    let first := load v m
    let others := loadEntries rest first.1
    (others.1, (key, first.2) :: others.2)
end

/-- Nothing beyond `next` is in use. -/
structure Closed (m : Memory) : Prop where
  bounded : ∀ {c entries key cell}, m.content c = .map entries → (key, cell) ∈ entries →
    cell < m.next
  refs : ∀ {cell}, cell < m.next → m.ref cell < m.next
  blank : ∀ {c}, m.next ≤ c → m.content c = .undefined

/-- A freshly parsed memory: content refers to older content only. -/
structure Fresh (m : Memory) : Prop extends Closed m where
  ordered : ∀ {c entries key cell}, m.content c = .map entries → (key, cell) ∈ entries →
    m.ref cell < c

/-- `m'` has grown out of `m`. -/
structure Grown (m m' : Memory) : Prop where
  next : m.next ≤ m'.next
  ref : ∀ {cell}, cell < m.next → m'.ref cell = m.ref cell
  content : ∀ {c}, c < m.next → m'.content c = m.content c

theorem Grown.refl (m : Memory) : Grown m m := ⟨Nat.le_refl _, fun _ => rfl, fun _ => rfl⟩

theorem Grown.trans {m m' m'' : Memory} (first : Grown m m') (second : Grown m' m'') :
    Grown m m'' where
  next := Nat.le_trans first.next second.next
  ref below := (second.ref (Nat.lt_of_lt_of_le below first.next)).trans (first.ref below)
  content below := (second.content (Nat.lt_of_lt_of_le below first.next)).trans (first.content below)

theorem grown_create (m : Memory) (c : Content) : Grown m (m.create c).1 where
  next := Nat.le_succ _
  ref below := Function.update_of_ne (Nat.ne_of_lt below) _ _
  content below := Function.update_of_ne (Nat.ne_of_lt below) _ _

theorem contentOf_create (m : Memory) (c : Content) :
    (m.create c).1.contentOf (m.create c).2 = c := by
  simp [Memory.contentOf, Memory.create]

theorem Closed.create {m : Memory} (closed : Closed m) {c : Content}
    (cells : ∀ {entries key cell}, c = .map entries → (key, cell) ∈ entries → cell < m.next) :
    Closed (m.create c).1 := by
  refine ⟨?_, ?_, ?_⟩
  · intro d entries key cell at_d member
    by_cases new : d = m.next
    · subst new
      have same : c = .map entries := by simpa [Memory.create] using at_d
      exact Nat.lt_succ_of_lt (cells same member)
    · have old : m.content d = .map entries := by simpa [Memory.create, new] using at_d
      exact Nat.lt_succ_of_lt (closed.bounded old member)
  · intro cell below
    by_cases new : cell = m.next
    · subst new
      simp [Memory.create]
    · have old : cell < m.next := Nat.lt_of_le_of_ne (Nat.lt_succ_iff.mp below) new
      rw [(grown_create m c).ref old]
      exact Nat.lt_succ_of_lt (closed.refs old)
  · intro d beyond
    have other : d ≠ m.next := by
      rintro rfl
      exact Nat.not_succ_le_self _ beyond
    simpa [Memory.create, other] using closed.blank (Nat.le_of_succ_le beyond)

theorem Fresh.create {m : Memory} (fresh : Fresh m) {c : Content}
    (cells : ∀ {entries key cell}, c = .map entries → (key, cell) ∈ entries → cell < m.next) :
    Fresh (m.create c).1 := by
  refine { toClosed := fresh.toClosed.create cells, ordered := ?_ }
  intro d entries key cell at_d member
  by_cases new : d = m.next
  · subst new
    have same : c = .map entries := by simpa [Memory.create] using at_d
    have below := cells same member
    rw [(grown_create m c).ref below]
    exact fresh.refs below
  · have old : m.content d = .map entries := by simpa [Memory.create, new] using at_d
    rw [(grown_create m c).ref (fresh.bounded old member)]
    exact fresh.ordered old member

mutual
theorem load_fresh (v : Document) {m : Memory} (fresh : Fresh m) :
    Fresh (load v m).1 ∧ Grown m (load v m).1 ∧ (load v m).2 < (load v m).1.next := by
  cases v with
  | null => exact ⟨fresh.create (by simp), grown_create m _, Nat.lt_succ_self _⟩
  | scalar text => exact ⟨fresh.create (by simp), grown_create m _, Nat.lt_succ_self _⟩
  | map entries =>
    obtain ⟨loaded, grown, below⟩ := loadEntries_fresh entries fresh
    refine ⟨loaded.create ?_, grown.trans (grown_create _ _), Nat.lt_succ_self _⟩
    rintro entries' key cell ⟨⟩ member
    exact below member

theorem loadEntries_fresh (entries : List (String × Document)) {m : Memory} (fresh : Fresh m) :
    Fresh (loadEntries entries m).1 ∧ Grown m (loadEntries entries m).1 ∧
      ∀ {key cell}, (key, cell) ∈ (loadEntries entries m).2 →
        cell < (loadEntries entries m).1.next := by
  cases entries with
  | nil => exact ⟨fresh, .refl m, by simp [loadEntries]⟩
  | cons entry rest =>
    obtain ⟨key, v⟩ := entry
    obtain ⟨loaded, grown, below⟩ := load_fresh v fresh
    obtain ⟨others, later, belows⟩ := loadEntries_fresh rest loaded
    refine ⟨others, grown.trans later, ?_⟩
    intro key' cell member
    rcases List.mem_cons.mp member with same | member
    · obtain ⟨rfl, rfl⟩ := Prod.mk.inj same
      exact Nat.lt_of_lt_of_le below later.next
    · exact belows member
end

theorem fresh_empty : Fresh {} :=
  { bounded := by simp, refs := by simp, blank := by simp, ordered := by simp }

theorem Closed.redirect {m : Memory} (closed : Closed m) {cell target : Nat}
    (below : target < m.next) : Closed (m.redirect cell target) where
  bounded := closed.bounded
  blank := closed.blank
  refs {other} bound := by
    by_cases same : other = cell
    · subst same
      simpa only [Memory.redirect, Function.update_self] using below
    · simpa [Memory.redirect, Function.update_of_ne same] using closed.refs bound

theorem Fresh.redirect {m : Memory} (fresh : Fresh m) {cell target : Nat} (below : cell < m.next)
    (lower : target < m.ref cell) : Fresh (m.redirect cell target) where
  toClosed := fresh.toClosed.redirect (Nat.lt_trans lower (fresh.refs below))
  ordered {c entries key other} at_c member := by
    have older := fresh.ordered at_c member
    by_cases same : other = cell
    · subst same
      simp only [Memory.redirect, Function.update_self]
      omega
    · simpa [Memory.redirect, Function.update_of_ne same] using older

/-- Inserting a child changes the content it goes to and the two numbers it takes. -/
theorem insert_ref {m : Memory} (c : Nat) (entries : List (String × Nat)) (key : String) :
    (m.insert c entries key).ref = Function.update m.ref m.next m.next := rfl

theorem insert_content {m : Memory} (c : Nat) (entries : List (String × Nat)) (key : String) :
    (m.insert c entries key).content = Function.update
      (Function.update m.content m.next .undefined) c (.map (entries ++ [(key, m.next)])) := rfl

theorem Closed.insert {m : Memory} (closed : Closed m) {c : Nat} {entries : List (String × Nat)}
    (at_c : m.content c = .map entries) (below : c < m.next) (key : String) :
    Closed (m.insert c entries key) := by
  have created : Closed (m.create .undefined).1 := closed.create (by simp)
  refine ⟨?_, created.refs, ?_⟩
  · intro d entries' key' cell at_d member
    by_cases same : d = c
    · subst same
      rw [insert_content, Function.update_self] at at_d
      obtain rfl := Content.map.inj at_d
      rcases List.mem_append.mp member with old | new
      · exact Nat.lt_succ_of_lt (closed.bounded at_c old)
      · obtain ⟨-, rfl⟩ := Prod.mk.inj (List.mem_singleton.mp new)
        exact Nat.lt_succ_self _
    · rw [insert_content, Function.update_of_ne same] at at_d
      exact created.bounded at_d member
  · intro d beyond
    have other : d ≠ c := by
      rintro rfl
      exact Nat.lt_irrefl _ (Nat.lt_of_lt_of_le below (Nat.le_of_succ_le beyond))
    rw [insert_content, Function.update_of_ne other]
    exact created.blank beyond

theorem contentOf_load_isMap (v : Document) (m : Memory) :
    ((load v m).1.contentOf (load v m).2).isMap = v.isMap := by
  cases v <;> simp only [load, contentOf_create] <;> rfl

end Lexaire.Yaml
