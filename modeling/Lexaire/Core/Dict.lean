import Mathlib.Data.List.DropRight
import Mathlib.Data.List.Nodup

/-! Dictionaries that keep the order of insertion. A key stands in one entry only; an
assignment to a key that is there keeps its place. -/

structure Dict (K V : Type) where
  entries : List (K × V) := []
  nodup : (entries.map Prod.fst).Nodup := by simp

namespace Dict
variable {K V : Type}

def keys (d : Dict K V) : List K := d.entries.map Prod.fst

theorem keys_nodup (d : Dict K V) : d.keys.Nodup := d.nodup

theorem exists_entry {d : Dict K V} {k : K} (held : k ∈ d.keys) : ∃ v, (k, v) ∈ d.entries := by
  obtain ⟨⟨k', v⟩, member, rfl⟩ := List.mem_map.mp held
  exact ⟨v, member⟩

/-- `while len(d) > size: d.pop(next(iter(d)))`. -/
def dropOldest {α : Type} (size : Nat) : List α → List α
  | [] => []
  | e :: rest => if size < rest.length + 1 then dropOldest size rest else e :: rest

theorem dropOldest_eq {α : Type} (size : Nat) (l : List α) : dropOldest size l = l.rtake size := by
  induction l with
  | nil => simp [dropOldest]
  | cons e rest ih =>
    rw [dropOldest]
    split
    · next long =>
      have more : (e :: rest).length - size = (rest.length - size) + 1 := by
        simp only [List.length_cons]
        omega
      rw [ih, List.rtake, List.rtake, more, List.drop_succ_cons]
    · next short =>
      have all : (e :: rest).length - size = 0 := by
        simp only [List.length_cons]
        omega
      rw [List.rtake, all, List.drop_zero]

def trim (size : Nat) (d : Dict K V) : Dict K V where
  entries := dropOldest size d.entries
  nodup := by
    rw [dropOldest_eq, List.rtake, List.map_drop]
    exact (List.drop_sublist _ _).nodup d.nodup

theorem keys_trim (size : Nat) (d : Dict K V) : (d.trim size).keys = d.keys.rtake size := by
  simp only [keys, trim, dropOldest_eq, List.rtake, List.map_drop, List.length_map]

theorem mem_of_mem_trim {size : Nat} {d : Dict K V} {e : K × V} (held : e ∈ (d.trim size).entries) :
    e ∈ d.entries := by
  simp only [trim, dropOldest_eq] at held
  exact List.mem_of_mem_drop held

variable [DecidableEq K]

def find? (k : K) (d : Dict K V) : Option V := d.entries.lookup k

theorem mem_of_find? {d : Dict K V} {k : K} {v : V} (found : d.find? k = some v) :
    (k, v) ∈ d.entries := by
  obtain ⟨before, after, same, -⟩ := List.lookup_eq_some_iff.mp found
  rw [same]
  simp

theorem find?_of_mem_keys {d : Dict K V} {k : K} (held : k ∈ d.keys) : ∃ v, d.find? k = some v := by
  apply Option.isSome_iff_exists.mp
  rw [find?, List.lookup_isSome_iff]
  obtain ⟨v, member⟩ := exists_entry held
  exact ⟨(k, v), member, by simp⟩

/-- A key that is there keeps its place, another comes last. -/
def assign (k : K) (v : V) (entries : List (K × V)) : List (K × V) :=
  if k ∈ entries.map Prod.fst then entries.map fun e => if e.1 = k then (k, v) else e
  else entries ++ [(k, v)]

theorem keys_assign (k : K) (v : V) (entries : List (K × V)) :
    (assign k v entries).map Prod.fst =
      if k ∈ entries.map Prod.fst then entries.map Prod.fst else entries.map Prod.fst ++ [k] := by
  rw [assign]
  split
  · rw [List.map_map]
    apply List.map_congr_left
    intro e _
    by_cases here : e.1 = k <;> simp [here]
  · simp

/-- `d[k] = v`. -/
def insert (k : K) (v : V) (d : Dict K V) : Dict K V where
  entries := assign k v d.entries
  nodup := by
    rw [keys_assign]
    split
    · exact d.nodup
    · next absent =>
      rw [List.nodup_append]
      refine ⟨d.nodup, by simp, ?_⟩
      intro j held i last
      obtain rfl : i = k := by simpa using last
      rintro rfl
      exact absent held

theorem keys_insert (k : K) (v : V) (d : Dict K V) :
    (d.insert k v).keys = if k ∈ d.keys then d.keys else d.keys ++ [k] :=
  keys_assign k v d.entries

theorem mem_insert {d : Dict K V} {k : K} {v : V} {e : K × V} (held : e ∈ (d.insert k v).entries) :
    e ∈ d.entries ∨ e = (k, v) := by
  simp only [insert, assign] at held
  split at held
  · obtain ⟨e', member, rfl⟩ := List.mem_map.mp held
    split
    · exact .inr rfl
    · exact .inl member
  · rcases List.mem_append.mp held with before | last
    · exact .inl before
    · exact .inr (List.mem_singleton.mp last)

/-- `d.pop(k)`, without its result. -/
def erase (k : K) (d : Dict K V) : Dict K V where
  entries := d.entries.filter (·.1 ≠ k)
  nodup := (List.filter_sublist.map Prod.fst).nodup d.nodup

theorem keys_erase (k : K) (d : Dict K V) : (d.erase k).keys = d.keys.filter (· ≠ k) := by
  simp only [keys, erase, List.filter_map]
  rfl

theorem mem_of_mem_erase {d : Dict K V} {k : K} {e : K × V} (held : e ∈ (d.erase k).entries) :
    e ∈ d.entries :=
  List.mem_of_mem_filter held

end Dict
