import Lexaire.Config.Depth

/-! The first lookup on a loaded object is the plain walk from the file's root, where the
sections of its path are there. On a map it is the only one: some lookup after it differs
from its own first run. -/
namespace Lexaire
open Yaml

def Yaml.Document.found : Document → Found
  | .null => .null
  | .scalar text => .scalar text
  | .map _ => .map

/-- The plain walk of a path; one that leaves the document is missing. -/
def Yaml.Document.find : Document → List String → Found
  | v, [] => v.found
  | .map entries, part :: rest =>
    match entries.lookup part with
    | some v => v.find rest
    | none => .undefined
  | _, _ :: _ => .undefined

/-- Every key but the last leads to a map, and so does the root. -/
def Yaml.Document.sections : Document → List String → Bool
  | _, [] => true
  | .map entries, part :: rest =>
    match entries.lookup part with
    | some v => v.sections rest
    | none => rest.isEmpty
  | _, _ :: _ => false

/-- What a first `traverse` sees: where a section is missing, it gives `YAML::Node()`. -/
def Yaml.Document.seen (v : Document) (path : List String) : Found :=
  if v.sections path then v.find path else .null

theorem seen_some {entries : List (String × Document)} {part : String} {v : Document}
    (found : entries.lookup part = some v) (rest : List String) :
    (Document.map entries).seen (part :: rest) = v.seen rest := by
  simp only [Document.seen, Document.sections, Document.find, found]

theorem seen_none {entries : List (String × Document)} {part : String}
    (missing : entries.lookup part = none) (rest : List String) :
    (Document.map entries).seen (part :: rest) = if rest = [] then .undefined else .null := by
  simp only [Document.seen, Document.sections, Document.find, missing, List.isEmpty_iff]

/-- Without its sections a path is missing. -/
theorem find_of_sections {v : Document} {path : List String} (without : v.sections path = false) :
    v.find path = .undefined := by
  induction path generalizing v with
  | nil => cases without
  | cons part rest ih =>
    cases v with
    | map entries =>
      simp only [Document.sections, Document.find] at without ⊢
      cases found : entries.lookup part with
      | none => rfl
      | some v => exact ih (by simpa only [found] using without)
    | _ => rfl

theorem isMap_of_sections {v : Document} {path : List String} (within : v.sections path = true)
    (some_part : path ≠ []) : v.isMap = true := by
  cases path with
  | nil => exact absurd rfl some_part
  | cons part rest =>
    cases v with
    | map entries => rfl
    | _ => cases within

theorem peek_grown {m m' : Memory} (fresh : Fresh m) (grown : Grown m m') {c : Nat}
    (below : c < m.next) (path : List String) : peek m' c path = peek m c path := by
  induction path generalizing c with
  | nil => simp only [peek, grown.content below]
  | cons part rest ih =>
    have same := grown.content below
    cases at_c : m.content c with
    | map entries =>
      cases found : entries.lookup part with
      | some cell =>
        have bound := fresh.bounded at_c (mem_of_lookup found)
        rw [peek_some (same.trans at_c) found, peek_some at_c found, grown.ref bound]
        exact ih (fresh.refs bound)
      | none => rw [peek_none (same.trans at_c) found, peek_none at_c found]
    | _ => rw [peek_not_map (by rw [same, at_c]; rfl), peek_not_map (by rw [at_c]; rfl)]

mutual
theorem peek_load (v : Document) {m : Memory} (fresh : Fresh m) (path : List String) :
    peek (load v m).1 ((load v m).1.ref (load v m).2) path = v.seen path := by
  cases v with
  | null =>
    have at_root := contentOf_create m .null
    cases path with
    | nil => exact congrArg Content.found at_root
    | cons part rest => exact peek_not_map (congrArg Content.isMap at_root) part rest
  | scalar text =>
    have at_root := contentOf_create m (.scalar text)
    cases path with
    | nil => exact congrArg Content.found at_root
    | cons part rest => exact peek_not_map (congrArg Content.isMap at_root) part rest
  | map entries =>
    obtain ⟨loaded, -, below⟩ := loadEntries_fresh entries fresh
    have at_root := contentOf_create (loadEntries entries m).1 (.map (loadEntries entries m).2)
    cases path with
    | nil => exact congrArg Content.found at_root
    | cons part rest =>
      have same := lookup_loadEntries entries fresh part
      cases found : (loadEntries entries m).2.lookup part with
      | none =>
        cases found' : entries.lookup part with
        | none =>
          rw [seen_none found']
          exact peek_none at_root found rest
        | some v => simp [found, found'] at same
      | some cell =>
        cases found' : entries.lookup part with
        | none => simp [found, found'] at same
        | some v =>
          rw [found, found', Option.rel_some_some] at same
          have bound := below (mem_of_lookup found)
          have later := grown_create (loadEntries entries m).1 (.map (loadEntries entries m).2)
          rw [seen_some found', load, peek_some at_root found, later.ref bound,
            peek_grown loaded later (loaded.refs bound)]
          exact same rest

theorem lookup_loadEntries (entries : List (String × Document)) {m : Memory} (fresh : Fresh m)
    (key : String) :
    Option.Rel (fun v cell => ∀ path,
        peek (loadEntries entries m).1 ((loadEntries entries m).1.ref cell) path = v.seen path)
      (entries.lookup key) ((loadEntries entries m).2.lookup key) := by
  cases entries with
  | nil => exact .none
  | cons entry rest =>
    obtain ⟨key', v⟩ := entry
    obtain ⟨loaded, grown, below⟩ := load_fresh v fresh
    obtain ⟨-, later, -⟩ := loadEntries_fresh rest loaded
    simp only [loadEntries, List.lookup_cons]
    cases key == key' with
    | true =>
      refine .some ?_
      intro path
      rw [later.ref below, peek_grown loaded later (loaded.refs below)]
      exact peek_load v fresh path
    | false => exact lookup_loadEntries rest loaded key
end

variable {α : Type}

theorem walk_load (doc : Document) (path dotted : String) :
    ((Config.load doc path).walk dotted).1 = doc.seen (parts dotted) := by
  obtain ⟨loaded, -, below⟩ := load_fresh doc fresh_empty
  exact (traverse_found loaded below (parts dotted)).trans (peek_load doc fresh_empty _)

theorem missing_ne_type_error (dotted path what : String) :
    "config missing: " ++ dotted ++ " (from " ++ path ++ ")" ≠
      "config type error at " ++ dotted ++ ": " ++ what := by
  intro same
  have chars := congrArg String.toList same
  simp [String.toList_append] at chars

/-- The first call on a loaded object, whatever it converts to. -/
theorem run_load_iff (doc : Document) (path dotted : String) :
    (∀ next : Lookup α, next.dotted = dotted →
      (next.run (Config.load doc path)).1 = next.outcome path (doc.find (parts dotted))) ↔
      doc.sections (parts dotted) = true := by
  constructor
  · intro plain
    by_contra without
    have without := Bool.eq_false_iff.mpr without
    have asked := plain (.require (fun _ => .error "") dotted) rfl
    rw [Lookup.run_fst, walk_load] at asked
    simp only [Lookup.dotted, Document.seen, without, find_of_sections without, Lookup.outcome,
      Bool.false_eq_true, reduceCtorEq, if_false, if_true, Except.mapError] at asked
    exact missing_ne_type_error _ _ _ (Except.error.inj asked).symm
  · rintro within next rfl
    rw [next.run_fst, walk_load, Document.seen, if_pos within]
    rfl

/-- A root below which at most `n` maps nest. -/
structure Shallow (cfg : Config) (n : Nat) : Prop where
  closed : Closed cfg.memory
  below : cfg.root < cfg.memory.next
  within : Within cfg.memory n (cfg.memory.ref cfg.root)

theorem Shallow.walk {cfg : Config} {n : Nat} (shallow : Shallow cfg n) (dotted : String) :
    Shallow (cfg.walk dotted).2 n := by
  obtain ⟨closed, lowered⟩ := traverse_lowers shallow.closed shallow.below shallow.within
    (parts dotted) (fun _ => parts_dotFree)
  exact ⟨closed, Nat.lt_of_lt_of_le shallow.below lowered.next,
    lowered.within shallow.below shallow.within⟩

theorem Shallow.after {cfg : Config} {n : Nat} (shallow : Shallow cfg n)
    (made : List (Lookup α)) : Shallow (cfg.after made) n := by
  induction made generalizing cfg with
  | nil => exact shallow
  | cons lookup rest ih =>
    have moved := shallow.walk lookup.dotted
    rw [← lookup.run_snd] at moved
    exact ih moved

/-- A lookup on a map moves the root one level down. -/
theorem Shallow.walk_map {cfg : Config} {n : Nat} (shallow : Shallow cfg (n + 1))
    (map : (cfg.memory.contentOf cfg.root).isMap = true) (dotted : String) :
    Shallow (cfg.walk dotted).2 n := by
  have kept := shallow.walk dotted
  obtain ⟨k, same, within⟩ := traverse_root shallow.closed shallow.below shallow.within map
    (parts dotted) (fun _ => parts_dotFree) (parts_ne_nil dotted)
  obtain rfl : n = k := Nat.succ.inj same
  exact { kept with within := within }

theorem shallow_zero {cfg : Config} (shallow : Shallow cfg 0) (dotted : String) :
    cfg.walk dotted = (.null, cfg) := walk_not_map shallow.within dotted

theorem Shallow.sink {cfg : Config} {n : Nat} (shallow : Shallow cfg n) (dotted : String) :
    Shallow (cfg.walk dotted).2 (n - 1) := by
  cases n with
  | zero =>
    rw [shallow_zero shallow]
    exact shallow
  | succ n =>
    cases map : (cfg.memory.contentOf cfg.root).isMap with
    | true => exact shallow.walk_map map dotted
    | false =>
      rw [walk_not_map map]
      exact { shallow with within := within_of_not_map map n }

theorem Shallow.too_long {cfg : Config} {n : Nat} (shallow : Shallow cfg n) {dotted : String}
    (long : n < (parts dotted).length) : (cfg.walk dotted).1 = .null := by
  have nothing := traverse_too_long shallow.closed shallow.below shallow.within
    (parts dotted) (fun _ => parts_dotFree) long
  simp only [Config.walk, nothing, Memory.found]

/-- How deep the maps of a file nest, exactly. -/
theorem exists_depth {m : Memory} {n c : Nat} (within : Within m n c)
    (map : (m.content c).isMap = true) : ∃ k, Within m (k + 1) c ∧ ¬ Within m k c := by
  induction n with
  | zero =>
    rw [Within, map] at within
    cases within
  | succ n ih =>
    by_cases smaller : Within m n c
    · exact ih smaller
    · exact ⟨n, within, smaller⟩

/-- After a lookup on a map, some lookup does not give what the file has: the
longest path is missing a key there, and a type error here. -/
theorem exists_changed {doc : Document} (map : doc.isMap = true) (path : String)
    (first : Lookup α) (rest : List (Lookup α)) :
    ∃ next : Lookup α, (next.run ((Config.load doc path).after (first :: rest))).1 ≠
      (next.run (Config.load doc path)).1 := by
  obtain ⟨loaded, -, below⟩ := load_fresh doc fresh_empty
  have root_map : ((Config.load doc path).memory.contentOf (Config.load doc path).root).isMap =
      true := (contentOf_load_isMap doc {}).trans map
  obtain ⟨n, within, deep⟩ := exists_depth (within_fresh loaded (Nat.lt_succ_self _)) root_map
  have lowered : Shallow ((Config.load doc path).after (first :: rest)) n := by
    have fresh : Shallow (Config.load doc path) (n + 1) := ⟨loaded.toClosed, below, within⟩
    have moved := fresh.walk_map root_map first.dotted
    rw [← first.run_snd] at moved
    exact moved.after rest
  obtain ⟨keys, length, spelled, missed⟩ := exists_deep_path deep
  obtain ⟨dotted, rfl⟩ := exists_dotted (by rintro rfl; cases length) spelled
  have fresh_walk : ((Config.load doc path).walk dotted).1 = .undefined :=
    (traverse_found loaded below (parts dotted)).trans missed
  have later_walk : (((Config.load doc path).after (first :: rest)).walk dotted).1 = .null :=
    lowered.too_long (by omega)
  refine ⟨.require (fun _ => .error "") dotted, ?_⟩
  rw [Lookup.run_fst, Lookup.run_fst]
  simp only [Lookup.dotted, Lookup.outcome, fresh_walk, later_walk, if_true, Except.mapError]
  intro same
  exact missing_ne_type_error _ _ _ (Except.error.inj same).symm

theorem after_load_iff (doc : Document) (path : String) (made : List (Lookup α)) :
    (∀ next : Lookup α, (next.run ((Config.load doc path).after made)).1 =
      (next.run (Config.load doc path)).1) ↔ made = [] ∨ doc.isMap = false := by
  constructor
  · intro pure
    cases made with
    | nil => exact .inl rfl
    | cons first rest =>
      cases map : doc.isMap with
      | false => exact .inr rfl
      | true =>
        obtain ⟨next, changed⟩ := exists_changed map path first rest
        exact absurd (pure next) changed
  · rintro (rfl | scalar) next
    · rfl
    · rw [after_not_map ((contentOf_load_isMap doc {}).trans scalar)]

/-- The object gives what a fresh copy gives, and that is the plain walk, exactly when no
call has been made on it and the sections of the path are there. -/
theorem lookups_pure_iff (doc : Document) (path : String) (made : List (Lookup α)) (dotted : String) :
    ((∀ next : Lookup α, (next.run ((Config.load doc path).after made)).1 =
        (next.run (Config.load doc path)).1) ∧
      ∀ next : Lookup α, next.dotted = dotted →
        (next.run (Config.load doc path)).1 = next.outcome path (doc.find (parts dotted))) ↔
      made = [] ∧ doc.sections (parts dotted) = true := by
  rw [after_load_iff, run_load_iff]
  constructor
  · rintro ⟨rfl | scalar, within⟩
    · exact ⟨rfl, within⟩
    · rw [isMap_of_sections within (parts_ne_nil dotted)] at scalar
      cases scalar
  · rintro ⟨rfl, within⟩
    exact ⟨.inl rfl, within⟩

end Lexaire
