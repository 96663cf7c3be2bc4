import Mathlib.Data.List.Forall2

/-! Prefixes of texts, and the search for a whole word that `\bword\b` stands for
in a regular expression. Which characters are word characters and which letters
are the same is left to the engine. -/
namespace Text

def startsWith (start s : String) : Bool := start.toList.isPrefixOf s.toList

/-- Neither text begins with the other. -/
def apart (s t : String) : Bool := !startsWith s t && !startsWith t s

theorem startsWith_append_of_apart {start text : String} (differ : apart start text = true)
    (rest : String) : startsWith text (start ++ rest) = false := by
  simp only [apart, Bool.and_eq_true, Bool.not_eq_true', startsWith] at differ
  by_cases begins : startsWith text (start ++ rest) = true
  · simp only [startsWith, String.toList_append, List.isPrefixOf_iff_prefix] at begins
    rcases List.prefix_or_prefix_of_prefix begins (List.prefix_append start.toList rest.toList) with
      shorter | longer
    · rw [← List.isPrefixOf_iff_prefix, differ.2] at shorter
      cases shorter
    · rw [← List.isPrefixOf_iff_prefix, differ.1] at longer
      cases longer
  · simpa using begins

theorem append_ne_of_apart {start text : String} (differ : apart start text = true)
    (rest : String) : start ++ rest ≠ text := by
  intro same
  have begins := startsWith_append_of_apart differ rest
  have itself : text.toList.isPrefixOf text.toList = true :=
    List.isPrefixOf_iff_prefix.mpr (List.prefix_refl _)
  rw [same, startsWith, itself] at begins
  cases begins

/-- What an engine takes for word characters, and for the same letter. -/
structure Alphabet where
  isWord : Char → Bool
  same : Char → Char → Bool

namespace Alphabet
variable (a : Alphabet)

/-- Whatever passes for the character is a word character. Engines without case have marks
that pass for a letter and are none. -/
def Letter (p : Char) : Prop := ∀ c, a.same c p = true → a.isWord c = true

/-- `\b`, between the characters on its two sides. -/
def boundary (before after : Option Char) : Bool := before.any a.isWord != after.any a.isWord

/-- What a pattern without operators leaves of a text that begins with it. -/
def strip : List Char → List Char → Option (List Char)
  | [], rest => some rest
  | p :: ps, c :: rest => if a.same c p then strip ps rest else none
  | _ :: _, [] => none

def matchesHere (word : List Char) (before : Option Char) (rest : List Char) : Bool :=
  a.boundary before rest.head? &&
    match a.strip word rest with
    | none => false
    | some after => a.boundary ((rest.take word.length).getLast?.or before) after.head?

/-- `re.search` of `\bword\b` in what is left, after the character `before`. -/
def searchFrom (word : List Char) : Option Char → List Char → Bool
  | before, [] => a.matchesHere word before []
  | before, c :: rest => a.matchesHere word before (c :: rest) || searchFrom word (some c) rest

def search (word text : String) : Bool := a.searchFrom word.toList none text.toList

/-- The word stands in the text, with no word character next to it. -/
def HasWord (word text : List Char) : Prop :=
  ∃ before occ after, text = before ++ occ ++ after ∧ List.Forall₂ (a.same · ·) occ word ∧
    before.getLast?.any a.isWord = false ∧ after.head?.any a.isWord = false

theorem strip_eq_some_iff {word rest after : List Char} :
    a.strip word rest = some after ↔
      ∃ occ, rest = occ ++ after ∧ List.Forall₂ (a.same · ·) occ word := by
  induction word generalizing rest with
  | nil =>
    constructor
    · intro stripped
      exact ⟨[], Option.some.inj stripped, .nil⟩
    · rintro ⟨occ, rfl, all⟩
      cases all
      rfl
  | cons p ps ih =>
    cases rest with
    | nil =>
      simp only [strip, reduceCtorEq, false_iff]
      rintro ⟨occ, split, all⟩
      cases all
      cases split
    | cons c rest =>
      by_cases same : a.same c p = true
      · simp only [strip, same, if_true, ih]
        constructor
        · rintro ⟨occ, rfl, all⟩
          exact ⟨c :: occ, rfl, .cons same all⟩
        · rintro ⟨occ, split, all⟩
          cases all with
          | cons first others =>
            obtain ⟨rfl, rfl⟩ := List.cons.inj split
            exact ⟨_, rfl, others⟩
      · simp only [strip, same, Bool.false_eq_true, if_false, reduceCtorEq, false_iff]
        rintro ⟨occ, split, all⟩
        cases all with
        | cons first others =>
          obtain ⟨rfl, rfl⟩ := List.cons.inj split
          exact same first

variable {a} {word : List Char}

theorem getLast?_letter {occ : List Char} {last : Char}
    (all : List.Forall₂ (a.same · ·) occ word) (final : word.getLast? = some last)
    (letter : a.Letter last) : occ.getLast?.any a.isWord = true := by
  induction all with
  | nil => cases final
  | @cons c p occ word first others ih =>
    cases others with
    | nil =>
      obtain rfl := Option.some.inj final
      exact letter c first
    | cons =>
      rw [List.getLast?_cons_cons] at final ⊢
      exact ih final

theorem getLast?_cons_or (c : Char) (rest : List Char) (before : Option Char) :
    (c :: rest).getLast?.or before = rest.getLast?.or (some c) := by
  cases rest <;> simp [List.getLast?_cons]

theorem head?_letter {occ : List Char} {first : Char} (all : List.Forall₂ (a.same · ·) occ word)
    (head : word.head? = some first) (letter : a.Letter first) :
    occ.head?.any a.isWord = true := by
  cases all with
  | nil => cases head
  | @cons c p occ word one others =>
    obtain rfl := Option.some.inj head
    exact letter c one

/-- A match is the word, with a boundary on each side. -/
theorem matchesHere_iff (some : word ≠ []) (before : Option Char) (rest : List Char) :
    a.matchesHere word before rest = true ↔
      ∃ occ after, rest = occ ++ after ∧ List.Forall₂ (a.same · ·) occ word ∧
        a.boundary before occ.head? = true ∧ a.boundary occ.getLast? after.head? = true := by
  have shape {occ : List Char} (after : List Char) (all : List.Forall₂ (a.same · ·) occ word) :
      (occ ++ after).head? = occ.head? ∧
        ((occ ++ after).take word.length).getLast?.or before = occ.getLast? := by
    rw [← all.length_eq, List.take_left]
    cases all with
    | nil => exact absurd rfl some
    | cons one others => simp [List.getLast?_cons]
  unfold matchesHere
  constructor
  · intro holds
    obtain ⟨left, right⟩ := Bool.and_eq_true_iff.mp holds
    cases stripped : a.strip word rest with
    | none => simp [stripped] at right
    | some after =>
      obtain ⟨occ, rfl, all⟩ := (a.strip_eq_some_iff).mp stripped
      obtain ⟨opens, closes⟩ := shape after all
      simp only [stripped, opens, closes] at left right
      exact ⟨occ, after, rfl, all, left, right⟩
  · rintro ⟨occ, after, rfl, all, left, right⟩
    obtain ⟨opens, closes⟩ := shape after all
    rw [(a.strip_eq_some_iff).mpr ⟨occ, rfl, all⟩]
    simp only [opens, closes, left, right, Bool.and_self]

theorem searchFrom_iff (some : word ≠ []) (before : Option Char) (rest : List Char) :
    a.searchFrom word before rest = true ↔
      ∃ skipped occ after, rest = skipped ++ occ ++ after ∧
        List.Forall₂ (a.same · ·) occ word ∧
        a.boundary (skipped.getLast?.or before) occ.head? = true ∧
        a.boundary occ.getLast? after.head? = true := by
  induction rest generalizing before with
  | nil =>
    simp only [searchFrom, matchesHere_iff some]
    constructor
    · rintro ⟨occ, after, split, all, left, right⟩
      exact ⟨[], occ, after, by simpa using split, all, by simpa using left, right⟩
    · rintro ⟨skipped, occ, after, split, all, left, right⟩
      obtain ⟨rfl, rfl, rfl⟩ : skipped = [] ∧ occ = [] ∧ after = [] := by simpa using split.symm
      exact ⟨[], [], rfl, all, by simpa using left, right⟩
  | cons c rest ih =>
    simp only [searchFrom, Bool.or_eq_true, matchesHere_iff some, ih]
    constructor
    · rintro (⟨occ, after, split, all, left, right⟩ | ⟨skipped, occ, after, rfl, all, left, right⟩)
      · exact ⟨[], occ, after, by simpa using split, all, by simpa using left, right⟩
      · rw [← getLast?_cons_or c skipped before] at left
        exact ⟨c :: skipped, occ, after, rfl, all, left, right⟩
    · rintro ⟨skipped, occ, after, split, all, left, right⟩
      cases skipped with
      | nil => exact .inl ⟨occ, after, by simpa using split, all, by simpa using left, right⟩
      | cons d others =>
        obtain ⟨rfl, rfl⟩ := List.cons.inj split
        rw [getLast?_cons_or] at left
        exact .inr ⟨others, occ, after, rfl, all, left, right⟩

/-- The search finds the texts that have the word between two boundaries. -/
theorem search_iff {word text : String} (some : word.toList ≠ []) :
    a.search word text = true ↔
      ∃ before occ after, text.toList = before ++ occ ++ after ∧
        List.Forall₂ (a.same · ·) occ word.toList ∧
        a.boundary before.getLast? occ.head? = true ∧ a.boundary occ.getLast? after.head? = true := by
  simpa [search] using searchFrom_iff some none text.toList

/-- Of a word that begins and ends with letters: it finds the texts that have it. -/
theorem search_iff_hasWord {word text : String} {first last : Char}
    (head : word.toList.head? = some first) (final : word.toList.getLast? = some last)
    (starts : a.Letter first) (stops : a.Letter last) :
    a.search word text = true ↔ a.HasWord word.toList text.toList := by
  have some : word.toList ≠ [] := fun none => by simp [none] at head
  rw [search_iff some, HasWord]
  refine exists_congr fun before => exists_congr fun occ => exists_congr fun after =>
    and_congr_right fun _ => and_congr_right fun all => ?_
  simp [boundary, head?_letter all head starts, getLast?_letter all final stops]

end Alphabet
end Text
