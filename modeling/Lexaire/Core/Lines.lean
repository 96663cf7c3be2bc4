import Mathlib.Data.List.DropRight

/-! The lines of a text file as Python's text mode gives them, and `str.strip`. A line is
given without its end, which `strip` removes. -/
namespace Lines

/-- Universal newlines. -/
def translate : List Char → List Char
  | [] => []
  | '\r' :: '\n' :: rest => '\n' :: translate rest
  | '\r' :: rest => '\n' :: translate rest
  | c :: rest => c :: translate rest

def lines : List Char → List (List Char)
  | [] => []
  | c :: rest =>
    if c = '\n' then [] :: lines rest
    else
      match lines rest with
      | [] => [[c]]
      | line :: others => (c :: line) :: others

/-- `str.isspace` of a character. -/
def isSpace (c : Char) : Bool :=
  (9 ≤ c.toNat && c.toNat ≤ 13) || (28 ≤ c.toNat && c.toNat ≤ 32) || c.toNat = 0x85 ||
    c.toNat = 0xA0 || c.toNat = 0x1680 || (0x2000 ≤ c.toNat && c.toNat ≤ 0x200A) ||
    c.toNat = 0x2028 || c.toNat = 0x2029 || c.toNat = 0x202F || c.toNat = 0x205F || c.toNat = 0x3000

def strip (t : List Char) : List Char := (t.dropWhile isSpace).rdropWhile isSpace

theorem translate_of_no_return {t : List Char} (none : '\r' ∉ t) : translate t = t := by
  induction t with
  | nil => rfl
  | cons c t ih =>
    have other : c ≠ '\r' := by
      rintro rfl
      exact none List.mem_cons_self
    have rest := ih fun member => none (List.mem_cons_of_mem c member)
    rw [translate, rest]
    · intro t' same
      exact absurd same other
    · intro same
      exact absurd same other

theorem lines_cons_line {line t : List Char} (none : '\n' ∉ line) :
    lines (line ++ '\n' :: t) = line :: lines t := by
  induction line with
  | nil => simp [lines]
  | cons c line ih =>
    have other : c ≠ '\n' := by
      rintro rfl
      exact none List.mem_cons_self
    have rest := ih fun member => none (List.mem_cons_of_mem c member)
    simp [lines, other, rest]

theorem lines_last {line : List Char} (none : '\n' ∉ line) (some : line ≠ []) :
    lines line = [line] := by
  induction line with
  | nil => exact absurd rfl some
  | cons c line ih =>
    have other : c ≠ '\n' := by
      rintro rfl
      exact none List.mem_cons_self
    cases line with
    | nil => simp [lines, other]
    | cons d line =>
      have rest := ih (fun member => none (List.mem_cons_of_mem c member)) (List.cons_ne_nil d line)
      rw [lines, if_neg other, rest]

/-- Written lines come back, and after them what is left without an end. -/
theorem lines_written (written : List (List Char)) (tail : List Char)
    (none : ∀ line ∈ written, '\n' ∉ line) :
    lines (written.flatMap (· ++ ['\n']) ++ tail) = written ++ lines tail := by
  induction written with
  | nil => rfl
  | cons line rest ih =>
    have others := ih fun l member => none l (List.mem_cons_of_mem line member)
    simp only [List.flatMap_cons, List.append_assoc, List.cons_append, List.nil_append]
    rw [lines_cons_line (none line List.mem_cons_self), others]

/-- Between two characters that are no spaces nothing is stripped. -/
theorem strip_between {first last : Char} {t : List Char} (starts : isSpace first = false)
    (ends : isSpace last = false) : strip (first :: (t ++ [last])) = first :: (t ++ [last]) := by
  have left : (first :: (t ++ [last])).dropWhile isSpace = first :: (t ++ [last]) := by
    simp [starts]
  rw [strip, left, ← List.cons_append, List.rdropWhile_concat_neg]
  simp [ends]

/-- Of a text that begins with no space, a beginning is left. -/
theorem strip_begins {c : Char} {t : List Char} (starts : isSpace c = false) :
    ∃ spaces, c :: t = strip (c :: t) ++ spaces := by
  have left : (c :: t).dropWhile isSpace = c :: t := by simp [starts]
  rw [strip, left]
  obtain ⟨spaces, same⟩ := List.rdropWhile_prefix isSpace (c :: t)
  exact ⟨spaces, same.symm⟩

/-- Only spaces are stripped. -/
theorem strip_parts (t : List Char) : ∃ left right, t = left ++ strip t ++ right ∧
    (∀ c ∈ left, isSpace c = true) ∧ ∀ c ∈ right, isSpace c = true := by
  refine ⟨t.takeWhile isSpace, (t.dropWhile isSpace).rtakeWhile isSpace, ?_,
    fun c member => List.mem_takeWhile_imp member, fun c member => List.mem_rtakeWhile_imp member⟩
  rw [strip, List.append_assoc, List.rdropWhile_append_rtakeWhile, List.takeWhile_append_dropWhile]

/-- A text with no spaces at its ends. -/
structure Stripped (t : List Char) : Prop where
  starts : ∀ c, t.head? = some c → isSpace c = false
  ends : ∀ c, t.getLast? = some c → isSpace c = false

theorem dropWhile_append_of_starts {t : List Char} (nonempty : t ≠ [])
    (starts : ∀ c, t.head? = some c → isSpace c = false) (before : List Char) :
    (before ++ t).dropWhile isSpace = before.dropWhile isSpace ++ t := by
  cases t with
  | nil => exact absurd rfl nonempty
  | cons c t =>
    have kept : (c :: t).dropWhile isSpace = c :: t := by simp [starts c rfl]
    rw [List.dropWhile_append, kept]
    cases before.dropWhile isSpace <;> simp

theorem rdropWhile_append_of_ends {t : List Char} (nonempty : t ≠ [])
    (ends : ∀ c, t.getLast? = some c → isSpace c = false) (after : List Char) :
    (t ++ after).rdropWhile isSpace = t ++ after.rdropWhile isSpace := by
  have mirrored := dropWhile_append_of_starts (t := t.reverse) (by simpa using nonempty)
    (by simpa using ends) after.reverse
  simp only [List.rdropWhile, List.reverse_append, mirrored, List.reverse_reverse]

/-- Around a text that neither begins nor ends with a space. -/
theorem strip_around {t : List Char} (nonempty : t ≠ []) (stripped : Stripped t)
    (before after : List Char) :
    strip (before ++ t ++ after) = before.dropWhile isSpace ++ t ++ after.rdropWhile isSpace := by
  rw [strip, List.append_assoc, dropWhile_append_of_starts (by simp [nonempty]), ← List.append_assoc,
    rdropWhile_append_of_ends (by simp [nonempty])]
  · intro c last
    apply stripped.ends c
    rwa [List.getLast?_append_of_ne_nil _ nonempty] at last
  · intro c first
    apply stripped.starts c
    rwa [List.head?_append_of_ne_nil _ nonempty] at first

theorem stripped_strip (t : List Char) : Stripped (strip t) := by
  constructor
  · intro c first
    obtain ⟨rest, same⟩ := List.head?_eq_some_iff.mp first
    obtain ⟨right, split⟩ := List.rdropWhile_prefix isSpace (t.dropWhile isSpace)
    rw [← strip, same] at split
    have left := List.head?_dropWhile_not isSpace t
    rw [← split] at left
    exact left
  · intro c last
    have nonempty : strip t ≠ [] := by
      intro empty
      simp [empty] at last
    rw [List.getLast?_eq_some_getLast nonempty] at last
    obtain rfl := Option.some.inj last
    exact Bool.eq_false_iff.mpr (List.rdropWhile_last_not isSpace (t.dropWhile isSpace) nonempty)

theorem getLast?_dropWhile {p : Char → Bool} {before : List Char}
    (last : before.getLast?.all p = true) : (before.dropWhile isSpace).getLast?.all p = true := by
  obtain ⟨taken, split⟩ := List.dropWhile_suffix isSpace (l := before)
  by_cases empty : before.dropWhile isSpace = []
  · simp [empty]
  · rwa [← split, List.getLast?_append_of_ne_nil _ empty] at last

theorem head?_rdropWhile {p : Char → Bool} {after : List Char}
    (first : after.head?.all p = true) : (after.rdropWhile isSpace).head?.all p = true := by
  obtain ⟨taken, split⟩ := List.rdropWhile_prefix isSpace after
  by_cases empty : after.rdropWhile isSpace = []
  · simp [empty]
  · rwa [← split, List.head?_append_of_ne_nil _ empty] at first

end Lines
