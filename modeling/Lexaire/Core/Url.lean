import Mathlib.Data.List.TakeWhile

/-! Texts cut at the last occurrence of a character, and the port in the authority of a URL: what
stands after its last colon, but a colon between brackets is part of an address. -/
namespace Text

/-- Where the character stands last. -/
def rfind (c : Char) : List Char → Option Nat
  | [] => none
  | d :: rest =>
    match rfind c rest with
    | some i => some (i + 1)
    | none => if d = c then some 0 else none

section
variable {c : Char} {s before after : List Char}

theorem rfind_eq_none (absent : c ∉ s) : rfind c s = none := by
  induction s with
  | nil => rfl
  | cons d rest ih =>
    obtain ⟨other, absent⟩ := not_or.mp (mt List.mem_cons.mpr absent)
    rw [rfind, ih absent, if_neg (Ne.symm other)]

theorem rfind_append_cons (absent : c ∉ after) :
    rfind c (before ++ c :: after) = some before.length := by
  induction before with
  | nil => rw [List.nil_append, rfind, rfind_eq_none absent, if_pos rfl, List.length_nil]
  | cons d before ih => rw [List.cons_append, rfind, ih, List.length_cons]

theorem exists_last (member : c ∈ s) : ∃ before after, s = before ++ c :: after ∧ c ∉ after := by
  obtain ⟨after, before, split, absent⟩ := List.eq_append_cons_of_mem (List.mem_reverse.mpr member)
  refine ⟨before.reverse, after.reverse, ?_, by simpa using absent⟩
  rw [← List.reverse_reverse s, split]
  simp

end
end Text

namespace Url

def isDelimiter (c : Char) : Bool := c = '/' || c = '?' || c = '#'

/-- Of what follows the `//`. -/
def authority (s : List Char) : List Char := s.takeWhile (!isDelimiter ·)

/-- Whether a bracket is open after the character. -/
def bracketed (inside : Bool) (c : Char) : Bool := c = '[' || (inside && c ≠ ']')

/-- What stands after the last colon outside brackets. CPython splits at the first colon behind
the userinfo and refuses brackets around what is no address, so the two readings part where
a host has a colon of its own or brackets. -/
def portText? (inside : Bool) : List Char → Option (List Char)
  | [] => none
  | c :: rest =>
    match portText? (bracketed inside c) rest with
    | some text => some text
    | none => if c = ':' ∧ inside = false then some rest else none

def decimal? (s : List Char) : Option Nat :=
  if s ≠ [] ∧ s.all Char.isDigit = true then some (Nat.ofDigitChars 10 s 0) else none

inductive PortError where
  | valueError
deriving DecidableEq

def toPort (text : List Char) : Except PortError Nat :=
  match decimal? text with
  | some n => if n ≤ 65535 then .ok n else .error .valueError
  | none => .error .valueError

/-- The port of an authority, if it has one. -/
def port? (s : List Char) : Except PortError (Option Nat) :=
  match portText? false s with
  | none => .ok none
  | some text => if text = [] then .ok none else (toPort text).map some

section
variable {s rest text : List Char} {n : Nat}

theorem portText?_eq_none (inside : Bool) (absent : ':' ∉ s) : portText? inside s = none := by
  induction s generalizing inside with
  | nil => rfl
  | cons c rest ih =>
    obtain ⟨other, absent⟩ := not_or.mp (mt List.mem_cons.mpr absent)
    rw [portText?, ih _ absent]
    exact if_neg fun colon => other colon.1.symm

theorem portText?_colon (absent : ':' ∉ s) : portText? false (':' :: s) = some s := by
  rw [portText?, portText?_eq_none _ absent]
  exact if_pos ⟨rfl, rfl⟩

theorem portText?_append {inside : Bool}
    (last : portText? (s.foldl bracketed inside) rest = some text) :
    portText? inside (s ++ rest) = some text := by
  induction s generalizing inside with
  | nil => exact last
  | cons c s ih =>
    rw [List.cons_append, portText?, ih last]

/-- A name, an IPv4 address or the wildcard leaves no bracket open. -/
theorem foldl_bracketed (unbracketed : '[' ∉ s) : s.foldl bracketed false = false := by
  induction s with
  | nil => rfl
  | cons c s ih =>
    obtain ⟨other, unbracketed⟩ := not_or.mp (mt List.mem_cons.mpr unbracketed)
    have outside : bracketed false c = false := by simp [bracketed, Ne.symm other]
    rw [List.foldl_cons, outside]
    exact ih unbracketed

/-- Nor does an address in brackets. -/
theorem foldl_bracketed_concat (s : List Char) : (s ++ [']']).foldl bracketed false = false := by
  simp [bracketed]

theorem isDelimiter_of_isDigit {c : Char} (digit : c.isDigit = true) : isDelimiter c = false := by
  by_contra delimiter
  simp only [isDelimiter, Bool.or_eq_true, decide_eq_true_eq, Bool.not_eq_false] at delimiter
  rcases delimiter with (rfl | rfl) | rfl <;> cases digit

theorem toPort_eq_ok_iff : toPort text = .ok n ↔ n ≤ 65535 ∧ decimal? text = some n := by
  unfold toPort
  split
  · next m read =>
    rw [read, Option.some.injEq]
    split
    · next small =>
      rw [Except.ok.injEq]
      exact ⟨fun same => ⟨same ▸ small, same⟩, fun both => both.2⟩
    · next large => exact ⟨nofun, fun both => absurd (both.2 ▸ both.1) large⟩
  · next unread => simp [unread]

theorem port?_eq_none_iff :
    port? s = .ok none ↔ portText? false s = none ∨ portText? false s = some [] := by
  unfold port?
  cases portText? false s with
  | none => simp
  | some text =>
    by_cases empty : text = []
    · simp [empty]
    · cases ported : toPort text <;> simp [ported, empty, Except.map]

theorem port?_eq_some_iff :
    port? s = .ok (some n) ↔
      n ≤ 65535 ∧ ∃ text, portText? false s = some text ∧ decimal? text = some n := by
  unfold port?
  cases portText? false s with
  | none => simp
  | some text =>
    by_cases empty : text = []
    · simp [empty, decimal?]
    · have read := @toPort_eq_ok_iff text n
      cases ported : toPort text with
      | error e => simpa [ported, empty, Except.map] using read
      | ok m => simpa [ported, empty, Except.map] using read

theorem isDigit_of_mem_decimal {c : Char} (member : c ∈ Nat.toDigits 10 n) : c.isDigit = true :=
  Nat.isDigit_of_mem_toDigits (by decide) (by decide) member

theorem not_mem_decimal {c : Char} (other : c.isDigit = false) : c ∉ Nat.toDigits 10 n := by
  intro member
  have digit := isDigit_of_mem_decimal member
  rw [other] at digit
  cases digit

theorem decimal?_toDigits (n : Nat) : decimal? (Nat.toDigits 10 n) = some n := by
  have digits : (Nat.toDigits 10 n).all Char.isDigit = true :=
    List.all_eq_true.mpr fun _ member => isDigit_of_mem_decimal member
  rw [decimal?, if_pos ⟨Nat.toDigits_ne_nil, digits⟩, Nat.ofDigitChars_ten_toDigits]

end
end Url
