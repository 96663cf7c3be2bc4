import Lexaire.Core.JsonScan

/-! What is written is read back, and no part of a written object is. -/
namespace JsonText

/-! ## Strings -/

section
variable {rest : List Char}

theorem hexValue?_digitChar : ∀ n < 16, hexValue? n.digitChar = some n := by decide

theorem unitOfHex?_hex4 {n : Nat} (small : n < 65536) :
    unitOfHex? (n / 4096).digitChar (n / 256 % 16).digitChar (n / 16 % 16).digitChar
      (n % 16).digitChar = some (UInt16.ofNat n) := by
  have first := hexValue?_digitChar (n / 4096) (by omega)
  have second := hexValue?_digitChar (n / 256 % 16) (by omega)
  have third := hexValue?_digitChar (n / 16 % 16) (by omega)
  have fourth := hexValue?_digitChar (n % 16) (by omega)
  have whole : ((n / 4096 * 16 + n / 256 % 16) * 16 + n / 16 % 16) * 16 + n % 16 = n := by omega
  simp only [unitOfHex?, first, second, third, fourth, Option.bind_eq_bind, Option.bind_some, whole,
    Option.pure_def]

theorem toNat_ofNat {n : Nat} (small : n < 0xD800) : (Char.ofNat n).toNat = n := by
  have valid : n.isValidChar := .inl small
  rw [Char.ofNat, dif_pos valid]
  rfl

theorem scanString_escape (u : UInt16) :
    scanString (escape u ++ rest) = mapFirst (u :: ·) (scanString rest) := by
  unfold escape
  split
  · next same => exact same ▸ scanString_short rfl
  split
  · next same => exact same ▸ scanString_short rfl
  split
  · next same => exact same ▸ scanString_short rfl
  split
  · next same => exact same ▸ scanString_short rfl
  split
  · next same => exact same ▸ scanString_short rfl
  split
  · next same => exact same ▸ scanString_short rfl
  split
  · next same => exact same ▸ scanString_short rfl
  next quote backslash _ _ _ _ _ =>
  split
  · next plain =>
    have code : (Char.ofNat u.toNat).toNat = u.toNat := toNat_ofNat (by omega)
    have other {n : Nat} {c : Char} (different : u.toNat ≠ n) (is : c.toNat = n) :
        Char.ofNat u.toNat ≠ c := by
      intro same
      exact different (code.symm.trans ((congrArg Char.toNat same).trans is))
    have quote' : u.toNat ≠ 34 := fun same => quote (UInt16.toNat_inj.mp same)
    have backslash' : u.toNat ≠ 92 := fun same => backslash (UInt16.toNat_inj.mp same)
    have units : unitsOf (Char.ofNat u.toNat) = [u] := by
      rw [unitsOf, code, if_pos (by omega), UInt16.ofNat_toNat]
    rw [List.cons_append, scanString_plain (other quote' rfl) (other backslash' rfl) (by omega),
      units]
    rfl
  · have unit := unitOfHex?_hex4 u.toNat_lt
    rw [UInt16.ofNat_toNat] at unit
    exact scanString_hex unit

theorem scanString_text (s : Units) :
    scanString (s.flatMap escape ++ '"' :: rest) = .ok (s, rest) := by
  induction s with
  | nil => rfl
  | cons u s ih =>
    rw [List.flatMap_cons, List.append_assoc, scanString_escape, ih]
    rfl

def isPrintable (c : Char) : Bool := 32 ≤ c.toNat && c.toNat < 127

/-- What ensure_ascii leaves. -/
def Printable (t : List Char) : Prop := ∀ c ∈ t, isPrintable c = true

instance (t : List Char) : Decidable (Printable t) :=
  List.decidableBAll (fun c => isPrintable c = true) t

theorem printable_nil : Printable [] := by decide

theorem printable_append {s t : List Char} : Printable (s ++ t) ↔ Printable s ∧ Printable t := by
  simp only [Printable, List.mem_append, or_imp, forall_and]

theorem printable_cons {c : Char} {t : List Char} :
    Printable (c :: t) ↔ isPrintable c = true ∧ Printable t := by
  simp only [Printable, List.mem_cons, forall_eq_or_imp]

theorem digitChar_printable : ∀ n < 16, isPrintable n.digitChar = true := by decide

theorem escape_printable (u : UInt16) : Printable (escape u) := by
  unfold escape
  split
  · decide
  split
  · decide
  split
  · decide
  split
  · decide
  split
  · decide
  split
  · decide
  split
  · decide
  split
  · next plain =>
    have code : (Char.ofNat u.toNat).toNat = u.toNat := toNat_ofNat (by omega)
    rw [printable_cons, isPrintable, code]
    exact ⟨by simpa using plain, printable_nil⟩
  · have small := u.toNat_lt
    simp only [hex4, printable_cons]
    refine ⟨by decide, by decide, ?_, ?_, ?_, ?_, printable_nil⟩
    · exact digitChar_printable _ (by omega)
    · exact digitChar_printable _ (by omega)
    · exact digitChar_printable _ (by omega)
    · exact digitChar_printable _ (by omega)

theorem textString_printable (s : Units) : Printable (textString s) := by
  have inner : Printable (s.flatMap escape) := by
    intro c member
    obtain ⟨u, -, inside⟩ := List.mem_flatMap.mp member
    exact escape_printable u c inside
  simp only [textString, List.cons_append, printable_cons, printable_append]
  exact ⟨by decide, inner, by decide, printable_nil⟩
end

/-! ## Numbers -/

section
variable {t : List Char}

def NumberChars (t : List Char) : Prop := ∀ c ∈ t, isNumberChar c = true

theorem isNumberChar_printable {c : Char} (number : isNumberChar c = true) :
    isPrintable c = true := by
  simp only [isNumberChar, Bool.or_eq_true, decide_eq_true_eq] at number
  rcases number with ((((digit | rfl) | rfl) | rfl) | rfl) | rfl
  · simp only [Char.isDigit, Bool.and_eq_true, decide_eq_true_eq] at digit
    obtain ⟨least, most⟩ := digit
    simp only [isPrintable, Bool.and_eq_true, decide_eq_true_eq]
    have low : 48 ≤ c.toNat := least
    have high : c.toNat ≤ 57 := most
    omega
  all_goals rfl

theorem NumberChars.printable (numbers : NumberChars t) : Printable t :=
  fun c member => isNumberChar_printable (numbers c member)

/-- A positive number has no leading zero. -/
theorem toDigits_starts {n : Nat} (positive : 0 < n) :
    ∃ c ds, Nat.toDigits 10 n = c :: ds ∧ c ≠ '0' := by
  induction n using Nat.strong_induction_on with
  | _ n ih =>
    by_cases small : n < 10
    · refine ⟨n.digitChar, [], Nat.toDigits_of_lt_base small, ?_⟩
      rw [ne_eq, Nat.digitChar_eq_zero]
      omega
    · obtain ⟨c, ds, same, other⟩ := ih (n / 10) (by omega) (by omega)
      have whole : 10 * (n / 10) + n % 10 = n := by omega
      refine ⟨c, ds ++ Nat.toDigits 10 (n % 10), ?_, other⟩
      rw [← List.cons_append, ← same, Nat.toDigits_append_toDigits (by omega) (by omega) (by omega),
        whole]

theorem toDigits_digits (n : Nat) : ∀ c ∈ Nat.toDigits 10 n, c.isDigit = true :=
  fun _ member => Nat.isDigit_of_mem_toDigits (by omega) (by omega) member

theorem scanInteger_toDigits (n : Nat) :
    scanInteger (Nat.toDigits 10 n) = some (Nat.toDigits 10 n, []) := by
  by_cases zero : n = 0
  · subst zero
    rfl
  · obtain ⟨c, ds, same, other⟩ := toDigits_starts (Nat.pos_of_ne_zero zero)
    have digits := toDigits_digits n
    rw [same] at digits ⊢
    have first := digits c (by simp)
    have others : ∀ d ∈ ds, d.isDigit = true := fun d member => digits d (by simp [member])
    have taken : ds.takeWhile Char.isDigit = ds := List.takeWhile_eq_self_iff.mpr others
    have dropped : ds.dropWhile Char.isDigit = [] := List.dropWhile_eq_nil_iff.mpr others
    simp [scanInteger, other, first, taken, dropped]

theorem textInteger_read (n : Int) : ∃ l, scanLiteral (textInteger n) = some (l, []) ∧
    l.isFloat = false ∧ l.toInt = n ∧ l.integer = Nat.toDigits 10 n.natAbs := by
  by_cases negative : n < 0
  · refine ⟨⟨['-'], Nat.toDigits 10 n.natAbs, [], []⟩, ?_, rfl, ?_, rfl⟩
    · simp [textInteger, negative, scanLiteral, scanSign, scanInteger_toDigits, scanFraction,
        scanExponent]
    · simp only [Literal.toInt, reduceCtorEq, if_false, Nat.ofDigitChars_ten_toDigits]
      omega
  · have unsigned : scanSign (Nat.toDigits 10 n.natAbs) = ([], Nat.toDigits 10 n.natAbs) := by
      have digits := toDigits_digits n.natAbs
      cases starts : Nat.toDigits 10 n.natAbs with
      | nil => rfl
      | cons c ds =>
        have minus : c ≠ '-' := by
          rintro rfl
          rw [starts] at digits
          exact absurd (digits '-' (by simp)) (by decide)
        simp [scanSign, minus]
    refine ⟨⟨[], Nat.toDigits 10 n.natAbs, [], []⟩, ?_, rfl, ?_, rfl⟩
    · simp [textInteger, negative, scanLiteral, unsigned, scanInteger_toDigits, scanFraction,
        scanExponent]
    · simp only [Literal.toInt, if_true, Nat.ofDigitChars_ten_toDigits]
      omega
/-! Every stage of a literal takes number characters only. -/

theorem numberChars_cons {c : Char} {t : List Char} :
    NumberChars (c :: t) ↔ isNumberChar c = true ∧ NumberChars t := by
  simp only [NumberChars, List.mem_cons, forall_eq_or_imp]

theorem numberChars_append {s t : List Char} :
    NumberChars (s ++ t) ↔ NumberChars s ∧ NumberChars t := by
  simp only [NumberChars, List.mem_append, or_imp, forall_and]

theorem isNumberChar_of_isDigit {c : Char} (digit : c.isDigit = true) : isNumberChar c = true := by
  simp [isNumberChar, digit]

theorem numberChars_of_dropWhile (rest : NumberChars (t.dropWhile Char.isDigit)) :
    NumberChars t := by
  rw [← List.takeWhile_append_dropWhile (p := Char.isDigit) (l := t), numberChars_append]
  refine ⟨fun c member => ?_, rest⟩
  exact isNumberChar_of_isDigit (List.mem_takeWhile_imp member)

theorem numberChars_of_scanSign (rest : NumberChars (scanSign t).2) : NumberChars t := by
  cases t with
  | nil => exact rest
  | cons c t =>
    by_cases minus : c = '-'
    · subst minus
      exact numberChars_cons.mpr ⟨rfl, rest⟩
    · simpa [scanSign, minus] using rest

theorem numberChars_of_scanInteger {read r : List Char} (scanned : scanInteger t = some (read, r))
    (rest : NumberChars r) : NumberChars t := by
  cases t with
  | nil => cases scanned
  | cons c t =>
    rw [scanInteger] at scanned
    split at scanned
    · next zero =>
      cases scanned
      exact numberChars_cons.mpr ⟨zero ▸ rfl, rest⟩
    · split at scanned
      · next digit =>
        cases scanned
        exact numberChars_cons.mpr ⟨isNumberChar_of_isDigit digit, numberChars_of_dropWhile rest⟩
      · cases scanned

theorem numberChars_of_scanDigits {start : List Char} (rest : NumberChars (scanDigits start t).2) :
    NumberChars t := by
  rw [scanDigits] at rest
  split at rest
  · exact (numberChars_append.mp rest).2
  · exact numberChars_of_dropWhile rest

theorem numberChars_of_scanFraction (rest : NumberChars (scanFraction t).2) : NumberChars t := by
  cases t with
  | nil => exact rest
  | cons c t =>
    by_cases point : c = '.'
    · subst point
      exact numberChars_cons.mpr ⟨rfl, numberChars_of_scanDigits rest⟩
    · simpa [scanFraction, point] using rest

theorem numberChars_of_scanExponent (rest : NumberChars (scanExponent t).2) : NumberChars t := by
  cases t with
  | nil => exact rest
  | cons e t =>
    simp only [scanExponent] at rest
    split at rest
    · next starts =>
      have number : isNumberChar e = true := by
        rcases starts with rfl | rfl <;> rfl
      refine numberChars_cons.mpr ⟨number, ?_⟩
      split at rest
      · exact numberChars_cons.mpr ⟨rfl, numberChars_of_scanDigits rest⟩
      · exact numberChars_cons.mpr ⟨rfl, numberChars_of_scanDigits rest⟩
      · exact numberChars_of_scanDigits rest
    · exact rest

theorem numberChars_of_scanLiteral {l : Literal} (scanned : scanLiteral t = some (l, [])) :
    NumberChars t := by
  simp only [scanLiteral] at scanned
  cases integer : scanInteger (scanSign t).2 with
  | none => simp [integer] at scanned
  | some read =>
    obtain ⟨read, after⟩ := read
    simp only [integer, Option.some.injEq, Prod.mk.injEq] at scanned
    have none : NumberChars (scanExponent (scanFraction after).2).2 := by
      rw [scanned.2]
      intro c member
      cases member
    have fraction := numberChars_of_scanFraction (numberChars_of_scanExponent none)
    exact numberChars_of_scanSign (numberChars_of_scanInteger integer fraction)

theorem textInteger_printable (n : Int) : Printable (textInteger n) := by
  obtain ⟨l, scanned, -⟩ := textInteger_read n
  exact (numberChars_of_scanLiteral scanned).printable
end

/-! ## Scalars -/

section
variable {F : Type} {floats : FloatText F} {limits : Limits} {t r : List Char} {v : Value F}
  {array : Scan (List (Value F))} {object : Scan (List (Units × Value F))}

theorem floatText_printable (x : F) : Printable (floats.text x) := by
  rcases floats.text_cases x with ⟨same, -⟩ | ⟨same, -⟩ | ⟨same, -⟩ | ⟨l, scanned, -⟩
  · rw [same]
    decide
  · rw [same]
    decide
  · rw [same]
    decide
  · exact (numberChars_of_scanLiteral scanned).printable

theorem scanWith_of_scalar (read : scanScalar floats limits t = .ok (v, r)) :
    scanWith floats limits array object t = .ok (v, r) := by
  cases t with
  | nil => cases read
  | cons c t =>
    rw [scanWith]
    split
    · next quote =>
      subst quote
      cases read
    split
    · next brace =>
      subst brace
      cases read
    split
    · next bracket =>
      subst bracket
      cases read
    · exact read

theorem scanOnce_of_scalar (depth : Nat) (read : scanScalar floats limits t = .ok (v, r)) :
    scanOnce floats limits depth t = .ok (v, r) := by
  cases depth with
  | zero => exact scanWith_of_scalar read
  | succ depth => exact scanWith_of_scalar read

theorem scanScalar_constant {word : List Char} (constant : (word, v) ∈ constants floats) :
    scanScalar floats limits word = .ok (v, []) := by
  have found : scanConstant floats word = some (v, []) :=
    scanConstant_eq_some_iff.mpr ⟨word, constant, (List.append_nil word).symm⟩
  rw [scanScalar, found]

theorem scanScalar_literal {l : Literal} (scanned : scanLiteral t = some (l, []))
    (value : valueOfLiteral floats limits l = .ok v) :
    scanScalar floats limits t = .ok (v, []) := by
  simp [scanScalar, scanConstant_of_literal scanned, scanNumber, scanned, value, Except.map]

theorem scanScalar_float (x : F) : scanScalar floats limits (floats.text x) = .ok (.number x, []) := by
  rcases floats.text_cases x with ⟨same, rfl⟩ | ⟨same, rfl⟩ | ⟨same, rfl⟩ | ⟨l, scanned, float, back⟩
  · rw [same]
    exact scanScalar_constant (by simp [constants])
  · rw [same]
    exact scanScalar_constant (by simp [constants])
  · rw [same]
    exact scanScalar_constant (by simp [constants])
  · apply scanScalar_literal scanned
    simp [valueOfLiteral, float, back]

theorem scanScalar_integer {n : Int} (fits : ¬ limits.digits < (Nat.toDigits 10 n.natAbs).length) :
    scanScalar floats limits (textInteger n) = .ok (.integer n, []) := by
  obtain ⟨l, scanned, float, back, digits⟩ := textInteger_read n
  apply scanScalar_literal scanned
  simp [valueOfLiteral, float, digits, fits, back]

/-- What is read begins with no space. -/
theorem scanOnce_starts {depth : Nat} (read : scanOnce floats limits depth t = .ok (v, r)) :
    ∃ c t', t = c :: t' ∧ isSpace c = false := by
  cases t with
  | nil =>
    rw [scanOnce_nil] at read
    cases read
  | cons c t =>
    refine ⟨c, t, rfl, ?_⟩
    by_contra space
    simp only [isSpace, Bool.not_eq_false, Bool.or_eq_true, decide_eq_true_eq] at space
    rcases space with ((rfl | rfl) | rfl) | rfl <;> cases depth <;> cases read
end

/-! ## Values -/

section
variable {F : Type}

mutual
/-- Every object is a dictionary. -/
def Value.WellFormed : Value F → Prop
  | .array items => WellFormedItems items
  | .object members => (members.map Prod.fst).Nodup ∧ WellFormedMembers members
  | _ => True

def WellFormedItems : List (Value F) → Prop
  | [] => True
  | v :: rest => v.WellFormed ∧ WellFormedItems rest

def WellFormedMembers : List (Units × Value F) → Prop
  | [] => True
  | (_, v) :: rest => v.WellFormed ∧ WellFormedMembers rest
end

theorem assign_new {V : Type} {key : Units} {v : V} {d : List (Units × V)}
    (new : key ∉ d.map Prod.fst) : Dict.assign key v d = d ++ [(key, v)] := by
  rw [Dict.assign, if_neg new]

theorem foldl_assign {V : Type} (members d : List (Units × V))
    (nodup : ((d ++ members).map Prod.fst).Nodup) :
    members.foldl (fun d m => Dict.assign m.1 m.2 d) d = d ++ members := by
  induction members generalizing d with
  | nil => simp
  | cons m members ih =>
    have new : m.1 ∉ d.map Prod.fst := by
      rw [List.map_append, List.nodup_append] at nodup
      intro held
      exact nodup.2.2 m.1 held m.1 (by simp) rfl
    rw [List.foldl_cons, assign_new new, ih _ (by simpa using nodup), List.append_assoc,
      List.singleton_append]

theorem dict_of_nodup {V : Type} {members : List (Units × V)}
    (nodup : (members.map Prod.fst).Nodup) : dict members = members :=
  foldl_assign members [] nodup

theorem skipSpace_of_starts {t : List Char} {c : Char} (starts : isSpace c = false) :
    skipSpace (c :: t) = c :: t := by
  simp [skipSpace, starts]

variable {floats : FloatText F} {limits : Limits}

/-- A text that is read whole is read before a delimiter. -/
theorem scanOnce_before {depth : Nat} {t r : List Char} {c : Char} {v : Value F}
    (read : scanOnce floats limits depth t = .ok (v, [])) (stops : isNumberChar c = false) :
    scanOnce floats limits depth (t ++ c :: r) = .ok (v, c :: r) :=
  scanOnce_extends depth read (c :: r) (delimited_cons stops)

theorem scanMember_text {depth : Nat} {key : Units} {v : Value F} {c : Char} {r : List Char}
    (read : scanOnce floats limits depth (text floats v) = .ok (v, []))
    (stops : isNumberChar c = false) :
    scanMember (scanOnce floats limits depth) (textString key ++ ':' :: text floats v ++ c :: r) =
      .ok ((key, v), c :: r) := by
  have named : scanString (key.flatMap escape ++ '"' :: ':' :: (text floats v ++ c :: r)) =
      .ok (key, ':' :: (text floats v ++ c :: r)) := scanString_text key
  obtain ⟨d, t, starts, space⟩ := scanOnce_starts read
  have skipped : skipSpace (text floats v ++ c :: r) = text floats v ++ c :: r := by
    rw [starts]
    exact skipSpace_of_starts space
  have colon : skipSpace (':' :: (text floats v ++ c :: r)) = ':' :: (text floats v ++ c :: r) := rfl
  simp only [textString, List.cons_append, List.append_assoc, List.nil_append, scanMember, named,
    colon, skipped, scanOnce_before read stops, mapFirst]

section
variable {α : Type} {close c : Char} {one : Scan α} {t r : List Char} {a : α} {fuel : Nat}

theorem scanLoop_last (read : one t = .ok (a, close :: r)) (space : isSpace close = false) :
    scanLoop close one (fuel + 1) t = .ok ([a], r) := by
  simp [scanLoop, read, skipSpace_of_starts space]

theorem scanLoop_next (read : one t = .ok (a, ',' :: c :: r)) (space : isSpace c = false)
    (other : ',' ≠ close) :
    scanLoop close one (fuel + 1) t = mapFirst (a :: ·) (scanLoop close one fuel (c :: r)) := by
  have comma : skipSpace (',' :: c :: r) = ',' :: c :: r := rfl
  simp only [scanLoop, read, comma, if_neg other, if_true, skipSpace_of_starts space]

/-- A sequence that is not empty is its loop. -/
theorem scanSequence_loop (space : isSpace c = false) (other : c ≠ close) :
    scanSequence close one (c :: t) = scanLoop close one (c :: t).length (c :: t) := by
  simp only [scanSequence, skipSpace_of_starts space, if_neg other]
end

theorem scanItems_starts {depth : Nat} {v : Value F} (rest : List (Value F))
    (read : scanOnce floats limits depth (text floats v) = .ok (v, [])) :
    ∃ c t, textItems floats (v :: rest) = c :: t ∧ isSpace c = false ∧ c ≠ ']' := by
  obtain ⟨c, t, starts, space⟩ := scanOnce_starts read
  have close : c ≠ ']' := by
    rintro rfl
    rw [starts] at read
    cases depth <;> cases read
  cases rest with
  | nil => exact ⟨c, t, starts, space, close⟩
  | cons w rest =>
    refine ⟨c, t ++ ',' :: textItems floats (w :: rest), ?_, space, close⟩
    rw [textItems, starts, List.cons_append]
    simp

theorem textMembers_starts (floats : FloatText F) (key : Units) (v : Value F) (rest : List (Units × Value F)) :
    ∃ t, textMembers floats ((key, v) :: rest) = '"' :: t := by
  cases rest with
  | nil => exact ⟨_, rfl⟩
  | cons m rest => exact ⟨_, rfl⟩

mutual
theorem scanOnce_text : (v : Value F) → (depth : Nat) → refused limits depth v = none →
    v.WellFormed → scanOnce floats limits depth (text floats v) = .ok (v, [])
  | .null, depth, _, _ => scanOnce_of_scalar depth (scanScalar_constant (.head _))
  | .boolean true, depth, _, _ =>
    scanOnce_of_scalar depth (scanScalar_constant (.tail _ (.head _)))
  | .boolean false, depth, _, _ =>
    scanOnce_of_scalar depth (scanScalar_constant (.tail _ (.tail _ (.head _))))
  | .integer n, depth, written, _ => by
    apply scanOnce_of_scalar depth
    apply scanScalar_integer
    intro long
    simp [refused, long] at written
  | .number x, depth, _, _ => scanOnce_of_scalar depth (scanScalar_float x)
  | .string s, depth, _, _ => by
    have read : scanString (s.flatMap escape ++ ['"']) = .ok (s, []) := scanString_text s
    cases depth with
    | zero => simp [scanOnce, scanWith, text, textString, read, mapFirst]
    | succ depth => simp [scanOnce, scanWith, text, textString, read, mapFirst]
  | .array items, 0, written, _ => by simp [refused] at written
  | .array [], depth + 1, _, _ => rfl
  | .array (v :: rest), depth + 1, written, formed => by
    have loop := scanItems_text (v :: rest) (List.cons_ne_nil v rest) depth written formed
    have first : refused limits depth v = none := by
      simp only [refused, refusedItems, Option.or_eq_none_iff] at written
      exact written.1
    obtain ⟨c, t, starts, space, close⟩ := scanItems_starts rest
      (scanOnce_text v depth first formed.1)
    rw [starts] at loop
    have items : scanArray (scanOnce floats limits depth) (c :: (t ++ [']'])) =
        .ok (v :: rest, []) := by
      rw [scanArray, scanSequence_loop space close]
      exact loop _ [] (by simp)
    rw [text, starts]
    simp only [List.cons_append, scanOnce, scanWith, Char.reduceEq, if_false, if_true, items,
      mapFirst]
  | .object members, 0, written, _ => by simp [refused] at written
  | .object [], depth + 1, _, _ => rfl
  | .object ((key, v) :: rest), depth + 1, written, formed => by
    have loop := scanMembers_text ((key, v) :: rest) (List.cons_ne_nil _ rest) depth written formed.2
    obtain ⟨t, starts⟩ := textMembers_starts floats key v rest
    rw [starts] at loop
    have members : scanObject (scanOnce floats limits depth) ('"' :: (t ++ ['}'])) =
        .ok ((key, v) :: rest, []) := by
      rw [scanObject, scanSequence_loop rfl (by decide)]
      exact loop _ [] (by simp)
    rw [text, starts]
    simp only [List.cons_append, scanOnce, scanWith, Char.reduceEq, if_false, if_true, members,
      mapFirst, dict_of_nodup formed.1]

theorem scanItems_text : (items : List (Value F)) → items ≠ [] → (depth : Nat) →
    refusedItems limits depth items = none → WellFormedItems items → (fuel : Nat) →
    (r : List Char) → (textItems floats items).length < fuel →
    scanLoop ']' (scanOnce floats limits depth) fuel (textItems floats items ++ ']' :: r) =
      .ok (items, r)
  | [], nonempty, _, _, _, _, _, _ => absurd rfl nonempty
  | [v], _, depth, written, formed, fuel + 1, r, _ => by
    simp only [refusedItems, Option.or_none] at written
    exact scanLoop_last (scanOnce_before (scanOnce_text v depth written formed.1) rfl) rfl
  | v :: w :: rest, _, depth, written, formed, fuel + 1, r, enough => by
    simp only [refusedItems, Option.or_eq_none_iff] at written
    have read := scanOnce_text v depth written.1 formed.1
    have next := scanOnce_text w depth written.2.1 formed.2.1
    obtain ⟨c, t, starts, space, -⟩ := scanItems_starts rest next
    have enough' : (textItems floats (w :: rest)).length < fuel := by
      simp only [textItems, List.length_append, List.length_cons] at enough ⊢
      omega
    have others := scanItems_text (w :: rest) (List.cons_ne_nil w rest) depth
      (by simp [refusedItems, written]) formed.2 fuel r enough'
    rw [textItems, List.append_assoc, List.cons_append]
    · rw [starts] at others ⊢
      rw [List.cons_append] at others ⊢
      rw [scanLoop_next (scanOnce_before read rfl) space (by decide), others]
      rfl
    · simp
  | _ :: _, _, _, _, _, 0, _, enough => absurd enough (Nat.not_lt_zero _)

theorem scanMembers_text : (members : List (Units × Value F)) → members ≠ [] → (depth : Nat) →
    refusedMembers limits depth members = none → WellFormedMembers members → (fuel : Nat) →
    (r : List Char) → (textMembers floats members).length < fuel →
    scanLoop '}' (scanMember (scanOnce floats limits depth)) fuel
      (textMembers floats members ++ '}' :: r) = .ok (members, r)
  | [], nonempty, _, _, _, _, _, _ => absurd rfl nonempty
  | [(key, v)], _, depth, written, formed, fuel + 1, r, _ => by
    simp only [refusedMembers, Option.or_none] at written
    exact scanLoop_last (scanMember_text (scanOnce_text v depth written formed.1) rfl) rfl
  | (key, v) :: (key', w) :: rest, _, depth, written, formed, fuel + 1, r, enough => by
    simp only [refusedMembers, Option.or_eq_none_iff] at written
    have read := scanOnce_text v depth written.1 formed.1
    obtain ⟨t, starts⟩ := textMembers_starts floats key' w rest
    have enough' : (textMembers floats ((key', w) :: rest)).length < fuel := by
      simp only [textMembers, List.length_append, List.length_cons] at enough ⊢
      omega
    have others := scanMembers_text ((key', w) :: rest) (List.cons_ne_nil _ rest) depth
      (by simp [refusedMembers, written]) formed.2 fuel r enough'
    rw [textMembers, List.append_assoc, List.cons_append]
    · rw [starts] at others ⊢
      rw [List.cons_append] at others ⊢
      rw [scanLoop_next (scanMember_text read rfl) rfl (by decide), others]
      rfl
    · simp
  | _ :: _, _, _, _, _, 0, _, enough => absurd enough (Nat.not_lt_zero _)
end

mutual
/-- What can be written in a container can be written alone. -/
theorem refused_succ : (v : Value F) → (depth : Nat) →
    refused limits depth v = none → refused limits (depth + 1) v = none
  | .null, _, _ => rfl
  | .boolean _, _, _ => rfl
  | .integer _, _, written => written
  | .number _, _, _ => rfl
  | .string _, _, _ => rfl
  | .array items, 0, written => by cases written
  | .array items, depth + 1, written => refusedItems_succ items depth written
  | .object members, 0, written => by cases written
  | .object members, depth + 1, written => refusedMembers_succ members depth written

theorem refusedItems_succ : (items : List (Value F)) → (depth : Nat) →
    refusedItems limits depth items = none → refusedItems limits (depth + 1) items = none
  | [], _, _ => rfl
  | v :: rest, depth, written => by
    simp only [refusedItems, Option.or_eq_none_iff] at written ⊢
    exact ⟨refused_succ v depth written.1, refusedItems_succ rest depth written.2⟩

theorem refusedMembers_succ : (members : List (Units × Value F)) →
    (depth : Nat) → refusedMembers limits depth members = none →
    refusedMembers limits (depth + 1) members = none
  | [], _, _ => rfl
  | (_, v) :: rest, depth, written => by
    simp only [refusedMembers, Option.or_eq_none_iff] at written ⊢
    exact ⟨refused_succ v depth written.1, refusedMembers_succ rest depth written.2⟩
end

/-- `json.loads` inverts `json.dumps`. -/
theorem loads_dumps {v : Value F} {t : List Char} (formed : v.WellFormed)
    (written : dumps floats limits v = .ok t) : loads floats limits t = .ok v := by
  rw [dumps] at written
  split at written
  · cases written
  · next accepted =>
    cases written
    have read : scanOnce floats limits limits.depth (text floats v) = .ok (v, []) :=
      scanOnce_text v limits.depth accepted formed
    obtain ⟨c, t, starts, space⟩ := scanOnce_starts read
    rw [loads, starts, skipSpace_of_starts space, ← starts, read]
    rfl

/-- No proper part of an object's text is read, for want of its end. -/
theorem loads_part {members : List (Units × Value F)} {t p q : List Char}
    (formed : (Value.object members).WellFormed)
    (written : dumps floats limits (.object members) = .ok t) (cut : t = p ++ q) (more : q ≠ []) :
    ∃ e, loads floats limits p = .error e ∧ e ≠ .recursionError := by
  rw [dumps] at written
  split at written
  · cases written
  next accepted =>
  cases written
  have whole : scanOnce floats limits limits.depth (p ++ q) = .ok (.object members, []) :=
    cut ▸ scanOnce_text _ limits.depth accepted formed
  cases p with
  | nil =>
    refine ⟨.decodeError, ?_, by decide⟩
    have none : skipSpace [] = [] := rfl
    rw [loads, none, scanOnce_nil]
  | cons c p =>
    have brace : '{' = c := (List.cons.inj cut).1
    subst brace
    rw [loads, skipSpace_of_starts rfl]
    cases part : scanOnce floats limits limits.depth ('{' :: p) with
    | error e =>
      refine ⟨e, rfl, ?_⟩
      rintro rfl
      rw [scanOnce_deep limits.depth part q] at whole
      cases whole
    | ok scanned =>
      obtain ⟨v, r⟩ := scanned
      rw [scanOnce_object part] at whole
      have ends : r ++ q = [] := (Prod.mk.inj (Except.ok.inj whole)).2
      exact absurd (List.append_eq_nil_iff.mp ends).2 more

/-! ## What is written is printable -/

mutual
theorem text_printable : (v : Value F) → Printable (text floats v)
  | .null => by
    rw [text]
    decide
  | .boolean true => by
    rw [text]
    decide
  | .boolean false => by
    rw [text]
    decide
  | .integer n => textInteger_printable n
  | .number x => floatText_printable x
  | .string s => textString_printable s
  | .array items => by
    simp only [text, List.cons_append, printable_cons, printable_append]
    exact ⟨rfl, textItems_printable items, rfl, printable_nil⟩
  | .object members => by
    simp only [text, List.cons_append, printable_cons, printable_append]
    exact ⟨rfl, textMembers_printable members, rfl, printable_nil⟩

theorem textItems_printable : (items : List (Value F)) → Printable (textItems floats items)
  | [] => printable_nil
  | [v] => text_printable v
  | v :: w :: rest => by
    rw [textItems, printable_append, printable_cons]
    · exact ⟨text_printable v, rfl, textItems_printable (w :: rest)⟩
    · simp

theorem textMembers_printable : (members : List (Units × Value F)) →
    Printable (textMembers floats members)
  | [] => printable_nil
  | [(key, v)] => by
    simp only [textMembers, printable_append, printable_cons]
    exact ⟨textString_printable key, rfl, text_printable v⟩
  | (key, v) :: m :: rest => by
    rw [textMembers, printable_append, printable_append, printable_cons, printable_cons]
    · exact ⟨⟨textString_printable key, rfl, text_printable v⟩, rfl,
        textMembers_printable (m :: rest)⟩
    · simp
end

/-! ## What is read is well formed -/

/-- All that the reader yields is so. -/
def Yields {α : Type} (P : α → Prop) (scan : Scan α) : Prop :=
  ∀ {t a r}, scan t = .ok (a, r) → P a

section
variable {α : Type} {P : α → Prop} {close : Char} {one : Scan α}

theorem scanLoop_yields (yields : Yields P one) (fuel : Nat) :
    Yields (fun items => ∀ a ∈ items, P a) (scanLoop close one fuel) := by
  induction fuel with
  | zero =>
    intro t items r read
    cases read
  | succ n ih =>
    intro t items r read
    obtain ⟨a, c, after, rest, first, -, last | ⟨-, -, others, rfl, later⟩⟩ := scanLoop_eq_ok read
    · obtain ⟨-, rfl, -⟩ := last
      simpa using yields first
    · simpa using ⟨yields first, ih later⟩

theorem scanSequence_yields (yields : Yields P one) :
    Yields (fun items => ∀ a ∈ items, P a) (scanSequence close one) := by
  intro t items r read
  rw [scanSequence] at read
  split at read
  · cases read
  · split at read
    · cases read
      simp
    · exact scanLoop_yields yields _ read
end

theorem wellFormedItems_iff (items : List (Value F)) :
    WellFormedItems items ↔ ∀ v ∈ items, v.WellFormed := by
  induction items with
  | nil => simp [WellFormedItems]
  | cons v rest ih => simp only [WellFormedItems, ih, List.mem_cons, forall_eq_or_imp]

theorem wellFormedMembers_iff (members : List (Units × Value F)) :
    WellFormedMembers members ↔ ∀ m ∈ members, m.2.WellFormed := by
  induction members with
  | nil => simp [WellFormedMembers]
  | cons m rest ih => simp only [WellFormedMembers, ih, List.mem_cons, forall_eq_or_imp]

theorem dict_nodup {V : Type} (members : List (Units × V)) :
    ((dict members).map Prod.fst).Nodup := by
  have folded (d : Dict Units V) :
      ((members.foldl (fun d m => Dict.assign m.1 m.2 d) d.entries).map Prod.fst).Nodup := by
    induction members generalizing d with
    | nil => exact d.nodup
    | cons m rest ih => exact ih (d.insert m.1 m.2)
  exact folded ⟨[], List.nodup_nil⟩

theorem mem_of_mem_foldl_assign {V : Type} {members : List (Units × V)} {m : Units × V}
    (d : Dict Units V) (held : m ∈ members.foldl (fun d m => Dict.assign m.1 m.2 d) d.entries) :
    m ∈ d.entries ∨ m ∈ members := by
  induction members generalizing d with
  | nil => exact .inl held
  | cons m' rest ih =>
    rcases ih (d.insert m'.1 m'.2) held with before | after
    · rcases Dict.mem_insert before with earlier | rfl
      · exact .inl earlier
      · exact .inr (List.mem_cons_self)
    · exact .inr (List.mem_cons_of_mem _ after)

theorem mem_of_mem_dict {V : Type} {members : List (Units × V)} {m : Units × V}
    (held : m ∈ dict members) : m ∈ members := by
  rcases mem_of_mem_foldl_assign ⟨[], List.nodup_nil⟩ held with none | member
  · cases none
  · exact member

theorem scanScalar_yields : Yields Value.WellFormed (scanScalar floats limits) := by
  intro t v r read
  rw [scanScalar] at read
  split at read
  · next found =>
    cases read
    obtain ⟨word, member, -⟩ := scanConstant_eq_some_iff.mp found
    simp only [constants, List.mem_cons, List.not_mem_nil, or_false, Prod.mk.injEq] at member
    rcases member with ⟨-, rfl⟩ | ⟨-, rfl⟩ | ⟨-, rfl⟩ | ⟨-, rfl⟩ | ⟨-, rfl⟩ | ⟨-, rfl⟩ <;> trivial
  · unfold scanNumber valueOfLiteral at read
    split at read
    · cases read
    · split at read
      · cases read
        trivial
      · split at read <;> cases read
        trivial

theorem scanWith_yields {array : Scan (List (Value F))} {object : Scan (List (Units × Value F))}
    (arrays : Yields (fun items => ∀ v ∈ items, v.WellFormed) array)
    (objects : Yields (fun members => ∀ m ∈ members, m.2.WellFormed) object) :
    Yields Value.WellFormed (scanWith floats limits array object) := by
  intro t v r read
  cases t with
  | nil => cases read
  | cons c t =>
    rw [scanWith] at read
    split at read
    · obtain ⟨s, -, rfl⟩ := mapFirst_eq_ok_iff.mp read
      trivial
    split at read
    · obtain ⟨members, found, rfl⟩ := mapFirst_eq_ok_iff.mp read
      refine ⟨dict_nodup members, (wellFormedMembers_iff _).mpr fun m held => ?_⟩
      exact objects found m (mem_of_mem_dict held)
    split at read
    · obtain ⟨items, found, rfl⟩ := mapFirst_eq_ok_iff.mp read
      exact (wellFormedItems_iff items).mpr (arrays found)
    · exact scanScalar_yields read

theorem scanOnce_yields (depth : Nat) :
    Yields Value.WellFormed (scanOnce floats limits depth) := by
  induction depth with
  | zero =>
    apply scanWith_yields
    · rintro t v r ⟨⟩
    · rintro t v r ⟨⟩
  | succ depth ih =>
    apply scanWith_yields
    · exact scanSequence_yields ih
    · apply scanSequence_yields
      rintro t ⟨key, v⟩ r read
      obtain ⟨_, _, _, rfl, _, _, found⟩ := scanMember_eq_ok read
      exact ih found

theorem loads_wellFormed {t : List Char} {v : Value F} (read : loads floats limits t = .ok v) :
    v.WellFormed := by
  rw [loads] at read
  split at read
  · cases read
  · next w r found =>
    have formed : w.WellFormed := scanOnce_yields limits.depth found
    split at read
    · obtain rfl := Except.ok.inj read
      exact formed
    · cases read
end
end JsonText
