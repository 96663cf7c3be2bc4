import Lexaire.Core.JsonText

/-! A reader that has come to the end of what it reads does the same in a longer text.
Only a number can go on. -/
namespace JsonText

/-- No number goes on here. -/
def Delimited (t : List Char) : Prop := ∀ c r, t = c :: r → isNumberChar c = false

/-- The reader knows where its value ends, except for a number. -/
def Extends {α : Type} (scan : Scan α) : Prop :=
  ∀ {p v r}, scan p = .ok (v, r) → ∀ q, Delimited (r ++ q) → scan (p ++ q) = .ok (v, r ++ q)

/-- The reader knows where its value ends. -/
def Closed {α : Type} (scan : Scan α) : Prop :=
  ∀ {p v r}, scan p = .ok (v, r) → ∀ q, scan (p ++ q) = .ok (v, r ++ q)

/-- Too deep a text stays so. -/
def Deep {α : Type} (scan : Scan α) : Prop :=
  ∀ {p}, scan p = .error .recursionError → ∀ q, scan (p ++ q) = .error .recursionError

theorem delimited_cons {c : Char} {r : List Char} (stops : isNumberChar c = false) :
    Delimited (c :: r) := by
  rintro d t ⟨⟩
  exact stops

theorem Closed.extends {α : Type} {scan : Scan α} (closed : Closed scan) : Extends scan :=
  fun read q _ => closed read q

section
variable {α β : Type} {f : α → β} {scanned : Except Raised (α × List Char)}

theorem mapFirst_eq_ok_iff {b : β} {r : List Char} :
    mapFirst f scanned = .ok (b, r) ↔ ∃ a, scanned = .ok (a, r) ∧ f a = b := by
  rcases scanned with e | ⟨a, r'⟩
  · simp [mapFirst]
  · simp only [mapFirst, Except.ok.injEq, Prod.mk.injEq]
    constructor
    · rintro ⟨rfl, rfl⟩
      exact ⟨a, ⟨rfl, rfl⟩, rfl⟩
    · rintro ⟨a, ⟨rfl, rfl⟩, rfl⟩
      exact ⟨rfl, rfl⟩

theorem mapFirst_eq_error_iff {e : Raised} : mapFirst f scanned = .error e ↔ scanned = .error e := by
  rcases scanned with e | ⟨a, r'⟩ <;> simp [mapFirst]

theorem Closed.mapFirst {scan : Scan α} (closed : Closed scan) :
    Closed fun t => mapFirst f (scan t) := by
  intro p b r read q
  obtain ⟨a, first, rfl⟩ := mapFirst_eq_ok_iff.mp read
  exact mapFirst_eq_ok_iff.mpr ⟨a, closed first q, rfl⟩

theorem Deep.mapFirst {scan : Scan α} (deep : Deep scan) : Deep fun t => mapFirst f (scan t) := by
  intro p raised q
  exact mapFirst_eq_error_iff.mpr (deep (mapFirst_eq_error_iff.mp raised) q)
end

/-! ## Spaces -/

theorem skipSpace_append {t q : List Char} (more : skipSpace t ≠ []) :
    skipSpace (t ++ q) = skipSpace t ++ q := by
  induction t with
  | nil => exact absurd rfl more
  | cons c t ih =>
    by_cases space : isSpace c = true
    · simp only [skipSpace, List.dropWhile_cons, space, if_true, List.cons_append] at more ⊢
      exact ih more
    · simp [skipSpace, space]

theorem skipSpace_cons {t r q : List Char} {c : Char} (skipped : skipSpace t = c :: r) :
    skipSpace (t ++ q) = c :: (r ++ q) := by
  rw [skipSpace_append (by rw [skipped]; exact List.cons_ne_nil c r), skipped, List.cons_append]

theorem isNumberChar_of_isSpace {c : Char} (space : isSpace c = true) : isNumberChar c = false := by
  simp only [isSpace, Bool.or_eq_true, decide_eq_true_eq] at space
  rcases space with ((rfl | rfl) | rfl) | rfl <;> decide

/-- A value that is followed by a delimiter, spaces apart, is delimited. -/
theorem delimited_of_skipSpace {t r q : List Char} {c : Char} (skipped : skipSpace t = c :: r)
    (stops : isNumberChar c = false) : Delimited (t ++ q) := by
  cases t with
  | nil => cases skipped
  | cons d t =>
    apply delimited_cons
    by_cases space : isSpace d = true
    · exact isNumberChar_of_isSpace space
    · simp only [skipSpace, List.dropWhile_cons, space] at skipped
      cases skipped
      exact stops

/-! ## Strings -/

section
variable {rest : List Char}

theorem scanString_hex {a b c d : Char} {u : UInt16} (unit : unitOfHex? a b c d = some u) :
    scanString ('\\' :: 'u' :: a :: b :: c :: d :: rest) = mapFirst (u :: ·) (scanString rest) := by
  rw [scanString, unit]

theorem scanString_short {e : Char} {u : UInt16} (unit : shortEscapes.lookup e = some u) :
    scanString ('\\' :: e :: rest) = mapFirst (u :: ·) (scanString rest) := by
  rw [scanString, unit]
  rintro a b c d t rfl
  cases unit

theorem scanString_plain {c : Char} (quote : c ≠ '"') (backslash : c ≠ '\\')
    (plain : ¬ c.toNat < 32) :
    scanString (c :: rest) = mapFirst (unitsOf c ++ ·) (scanString rest) := by
  rw [scanString, if_neg plain]
  · exact quote
  · intro a b c d t same
    exact absurd same backslash
  · intro e t same
    exact absurd same backslash
  · intro same
    exact absurd same backslash
end

theorem scanString_closed : Closed scanString := by
  intro p s r read q
  induction p using scanString.induct generalizing s with
  | case1 => cases read
  | case2 rest =>
    simp only [scanString, Except.ok.injEq, Prod.mk.injEq] at read
    obtain ⟨rfl, rfl⟩ := read
    rfl
  | case3 a b c d rest u unit ih =>
    rw [scanString_hex unit] at read
    obtain ⟨s, first, rfl⟩ := mapFirst_eq_ok_iff.mp read
    simp only [List.cons_append]
    rw [scanString_hex unit]
    exact mapFirst_eq_ok_iff.mpr ⟨s, ih first, rfl⟩
  | case4 a b c d rest bad => simp [scanString, bad] at read
  | case5 e rest _ u unit ih =>
    rw [scanString_short unit] at read
    obtain ⟨s, first, rfl⟩ := mapFirst_eq_ok_iff.mp read
    simp only [List.cons_append]
    rw [scanString_short unit]
    exact mapFirst_eq_ok_iff.mpr ⟨s, ih first, rfl⟩
  | case6 e rest other bad =>
    rw [scanString, bad] at read
    · cases read
    · exact other
  | case7 => cases read
  | case8 c rest quote hex short last control =>
    rw [scanString, if_pos control] at read
    · cases read
    · exact quote
    · exact hex
    · exact short
    · exact last
  | case9 c rest quote hex short last plain ih =>
    have backslash : c ≠ '\\' := by
      intro same
      cases rest with
      | nil => exact last same rfl
      | cons e t => exact short e t same rfl
    rw [scanString_plain quote backslash plain] at read
    obtain ⟨s, first, rfl⟩ := mapFirst_eq_ok_iff.mp read
    rw [List.cons_append, scanString_plain quote backslash plain]
    exact mapFirst_eq_ok_iff.mpr ⟨s, ih first, rfl⟩

theorem scanString_never_deep (t : List Char) : scanString t ≠ .error .recursionError := by
  induction t using scanString.induct with
  | case1 => simp [scanString]
  | case2 rest => simp [scanString]
  | case3 a b c d rest u unit ih =>
    rw [scanString_hex unit, ne_eq, mapFirst_eq_error_iff]
    exact ih
  | case4 a b c d rest bad => simp [scanString, bad]
  | case5 e rest _ u unit ih =>
    rw [scanString_short unit, ne_eq, mapFirst_eq_error_iff]
    exact ih
  | case6 e rest other bad =>
    rw [scanString, bad]
    · simp
    · exact other
  | case7 => simp [scanString]
  | case8 c rest quote hex short last control =>
    rw [scanString, if_pos control]
    · simp
    · exact quote
    · exact hex
    · exact short
    · exact last
  | case9 c rest quote hex short last plain ih =>
    rw [scanString, if_neg plain, ne_eq, mapFirst_eq_error_iff]
    · exact ih
    · exact quote
    · exact hex
    · exact short
    · exact last

/-! ## Numbers -/

section
variable {t q : List Char}

/-- The digits end where they ended. -/
theorem digits_append (ends : t.dropWhile Char.isDigit = [] → Delimited q) :
    (t ++ q).takeWhile Char.isDigit = t.takeWhile Char.isDigit ∧
      (t ++ q).dropWhile Char.isDigit = t.dropWhile Char.isDigit ++ q := by
  induction t with
  | nil =>
    cases q with
    | nil => exact ⟨rfl, rfl⟩
    | cons c q =>
      have stops := ends rfl c q rfl
      have other : c.isDigit = false := by
        simp only [isNumberChar, Bool.or_eq_false_iff] at stops
        exact stops.1.1.1.1.1
      simp [other]
  | cons c t ih =>
    cases digit : c.isDigit with
    | true =>
      simp only [List.dropWhile_cons, digit, if_true] at ends
      obtain ⟨taken, dropped⟩ := ih ends
      simp [digit, taken, dropped]
    | false => simp [digit]
theorem scanDigits_append {start : List Char} (ends : t.dropWhile Char.isDigit = [] → Delimited q) :
    scanDigits start (t ++ q) = ((scanDigits start t).1, (scanDigits start t).2 ++ q) := by
  obtain ⟨taken, dropped⟩ := digits_append ends
  by_cases none : t.takeWhile Char.isDigit = []
  · simp [scanDigits, taken, none]
  · simp [scanDigits, taken, dropped, none]

/-- Where no number goes on after the digits, there were some, or nothing was read. -/
theorem scanDigits_ends {c : Char} {start : List Char} (starts : isNumberChar c = true)
    (ends : Delimited ((scanDigits (c :: start) t).2 ++ q)) :
    t.dropWhile Char.isDigit = [] → Delimited q := by
  intro all
  by_cases none : t.takeWhile Char.isDigit = []
  · simp only [scanDigits, none, if_true, List.cons_append] at ends
    have stops := ends c _ rfl
    rw [starts] at stops
    cases stops
  · simpa only [scanDigits, none, if_false, all, List.nil_append] using ends

theorem scanExponent_append (ends : Delimited ((scanExponent t).2 ++ q)) :
    scanExponent (t ++ q) = ((scanExponent t).1, (scanExponent t).2 ++ q) := by
  cases t with
  | nil =>
    cases q with
    | nil => rfl
    | cons c q =>
      have stops := ends c q rfl
      have other : ¬ (c = 'e' ∨ c = 'E') := by
        rintro (rfl | rfl) <;> cases stops
      simp [scanExponent, other]
  | cons e t =>
    by_cases starts : e = 'e' ∨ e = 'E'
    · have number : isNumberChar e = true := by
        rcases starts with rfl | rfl <;> rfl
      simp only [scanExponent, if_pos starts, List.cons_append] at ends ⊢
      split at ends
      · exact scanDigits_append (scanDigits_ends number ends)
      · exact scanDigits_append (scanDigits_ends number ends)
      · next plus minus =>
        have going := scanDigits_ends number ends
        cases t with
        | nil =>
          have stops := ends e q (by simp [scanDigits])
          rw [number] at stops
          cases stops
        | cons d t =>
          simp only [List.cons_append]
          split
          · next same => exact absurd (congrArg (· :: t) (List.cons.inj same).1) (plus t)
          · next same => exact absurd (congrArg (· :: t) (List.cons.inj same).1) (minus t)
          · exact scanDigits_append going
    · simp [scanExponent, starts]

theorem scanExponent_nil : scanExponent [] = ([], []) := rfl

theorem scanFraction_append (ends : Delimited ((scanExponent (scanFraction t).2).2 ++ q)) :
    scanFraction (t ++ q) = ((scanFraction t).1, (scanFraction t).2 ++ q) := by
  cases t with
  | nil =>
    cases q with
    | nil => rfl
    | cons c q =>
      have stops := ends c q rfl
      have other : c ≠ '.' := by
        rintro rfl
        cases stops
      simp [scanFraction, other]
  | cons c t =>
    by_cases point : c = '.'
    · subst point
      have going : t.dropWhile Char.isDigit = [] → Delimited q := by
        intro all
        by_cases none : t.takeWhile Char.isDigit = []
        · simp only [scanFraction, scanDigits, none, if_true, List.cons_append, List.nil_append,
            scanExponent] at ends
          exact absurd (ends '.' _ rfl) (by decide)
        · simpa only [scanFraction, scanDigits, none, if_false, all, scanExponent_nil,
            List.nil_append] using ends
      exact scanDigits_append going
    · simp [scanFraction, point]

theorem scanInteger_append {read r : List Char} (scanned : scanInteger t = some (read, r))
    (ends : r = [] → Delimited q) : scanInteger (t ++ q) = some (read, r ++ q) := by
  cases t with
  | nil => cases scanned
  | cons c t =>
    simp only [scanInteger, List.cons_append] at scanned ⊢
    by_cases zero : c = '0'
    · simp only [zero, if_true, Option.some.injEq, Prod.mk.injEq] at scanned ⊢
      obtain ⟨rfl, rfl⟩ := scanned
      exact ⟨rfl, rfl⟩
    · simp only [if_neg zero] at scanned ⊢
      by_cases digit : c.isDigit = true
      · simp only [if_pos digit, Option.some.injEq, Prod.mk.injEq] at scanned ⊢
        obtain ⟨rfl, rfl⟩ := scanned
        obtain ⟨taken, dropped⟩ := digits_append ends
        exact ⟨by rw [taken], dropped⟩
      · simp [digit] at scanned

theorem scanSign_append (some : t ≠ []) :
    scanSign (t ++ q) = ((scanSign t).1, (scanSign t).2 ++ q) := by
  cases t with
  | nil => exact absurd rfl some
  | cons c t => by_cases minus : c = '-' <;> simp [scanSign, minus]

theorem scanLiteral_append {l : Literal} {r : List Char} (scanned : scanLiteral t = some (l, r))
    (ends : Delimited (r ++ q)) : scanLiteral (t ++ q) = some (l, r ++ q) := by
  have nonempty : t ≠ [] := by
    rintro rfl
    cases scanned
  simp only [scanLiteral, scanSign_append nonempty] at scanned ⊢
  cases integer : scanInteger (scanSign t).2 with
  | none => simp [integer] at scanned
  | some read =>
    obtain ⟨read, after⟩ := read
    simp only [integer, Option.some.injEq, Prod.mk.injEq] at scanned
    obtain ⟨rfl, rfl⟩ := scanned
    have whole : after = [] → Delimited q := by
      rintro rfl
      exact ends
    rw [scanInteger_append integer whole]
    simp only [scanFraction_append ends, scanExponent_append ends]

theorem scanInteger_starts {read r : List Char} (scanned : scanInteger t = some (read, r)) :
    ∃ c t', t = c :: t' ∧ c.isDigit = true := by
  cases t with
  | nil => cases scanned
  | cons c t =>
    refine ⟨c, t, rfl, ?_⟩
    by_cases zero : c = '0'
    · subst zero
      rfl
    · by_contra other
      simp [scanInteger, zero, other] at scanned

/-- A literal begins with a digit, its sign apart. -/
theorem scanLiteral_starts {l : Literal} {r : List Char} (scanned : scanLiteral t = some (l, r)) :
    ∃ sign c t', t = sign ++ c :: t' ∧ c.isDigit = true ∧ (sign = [] ∨ sign = ['-']) := by
  simp only [scanLiteral] at scanned
  cases integer : scanInteger (scanSign t).2 with
  | none => simp [integer] at scanned
  | some read =>
    obtain ⟨c, t', starts, digit⟩ := scanInteger_starts integer
    cases t with
    | nil => cases starts
    | cons d t =>
      by_cases minus : d = '-'
      · subst minus
        exact ⟨['-'], c, t', congrArg ('-' :: ·) starts, digit, .inr rfl⟩
      · have unsigned : scanSign (d :: t) = ([], d :: t) := by simp [scanSign, minus]
        rw [unsigned] at starts
        exact ⟨[], c, t', starts, digit, .inl rfl⟩

end

/-! ## Scalars -/

section
variable {F : Type} {floats : FloatText F} {limits : Limits} {t q r : List Char} {v : Value F}

theorem scanConstant_eq_some_iff :
    scanConstant floats t = some (v, r) ↔ ∃ word, (word, v) ∈ constants floats ∧ t = word ++ r := by
  constructor
  · intro found
    obtain ⟨⟨word, v'⟩, member, here⟩ := List.exists_of_findSome?_eq_some found
    by_cases begins : word.isPrefixOf t = true
    · simp only [begins, if_true, Option.some.injEq, Prod.mk.injEq] at here
      obtain ⟨rfl, rfl⟩ := here
      exact ⟨word, member, (List.prefix_iff_eq_append.mp (List.isPrefixOf_iff_prefix.mp begins)).symm⟩
    · simp [begins] at here
  · rintro ⟨word, member, rfl⟩
    simp only [constants, List.mem_cons, List.not_mem_nil, or_false, Prod.mk.injEq] at member
    rcases member with ⟨rfl, rfl⟩ | ⟨rfl, rfl⟩ | ⟨rfl, rfl⟩ | ⟨rfl, rfl⟩ | ⟨rfl, rfl⟩ | ⟨rfl, rfl⟩ <;> rfl

/-- No constant begins as a number does. -/
theorem scanConstant_of_literal {l : Literal} {r' : List Char}
    (scanned : scanLiteral t = some (l, r')) : scanConstant floats t = none := by
  cases found : scanConstant floats t with
  | none => rfl
  | some read =>
    exfalso
    obtain ⟨sign, c, t', rfl, digit, signed⟩ := scanLiteral_starts scanned
    obtain ⟨word, member, same⟩ := scanConstant_eq_some_iff.mp found
    simp only [constants, List.mem_cons, List.not_mem_nil, or_false, Prod.mk.injEq] at member
    rcases signed with rfl | rfl <;>
      rcases member with ⟨rfl, -⟩ | ⟨rfl, -⟩ | ⟨rfl, -⟩ | ⟨rfl, -⟩ | ⟨rfl, -⟩ | ⟨rfl, -⟩ <;>
      simp at same <;> obtain ⟨rfl, -⟩ := same <;> cases digit

theorem scanScalar_extends : Extends (scanScalar floats limits) := by
  intro p v r read q ends
  cases found : scanConstant floats p with
  | some scanned =>
    simp only [scanScalar, found, Except.ok.injEq] at read
    subst read
    obtain ⟨word, member, rfl⟩ := scanConstant_eq_some_iff.mp found
    have longer : scanConstant floats (word ++ r ++ q) = some (v, r ++ q) :=
      scanConstant_eq_some_iff.mpr ⟨word, member, List.append_assoc word r q⟩
    rw [scanScalar, longer]
  | none =>
    simp only [scanScalar, found, scanNumber] at read
    cases literal : scanLiteral p with
    | none => simp [literal] at read
    | some scanned =>
      obtain ⟨l, rest⟩ := scanned
      simp only [literal] at read
      cases value : valueOfLiteral floats limits l with
      | error e => simp [value, Except.map] at read
      | ok v' =>
        simp only [value, Except.map, Except.ok.injEq, Prod.mk.injEq] at read
        obtain ⟨rfl, rfl⟩ := read
        have longer := scanLiteral_append literal ends
        simp [scanScalar, scanConstant_of_literal longer, scanNumber, longer, value, Except.map]

theorem scanScalar_never_deep : scanScalar floats limits t ≠ .error .recursionError := by
  intro raised
  unfold scanScalar scanNumber valueOfLiteral at raised
  split at raised
  · cases raised
  · split at raised
    · cases raised
    · split at raised
      · cases raised
      · split at raised <;> cases raised
end

/-! ## Containers -/

section
variable {α : Type} {close : Char} {one : Scan α}

/-- What a loop that has ended did: one more item, and the end or the rest of the loop. -/
theorem scanLoop_eq_ok {n : Nat} {t r : List Char} {items : List α}
    (read : scanLoop close one (n + 1) t = .ok (items, r)) :
    ∃ a c after rest, one t = .ok (a, after) ∧ skipSpace after = c :: rest ∧
      (c = close ∧ items = [a] ∧ r = rest ∨
        c ≠ close ∧ c = ',' ∧ ∃ others, items = a :: others ∧
          scanLoop close one n (skipSpace rest) = .ok (others, r)) := by
  rw [scanLoop] at read
  split at read
  · cases read
  · next a after first =>
    split at read
    · cases read
    · next c rest skipped =>
      refine ⟨a, c, after, rest, first, skipped, ?_⟩
      split at read
      · next ends =>
        cases read
        exact .inl ⟨ends, rfl, rfl⟩
      · next goes =>
        split at read
        · next comma =>
          obtain ⟨others, later, rfl⟩ := mapFirst_eq_ok_iff.mp read
          exact .inr ⟨goes, comma, others, rfl, later⟩
        · cases read

theorem scanLoop_nonempty (nothing : one [] = .error .decodeError) {n : Nat} {t r : List Char}
    {items : List α} (read : scanLoop close one n t = .ok (items, r)) : t ≠ [] := by
  rintro rfl
  cases n with
  | zero => cases read
  | succ n => simp [scanLoop, nothing] at read

variable (extended : Extends one) (nothing : one [] = .error .decodeError)
include extended nothing

theorem scanLoop_append (closes : isNumberChar close = false) {n m : Nat} (fuel : n ≤ m)
    {t r q : List Char} {items : List α}
    (read : scanLoop close one n t = .ok (items, r)) :
    scanLoop close one m (t ++ q) = .ok (items, r ++ q) := by
  induction n generalizing m t items with
  | zero => cases read
  | succ n ih =>
    obtain ⟨m, rfl⟩ : ∃ k, m = k + 1 := ⟨m - 1, by omega⟩
    obtain ⟨a, c, after, rest, first, skipped, last | ⟨goes, rfl, others, rfl, later⟩⟩ :=
      scanLoop_eq_ok read
    · obtain ⟨rfl, rfl, rfl⟩ := last
      have first' := extended first q (delimited_of_skipSpace skipped closes)
      simp [scanLoop, first', skipSpace_cons skipped]
    · have first' := extended first q (delimited_of_skipSpace skipped rfl)
      have nonempty := scanLoop_nonempty nothing later
      rw [scanLoop, first']
      simp only [skipSpace_cons skipped, if_neg goes, if_true, skipSpace_append nonempty,
        ih (Nat.le_of_succ_le_succ fuel) later, mapFirst]

theorem scanLoop_deep (deep : Deep one) {n m : Nat} (fuel : n ≤ m) {t : List Char}
    (raised : scanLoop close one n t = .error .recursionError) (q : List Char) :
    scanLoop close one m (t ++ q) = .error .recursionError := by
  induction n generalizing m t with
  | zero => cases raised
  | succ n ih =>
    obtain ⟨m, rfl⟩ : ∃ k, m = k + 1 := ⟨m - 1, by omega⟩
    rw [scanLoop] at raised ⊢
    split at raised
    · next e first =>
      cases raised
      rw [deep first q]
    · next a after first =>
      split at raised
      · cases raised
      · next c rest skipped =>
        split at raised
        · cases raised
        · next goes =>
          split at raised
          · next comma =>
            subst comma
            have later := mapFirst_eq_error_iff.mp raised
            have nonempty : skipSpace rest ≠ [] := by
              intro none
              rw [none] at later
              cases n with
              | zero => cases later
              | succ n => simp [scanLoop, nothing] at later
            rw [extended first q (delimited_of_skipSpace skipped rfl)]
            simp only [skipSpace_cons skipped, if_neg goes, if_true, skipSpace_append nonempty]
            exact mapFirst_eq_error_iff.mpr (ih (Nat.le_of_succ_le_succ fuel) later)
          · cases raised

theorem scanSequence_closed (closes : isNumberChar close = false) :
    Closed (scanSequence close one) := by
  intro p items r read q
  rw [scanSequence] at read ⊢
  split at read
  · cases read
  · next c rest skipped =>
    rw [skipSpace_cons skipped]
    by_cases ends : c = close
    · simp only [ends, if_true, Except.ok.injEq, Prod.mk.injEq] at read ⊢
      obtain ⟨rfl, rfl⟩ := read
      exact ⟨rfl, rfl⟩
    · simp only [if_neg ends] at read ⊢
      have longer : (c :: rest).length ≤ (c :: (rest ++ q)).length := by simp
      exact scanLoop_append extended nothing closes longer read

theorem scanSequence_deep (deep : Deep one) : Deep (scanSequence close one) := by
  intro p raised q
  rw [scanSequence] at raised ⊢
  split at raised
  · cases raised
  · next c rest skipped =>
    rw [skipSpace_cons skipped]
    by_cases ends : c = close
    · simp [ends] at raised
    · simp only [if_neg ends] at raised ⊢
      have longer : (c :: rest).length ≤ (c :: (rest ++ q)).length := by simp
      exact scanLoop_deep extended nothing deep longer raised q
end

section
variable {F : Type} {scan : Scan (Value F)}

theorem scanMember_eq_ok {t r : List Char} {key : Units} {v : Value F}
    (read : scanMember scan t = .ok ((key, v), r)) : ∃ inner after rest, t = '"' :: inner ∧
      scanString inner = .ok (key, after) ∧ skipSpace after = ':' :: rest ∧
      scan (skipSpace rest) = .ok (v, r) := by
  unfold scanMember at read
  split at read
  · next inner =>
    split at read
    · cases read
    · next name after named =>
      split at read
      · next rest skipped =>
        obtain ⟨w, found, same⟩ := mapFirst_eq_ok_iff.mp read
        cases same
        exact ⟨inner, after, rest, rfl, named, skipped, found⟩
      · cases read
  · cases read

theorem scanMember_eq_error {t : List Char}
    (raised : scanMember scan t = .error .recursionError) : ∃ inner key after rest,
      t = '"' :: inner ∧ scanString inner = .ok (key, after) ∧ skipSpace after = ':' :: rest ∧
      scan (skipSpace rest) = .error .recursionError := by
  unfold scanMember at raised
  split at raised
  · next inner =>
    split at raised
    · next e bad =>
      cases raised
      exact absurd bad (scanString_never_deep inner)
    · next key after named =>
      split at raised
      · next rest skipped =>
        exact ⟨inner, key, after, rest, rfl, named, skipped, mapFirst_eq_error_iff.mp raised⟩
      · cases raised
  · cases raised

/-- A member whose name has been read is its value. -/
theorem scanMember_named {inner after rest q : List Char} {key : Units}
    (named : scanString inner = .ok (key, after)) (skipped : skipSpace after = ':' :: rest)
    (nonempty : skipSpace rest ≠ []) :
    scanMember scan ('"' :: inner ++ q) = mapFirst (key, ·) (scan (skipSpace rest ++ q)) := by
  simp only [scanMember, List.cons_append, scanString_closed named q, skipSpace_cons skipped,
    skipSpace_append nonempty]

variable (nothing : scan [] = .error .decodeError)
include nothing

theorem scanMember_extends (extended : Extends scan) : Extends (scanMember scan) := by
  rintro p ⟨key, v⟩ r read q ends
  obtain ⟨inner, after, rest, rfl, named, skipped, found⟩ := scanMember_eq_ok read
  have nonempty : skipSpace rest ≠ [] := by
    intro none
    rw [none, nothing] at found
    cases found
  rw [scanMember_named named skipped nonempty, extended found q ends]
  rfl

theorem scanMember_deep (deep : Deep scan) : Deep (scanMember scan) := by
  intro p raised q
  obtain ⟨inner, key, after, rest, rfl, named, skipped, found⟩ := scanMember_eq_error raised
  have nonempty : skipSpace rest ≠ [] := by
    intro none
    rw [none, nothing] at found
    cases found
  rw [scanMember_named named skipped nonempty, deep found q]
  rfl
end

/-! ## Values -/

section
variable {F : Type} {floats : FloatText F} {limits : Limits}

section
variable {array : Scan (List (Value F))} {object : Scan (List (Units × Value F))}

theorem scanWith_extends (arrays : Closed array) (objects : Closed object) :
    Extends (scanWith floats limits array object) := by
  intro p v r read q ends
  cases p with
  | nil => cases read
  | cons c t =>
    simp only [scanWith, List.cons_append] at read ⊢
    split at read
    · next quote =>
      rw [if_pos quote]
      exact scanString_closed.mapFirst read q
    next quote =>
    split at read
    · next brace =>
      rw [if_neg quote, if_pos brace]
      exact objects.mapFirst read q
    next brace =>
    split at read
    · next bracket =>
      rw [if_neg quote, if_neg brace, if_pos bracket]
      exact arrays.mapFirst read q
    next bracket =>
      rw [if_neg quote, if_neg brace, if_neg bracket]
      exact scanScalar_extends read q ends

theorem scanWith_deep (arrays : Deep array) (objects : Deep object) :
    Deep (scanWith floats limits array object) := by
  intro p raised q
  cases p with
  | nil => cases raised
  | cons c t =>
    simp only [scanWith, List.cons_append] at raised ⊢
    split at raised
    · exact absurd (mapFirst_eq_error_iff.mp raised) (scanString_never_deep t)
    next quote =>
    split at raised
    · next brace =>
      rw [if_neg quote, if_pos brace]
      exact objects.mapFirst raised q
    next brace =>
    split at raised
    · next bracket =>
      rw [if_neg quote, if_neg brace, if_pos bracket]
      exact arrays.mapFirst raised q
    next bracket =>
      exact absurd raised scanScalar_never_deep

/-- Of the values, a container is closed. -/
theorem scanWith_object (objects : Closed object) {t r q : List Char} {v : Value F}
    (read : scanWith floats limits array object ('{' :: t) = .ok (v, r)) :
    scanWith floats limits array object ('{' :: t ++ q) = .ok (v, r ++ q) :=
  objects.mapFirst read q
end

theorem scanOnce_nil (depth : Nat) : scanOnce floats limits depth [] = .error .decodeError := by
  cases depth <;> rfl

theorem scanArray_closed {scan : Scan (Value F)} (extended : Extends scan)
    (nothing : scan [] = .error .decodeError) : Closed (scanArray scan) :=
  scanSequence_closed extended nothing rfl

theorem scanObject_closed {scan : Scan (Value F)} (extended : Extends scan)
    (nothing : scan [] = .error .decodeError) : Closed (scanObject scan) :=
  scanSequence_closed (scanMember_extends nothing extended) rfl rfl

theorem scanOnce_extends (depth : Nat) : Extends (scanOnce floats limits depth) := by
  induction depth with
  | zero =>
    apply scanWith_extends
    · rintro p v r ⟨⟩
    · rintro p v r ⟨⟩
  | succ depth ih =>
    apply scanWith_extends
    · exact scanArray_closed ih (scanOnce_nil depth)
    · exact scanObject_closed ih (scanOnce_nil depth)

theorem scanOnce_deep (depth : Nat) : Deep (scanOnce floats limits depth) := by
  induction depth with
  | zero =>
    apply scanWith_deep
    · intro p _ q
      rfl
    · intro p _ q
      rfl
  | succ depth ih =>
    apply scanWith_deep
    · exact scanSequence_deep (scanOnce_extends depth) (scanOnce_nil depth) ih
    · exact scanSequence_deep (scanMember_extends (scanOnce_nil depth) (scanOnce_extends depth)) rfl
        (scanMember_deep (scanOnce_nil depth) ih)

/-- An object that has been read ends with its brace, whatever follows. -/
theorem scanOnce_object {depth : Nat} {t r q : List Char} {v : Value F}
    (read : scanOnce floats limits depth ('{' :: t) = .ok (v, r)) :
    scanOnce floats limits depth ('{' :: t ++ q) = .ok (v, r ++ q) := by
  cases depth with
  | zero => cases read
  | succ depth =>
    exact scanWith_object (scanObject_closed (scanOnce_extends depth) (scanOnce_nil depth)) read
end
end JsonText
