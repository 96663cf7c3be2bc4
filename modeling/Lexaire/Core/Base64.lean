import Mathlib.Data.List.Basic

/-! Base64 as Python's base64 and binascii modules have it. The decoder is not strict: it
passes over every character that is not of the alphabet. -/
namespace Base64

def letter (n : Nat) : Char :=
  if n < 26 then Char.ofNat (n + 65)
  else if n < 52 then Char.ofNat (n + 71)
  else if n < 62 then Char.ofNat (n - 4)
  else if n = 62 then '+'
  else '/'

def value? (c : Char) : Option Nat :=
  if 'A' ≤ c ∧ c ≤ 'Z' then some (c.toNat - 65)
  else if 'a' ≤ c ∧ c ≤ 'z' then some (c.toNat - 71)
  else if c.isDigit then some (c.toNat + 4)
  else if c = '+' then some 62
  else if c = '/' then some 63
  else none

def encode : List UInt8 → List Char
  | [] => []
  | [a] => [letter (a.toNat / 4), letter (a.toNat % 4 * 16), '=', '=']
  | [a, b] =>
    [letter (a.toNat / 4), letter (a.toNat % 4 * 16 + b.toNat / 16), letter (b.toNat % 16 * 4), '=']
  | a :: b :: c :: rest =>
    letter (a.toNat / 4) :: letter (a.toNat % 4 * 16 + b.toNat / 16) ::
      letter (b.toNat % 16 * 4 + c.toNat / 64) :: letter (c.toNat % 64) :: encode rest

/-- `quad_pos`, with the bits that are left of the character before. -/
inductive Quad where
  | start
  | second (left : Nat)
  | third (left : Nat)
  | fourth (left : Nat)

/-- The byte that a character of the alphabet completes, and the place after it. -/
def Quad.advance (v : Nat) : Quad → List UInt8 × Quad
  | .start => ([], .second v)
  | .second left => ([UInt8.ofNat (left * 4 + v / 16)], .third (v % 16))
  | .third left => ([UInt8.ofNat (left * 16 + v / 4)], .fourth (v % 4))
  | .fourth left => ([UInt8.ofNat (left * 64 + v)], .start)

/-- A `=` counts after two characters; the one that completes the four ends the data. -/
inductive Padding where
  | ignored
  | counted
  | ends

def Quad.padding (pads : Nat) : Quad → Padding
  | .start | .second _ => .ignored
  | .third _ => if pads = 0 then .counted else .ends
  | .fourth _ => .ends

/-- `binascii.a2b_base64`; `none` is its error. -/
def decodeFrom (quad : Quad) (pads : Nat) : List Char → Option (List UInt8)
  | [] =>
    match quad with
    | .start => some []
    | _ => none
  | c :: rest =>
    if c = '=' then
      match quad.padding pads with
      | .ignored => decodeFrom quad pads rest
      | .counted => decodeFrom quad (pads + 1) rest
      | .ends => some []
    else
      match value? c with
      | none => decodeFrom quad pads rest
      | some v => (decodeFrom (quad.advance v).2 0 rest).map ((quad.advance v).1 ++ ·)

/-- `base64.b64decode` of a text; both errors are a ValueError. -/
def decode (t : List Char) : Option (List UInt8) :=
  if t.all (·.toNat < 128) then decodeFrom .start 0 t else none

def isLetter (c : Char) : Bool := (value? c).isSome

/-- Four characters of the alphabet at a time, the last of them padded. -/
def isGrouped : List Char → Bool
  | [] => true
  | [a, b, '=', '='] => isLetter a && isLetter b
  | [a, b, c, '='] => isLetter a && isLetter b && isLetter c
  | a :: b :: c :: d :: rest => isLetter a && isLetter b && isLetter c && isLetter d && isGrouped rest
  | _ => false

theorem value?_letter : ∀ n < 64, value? (letter n) = some n := by decide

theorem letter_ne_pad : ∀ n < 64, letter n ≠ '=' := by decide

theorem letter_ascii : ∀ n < 64, (letter n).toNat < 128 := by decide

theorem decodeFrom_letter {quad : Quad} {pads n : Nat} (small : n < 64) (rest : List Char) :
    decodeFrom quad pads (letter n :: rest) =
      (decodeFrom (quad.advance n).2 0 rest).map ((quad.advance n).1 ++ ·) := by
  rw [decodeFrom, if_neg (letter_ne_pad n small), value?_letter n small]

theorem decodeFrom_two_pads (left : Nat) : decodeFrom (.third left) 0 ['=', '='] = some [] := rfl

theorem decodeFrom_one_pad (left : Nat) : decodeFrom (.fourth left) 0 ['='] = some [] := rfl

theorem decodeFrom_encode (bytes : List UInt8) : decodeFrom .start 0 (encode bytes) = some bytes := by
  induction bytes using encode.induct with
  | case1 => rfl
  | case2 a =>
    have := a.toNat_lt
    have first : a.toNat / 4 * 4 + a.toNat % 4 * 16 / 16 = a.toNat := by omega
    rw [encode, decodeFrom_letter (by omega), decodeFrom_letter (by omega)]
    simp only [Quad.advance, decodeFrom_two_pads, first, UInt8.ofNat_toNat, Option.map_some,
      List.nil_append, List.cons_append]
  | case3 a b =>
    have := a.toNat_lt
    have := b.toNat_lt
    have first : a.toNat / 4 * 4 + (a.toNat % 4 * 16 + b.toNat / 16) / 16 = a.toNat := by omega
    have second : (a.toNat % 4 * 16 + b.toNat / 16) % 16 * 16 + b.toNat % 16 * 4 / 4 = b.toNat := by
      omega
    rw [encode, decodeFrom_letter (by omega), decodeFrom_letter (by omega),
      decodeFrom_letter (by omega)]
    simp only [Quad.advance, decodeFrom_one_pad, first, second, UInt8.ofNat_toNat, Option.map_some,
      List.nil_append, List.cons_append]
  | case4 a b c rest ih =>
    have := a.toNat_lt
    have := b.toNat_lt
    have := c.toNat_lt
    have first : a.toNat / 4 * 4 + (a.toNat % 4 * 16 + b.toNat / 16) / 16 = a.toNat := by omega
    have second : (a.toNat % 4 * 16 + b.toNat / 16) % 16 * 16 +
        (b.toNat % 16 * 4 + c.toNat / 64) / 4 = b.toNat := by omega
    have third : (b.toNat % 16 * 4 + c.toNat / 64) % 4 * 64 + c.toNat % 64 = c.toNat := by omega
    rw [encode, decodeFrom_letter (by omega), decodeFrom_letter (by omega),
      decodeFrom_letter (by omega), decodeFrom_letter (by omega)]
    simp only [Quad.advance, ih, first, second, third, UInt8.ofNat_toNat, Option.map_some,
      List.nil_append, List.cons_append]

theorem encode_ascii (bytes : List UInt8) : ∀ c ∈ encode bytes, c.toNat < 128 := by
  induction bytes using encode.induct with
  | case1 =>
    intro c member
    cases member
  | case2 a =>
    have := a.toNat_lt
    simp only [encode, List.forall_mem_cons]
    refine ⟨letter_ascii _ (by omega), letter_ascii _ (by omega), by decide, by decide, ?_⟩
    simp
  | case3 a b =>
    have := a.toNat_lt
    have := b.toNat_lt
    simp only [encode, List.forall_mem_cons]
    refine ⟨letter_ascii _ (by omega), letter_ascii _ (by omega), letter_ascii _ (by omega),
      by decide, ?_⟩
    simp
  | case4 a b c rest ih =>
    have := a.toNat_lt
    have := b.toNat_lt
    have := c.toNat_lt
    simp only [encode, List.forall_mem_cons]
    exact ⟨letter_ascii _ (by omega), letter_ascii _ (by omega), letter_ascii _ (by omega),
      letter_ascii _ (by omega), ih⟩

theorem isLetter_letter {n : Nat} (small : n < 64) : isLetter (letter n) = true := by
  rw [isLetter, value?_letter n small]
  rfl

theorem isGrouped_encode (bytes : List UInt8) : isGrouped (encode bytes) = true := by
  induction bytes using encode.induct with
  | case1 => rfl
  | case2 a =>
    have := a.toNat_lt
    rw [encode, isGrouped, isLetter_letter (by omega), isLetter_letter (by omega)]
    rfl
  | case3 a b =>
    have := a.toNat_lt
    have := b.toNat_lt
    rw [encode, isGrouped, isLetter_letter (by omega), isLetter_letter (by omega),
      isLetter_letter (by omega)]
    · rfl
    · exact fun pad => absurd pad (letter_ne_pad _ (by omega))
  | case4 a b c rest ih =>
    have := a.toNat_lt
    have := b.toNat_lt
    have := c.toNat_lt
    rw [encode, isGrouped, isLetter_letter (by omega), isLetter_letter (by omega),
      isLetter_letter (by omega), isLetter_letter (by omega), ih]
    · rfl
    · exact fun pad => absurd pad (letter_ne_pad _ (by omega))
    · exact fun pad => absurd pad (letter_ne_pad _ (by omega))

/-- `b64decode` inverts `b64encode`. -/
theorem decode_encode (bytes : List UInt8) : decode (encode bytes) = some bytes := by
  have ascii : (encode bytes).all (·.toNat < 128) = true := by
    simpa using encode_ascii bytes
  rw [decode, if_pos ascii, decodeFrom_encode]

end Base64
