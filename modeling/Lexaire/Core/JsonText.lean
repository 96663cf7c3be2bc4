import Mathlib.Data.List.Basic
import Lexaire.Core.Dict

/-! JSON texts as Python's json module writes and reads them: compact separators and
ASCII only, against every text, with what is left of it. Strings are sequences of UTF-16
units, as their escapes are, so that a lone surrogate is a string too. -/
namespace JsonText

inductive Raised where
  | decodeError
  /-- An integer of too many digits. -/
  | valueError
  | recursionError
  deriving DecidableEq

abbrev Units := List UInt16

inductive Value (F : Type) where
  | null
  | boolean (b : Bool)
  | integer (n : Int)
  | number (x : F)
  | string (s : Units)
  | array (items : List (Value F))
  | object (members : List (Units × Value F))

/-- A reader of a beginning of the text. -/
abbrev Scan (α : Type) := List Char → Except Raised (α × List Char)

def mapFirst {α β : Type} (f : α → β) : Except Raised (α × List Char) → Except Raised (β × List Char)
  | .ok (a, rest) => .ok (f a, rest)
  | .error e => .error e

/-! ## Characters -/

def isSpace (c : Char) : Bool := c = ' ' || c = '\t' || c = '\n' || c = '\r'

def skipSpace (t : List Char) : List Char := t.dropWhile isSpace

/-- The characters that may go on with a number. -/
def isNumberChar (c : Char) : Bool :=
  c.isDigit || c = '.' || c = 'e' || c = 'E' || c = '+' || c = '-'

def unitsOf (c : Char) : Units :=
  if c.toNat < 0x10000 then [UInt16.ofNat c.toNat]
  else [UInt16.ofNat (0xD800 + (c.toNat - 0x10000) / 0x400),
    UInt16.ofNat (0xDC00 + (c.toNat - 0x10000) % 0x400)]

def hexValue? (c : Char) : Option Nat :=
  if c.isDigit then some (c.toNat - '0'.toNat)
  else if 'a' ≤ c ∧ c ≤ 'f' then some (c.toNat - 'a'.toNat + 10)
  else if 'A' ≤ c ∧ c ≤ 'F' then some (c.toNat - 'A'.toNat + 10)
  else none

/-- `\uXXXX`. -/
def unitOfHex? (a b c d : Char) : Option UInt16 := do
  let a ← hexValue? a
  let b ← hexValue? b
  let c ← hexValue? c
  let d ← hexValue? d
  return UInt16.ofNat (((a * 16 + b) * 16 + c) * 16 + d)

def hex4 (n : Nat) : List Char :=
  [(n / 4096).digitChar, (n / 256 % 16).digitChar, (n / 16 % 16).digitChar, (n % 16).digitChar]

/-- The escapes of one character. -/
def shortEscapes : List (Char × UInt16) :=
  [('"', 34), ('\\', 92), ('/', 47), ('b', 8), ('f', 12), ('n', 10), ('r', 13), ('t', 9)]

/-! ## Strings -/

def escape (u : UInt16) : List Char :=
  if u = 34 then ['\\', '"']
  else if u = 92 then ['\\', '\\']
  else if u = 10 then ['\\', 'n']
  else if u = 13 then ['\\', 'r']
  else if u = 9 then ['\\', 't']
  else if u = 12 then ['\\', 'f']
  else if u = 8 then ['\\', 'b']
  else if 32 ≤ u.toNat ∧ u.toNat < 127 then [Char.ofNat u.toNat]
  else '\\' :: 'u' :: hex4 u.toNat

def textString (s : Units) : List Char := '"' :: s.flatMap escape ++ ['"']

/-- After the opening quote. -/
def scanString : Scan Units
  | [] => .error .decodeError
  | '"' :: rest => .ok ([], rest)
  | '\\' :: 'u' :: a :: b :: c :: d :: rest =>
    match unitOfHex? a b c d with
    | some u => mapFirst (u :: ·) (scanString rest)
    | none => .error .decodeError
  | '\\' :: e :: rest =>
    match shortEscapes.lookup e with
    | some u => mapFirst (u :: ·) (scanString rest)
    | none => .error .decodeError
  | ['\\'] => .error .decodeError
  | c :: rest =>
    if c.toNat < 32 then .error .decodeError
    else mapFirst (unitsOf c ++ ·) (scanString rest)

/-! ## Numbers -/

def scanSign : List Char → List Char × List Char
  | '-' :: rest => (['-'], rest)
  | t => ([], t)

def scanInteger : List Char → Option (List Char × List Char)
  | [] => none
  | c :: rest =>
    if c = '0' then some (['0'], rest)
    else if c.isDigit then some (c :: rest.takeWhile Char.isDigit, rest.dropWhile Char.isDigit)
    else none

/-- Digits after what introduces them; nothing is read without any. -/
def scanDigits (start : List Char) (t : List Char) : List Char × List Char :=
  if t.takeWhile Char.isDigit = [] then ([], start ++ t)
  else (start ++ t.takeWhile Char.isDigit, t.dropWhile Char.isDigit)

def scanFraction : List Char → List Char × List Char
  | '.' :: rest => scanDigits ['.'] rest
  | t => ([], t)

def scanExponent : List Char → List Char × List Char
  | [] => ([], [])
  | e :: rest =>
    if e = 'e' ∨ e = 'E' then
      match rest with
      | '+' :: rest => scanDigits [e, '+'] rest
      | '-' :: rest => scanDigits [e, '-'] rest
      | rest => scanDigits [e] rest
    else ([], e :: rest)

structure Literal where
  sign : List Char
  integer : List Char
  fraction : List Char
  exponent : List Char

def scanLiteral (t : List Char) : Option (Literal × List Char) :=
  let (sign, t) := scanSign t
  match scanInteger t with
  | none => none
  | some (integer, t) =>
    let (fraction, t) := scanFraction t
    let (exponent, t) := scanExponent t
    some (⟨sign, integer, fraction, exponent⟩, t)

def Literal.isFloat (l : Literal) : Bool := l.fraction ≠ [] || l.exponent ≠ []

def Literal.text (l : Literal) : List Char := l.sign ++ l.integer ++ l.fraction ++ l.exponent

def Literal.toInt (l : Literal) : Int :=
  if l.sign = [] then Nat.ofDigitChars 10 l.integer 0 else -Nat.ofDigitChars 10 l.integer 0

/-- The text of a float and back. -/
structure FloatText (F : Type) where
  nan : F
  infinity : F
  negInfinity : F
  text : F → List Char
  ofText : List Char → F
  text_cases : ∀ x, text x = "NaN".toList ∧ x = nan ∨ text x = "Infinity".toList ∧ x = infinity ∨
    text x = "-Infinity".toList ∧ x = negInfinity ∨
    ∃ l, scanLiteral (text x) = some (l, []) ∧ l.isFloat = true ∧ ofText l.text = x

/-- How deep containers may be nested, and how many digits an integer may have. -/
structure Limits where
  depth : Nat
  digits : Nat

section
variable {F : Type} (floats : FloatText F) (limits : Limits)

def constants : List (List Char × Value F) :=
  [("null".toList, .null), ("true".toList, .boolean true), ("false".toList, .boolean false),
    ("NaN".toList, .number floats.nan), ("Infinity".toList, .number floats.infinity),
    ("-Infinity".toList, .number floats.negInfinity)]

def scanConstant (t : List Char) : Option (Value F × List Char) :=
  (constants floats).findSome? fun (word, v) =>
    if word.isPrefixOf t then some (v, t.drop word.length) else none

def valueOfLiteral (l : Literal) : Except Raised (Value F) :=
  if l.isFloat then .ok (.number (floats.ofText l.text))
  else if limits.digits < l.integer.length then .error .valueError
  else .ok (.integer l.toInt)

def scanNumber (t : List Char) : Except Raised (Value F × List Char) :=
  match scanLiteral t with
  | none => .error .decodeError
  | some (l, rest) => (valueOfLiteral floats limits l).map fun v => (v, rest)

def scanScalar (t : List Char) : Except Raised (Value F × List Char) :=
  match scanConstant floats t with
  | some scanned => .ok scanned
  | none => scanNumber floats limits t
end

/-! ## Containers -/

/-- One or more, with commas between them, up to `close`. -/
def scanLoop {α : Type} (close : Char) (one : Scan α) : Nat → Scan (List α)
  | 0, _ => .error .decodeError
  | fuel + 1, t =>
    match one t with
    | .error e => .error e
    | .ok (a, rest) =>
      match skipSpace rest with
      | [] => .error .decodeError
      | c :: rest =>
        if c = close then .ok ([a], rest)
        else if c = ',' then mapFirst (a :: ·) (scanLoop close one fuel (skipSpace rest))
        else .error .decodeError

/-- After the opening bracket. No text holds more items than characters. -/
def scanSequence {α : Type} (close : Char) (one : Scan α) : Scan (List α) := fun t =>
  match skipSpace t with
  | [] => .error .decodeError
  | c :: rest =>
    if c = close then .ok ([], rest) else scanLoop close one (c :: rest).length (c :: rest)

section
variable {F : Type} (scan : Scan (Value F))

def scanMember : Scan (Units × Value F)
  | '"' :: rest =>
    match scanString rest with
    | .error e => .error e
    | .ok (key, rest) =>
      match skipSpace rest with
      | ':' :: rest => mapFirst (key, ·) (scan (skipSpace rest))
      | _ => .error .decodeError
  | _ => .error .decodeError

def scanArray : Scan (List (Value F)) := scanSequence ']' scan

def scanObject : Scan (List (Units × Value F)) := scanSequence '}' (scanMember scan)
end

/-- The last member of a key counts, at the place of the first. -/
def dict {V : Type} (members : List (Units × V)) : List (Units × V) :=
  members.foldl (fun d m => Dict.assign m.1 m.2 d) []

section
variable {F : Type} (floats : FloatText F) (limits : Limits)

def scanWith (array : Scan (List (Value F))) (object : Scan (List (Units × Value F))) :
    Scan (Value F)
  | [] => .error .decodeError
  | c :: rest =>
    if c = '"' then mapFirst .string (scanString rest)
    else if c = '{' then mapFirst (fun members => .object (dict members)) (object rest)
    else if c = '[' then mapFirst .array (array rest)
    else scanScalar floats limits (c :: rest)

def scanOnce : Nat → Scan (Value F)
  | 0 => scanWith floats limits (fun _ => .error .recursionError) (fun _ => .error .recursionError)
  | depth + 1 =>
    scanWith floats limits (scanArray (scanOnce depth)) (scanObject (scanOnce depth))

/-- `json.loads`. -/
def loads (t : List Char) : Except Raised (Value F) :=
  match scanOnce floats limits limits.depth (skipSpace t) with
  | .error e => .error e
  | .ok (v, rest) => if skipSpace rest = [] then .ok v else .error .decodeError

/-! ## Writing -/

def textInteger (n : Int) : List Char :=
  if n < 0 then '-' :: Nat.toDigits 10 n.natAbs else Nat.toDigits 10 n.natAbs

mutual
def text : Value F → List Char
  | .null => "null".toList
  | .boolean true => "true".toList
  | .boolean false => "false".toList
  | .integer n => textInteger n
  | .number x => floats.text x
  | .string s => textString s
  | .array items => '[' :: textItems items ++ [']']
  | .object members => '{' :: textMembers members ++ ['}']

def textItems : List (Value F) → List Char
  | [] => []
  | [v] => text v
  | v :: rest => text v ++ ',' :: textItems rest

def textMembers : List (Units × Value F) → List Char
  | [] => []
  | [(key, v)] => textString key ++ ':' :: text v
  | (key, v) :: rest => textString key ++ ':' :: text v ++ ',' :: textMembers rest
end

mutual
/-- What the writer raises first. -/
def refused (depth : Nat) : Value F → Option Raised
  | .integer n => if limits.digits < (Nat.toDigits 10 n.natAbs).length then some .valueError else none
  | .array items =>
    match depth with
    | 0 => some .recursionError
    | depth + 1 => refusedItems depth items
  | .object members =>
    match depth with
    | 0 => some .recursionError
    | depth + 1 => refusedMembers depth members
  | _ => none

def refusedItems (depth : Nat) : List (Value F) → Option Raised
  | [] => none
  | v :: rest => (refused depth v).or (refusedItems depth rest)

def refusedMembers (depth : Nat) : List (Units × Value F) → Option Raised
  | [] => none
  | (_, v) :: rest => (refused depth v).or (refusedMembers depth rest)
end

/-- `json.dumps` with the compact separators. -/
def dumps (v : Value F) : Except Raised (List Char) :=
  match refused limits limits.depth v with
  | some e => .error e
  | none => .ok (text floats v)
end
end JsonText
