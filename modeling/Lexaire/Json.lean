import Lexaire.Core.Double

/-! JSON values on the wires between the services, with the accessors of
nlohmann::json that the bridge uses. An object is its list of members; every
reader takes the first member of a name. Exceptions carry the library's text. NaN and the
infinities, which Python's json writes and reads beside JSON, are no values here. -/
namespace Lexaire

theorem bind_eq_ok_iff {ε α β : Type} {p : Except ε α} {f : α → Except ε β} {b : β} :
    (p >>= f) = .ok b ↔ ∃ a, p = .ok a ∧ f a = .ok b := by
  cases p with
  | error e => simp [bind, Except.bind]
  | ok a => simp [bind, Except.bind]

/-- A double that JSON can write: parsers reject numbers that overflow. -/
structure FiniteDouble where
  value : Float
  finite : value.isFinite = true
deriving DecidableEq

inductive Json where
  | null
  | boolean (b : Bool)
  | integer (n : Int)
  | double (x : FiniteDouble)
  | string (s : String)
  | array (items : List Json)
  | object (members : List (String × Json))

namespace Json

mutual
def decEq : (a b : Json) → Decidable (a = b)
  | .null, .null => isTrue rfl
  | .boolean a, .boolean b => decidable_of_iff (a = b) (by simp)
  | .integer a, .integer b => decidable_of_iff (a = b) (by simp)
  | .double a, .double b => decidable_of_iff (a = b) (by simp)
  | .string a, .string b => decidable_of_iff (a = b) (by simp)
  | .array xs, .array ys =>
    have := decEqItems xs ys
    decidable_of_iff (xs = ys) (by simp)
  | .object xs, .object ys =>
    have := decEqMembers xs ys
    decidable_of_iff (xs = ys) (by simp)
  | .null, .boolean _ | .null, .integer _ | .null, .double _ | .null, .string _ | .null, .array _
  | .null, .object _ | .boolean _, .null | .boolean _, .integer _ | .boolean _, .double _
  | .boolean _, .string _ | .boolean _, .array _ | .boolean _, .object _ | .integer _, .null
  | .integer _, .boolean _ | .integer _, .double _ | .integer _, .string _ | .integer _, .array _
  | .integer _, .object _ | .double _, .null | .double _, .boolean _ | .double _, .integer _
  | .double _, .string _ | .double _, .array _ | .double _, .object _ | .string _, .null
  | .string _, .boolean _ | .string _, .integer _ | .string _, .double _ | .string _, .array _
  | .string _, .object _ | .array _, .null | .array _, .boolean _ | .array _, .integer _
  | .array _, .double _ | .array _, .string _ | .array _, .object _ | .object _, .null
  | .object _, .boolean _ | .object _, .integer _ | .object _, .double _ | .object _, .string _
  | .object _, .array _ => isFalse (by simp)

def decEqItems : (xs ys : List Json) → Decidable (xs = ys)
  | [], [] => isTrue rfl
  | x :: xs, y :: ys =>
    have := decEq x y
    have := decEqItems xs ys
    decidable_of_iff (x = y ∧ xs = ys) (by simp)
  | [], _ :: _ | _ :: _, [] => isFalse (by simp)

def decEqMembers : (xs ys : List (String × Json)) → Decidable (xs = ys)
  | [], [] => isTrue rfl
  | (k, x) :: xs, (l, y) :: ys =>
    have := decEq x y
    have := decEqMembers xs ys
    decidable_of_iff (k = l ∧ x = y ∧ xs = ys) (by simp [and_assoc])
  | [], _ :: _ | _ :: _, [] => isFalse (by simp)
end

instance : DecidableEq Json := decEq

mutual
/-- How deeply a value is nested. -/
def depth : Json → Nat
  | .array items => depthItems items + 1
  | .object members => depthMembers members + 1
  | _ => 0

def depthItems : List Json → Nat
  | [] => 0
  | x :: rest => max (depth x) (depthItems rest)

def depthMembers : List (String × Json) → Nat
  | [] => 0
  | (_, x) :: rest => max (depth x) (depthMembers rest)
end

/-- The library's name of a value's type, as its messages give it. -/
def typeName : Json → String
  | .null => "null"
  | .boolean _ => "boolean"
  | .integer _ | .double _ => "number"
  | .string _ => "string"
  | .array _ => "array"
  | .object _ => "object"

def find? (key : String) : Json → Option Json
  | .object members => members.lookup key
  | _ => none

/-- `is_number()` with `get<double>()`: integers round to nearest even. -/
def number? : Json → Option Float
  | .integer n => some (Double.ofInt n)
  | .double x => some x.value
  | _ => none

def bool? : Json → Option Bool
  | .boolean b => some b
  | _ => none

def string? : Json → Option String
  | .string s => some s
  | _ => none

/-- `j.value(key, default)` at a type that `read` recognises: the default is for
an absent key only; anything else that is not of the type throws. -/
def value {α : Type} (read : Json → Option α) (expected : String) (j : Json) (key : String)
    (default : α) : Except String α :=
  match j with
  | .object members =>
    match members.lookup key with
    | none => .ok default
    | some v =>
      match read v with
      | some x => .ok x
      | none => .error s!"[json.exception.type_error.302] type must be {expected}, but is {v.typeName}"
  | other => .error s!"[json.exception.type_error.306] cannot use value() with {other.typeName}"

def valueBool (j : Json) (key : String) (default : Bool) : Except String Bool :=
  j.value bool? "boolean" key default

def valueString (j : Json) (key : String) (default : String) : Except String String :=
  j.value string? "string" key default

/-- `args[key] = v` on the dictionary behind an object. -/
def setMember (key : String) (v : Json) : List (String × Json) → List (String × Json)
  | [] => [(key, v)]
  | (k, x) :: rest => if k = key then (key, v) :: rest else (k, x) :: setMember key v rest

@[simp] theorem lookup_setMember (key : String) (v : Json) (members : List (String × Json)) :
    (setMember key v members).lookup key = some v := by
  induction members with
  | nil => simp [setMember]
  | cons member rest ih =>
    obtain ⟨k, x⟩ := member
    by_cases same : k = key
    · simp [setMember, same]
    · have other : (key == k) = false := beq_eq_false_iff_ne.mpr (Ne.symm same)
      simp only [setMember, same, if_false, List.lookup_cons, other, ih]

/-- No number that JSON can write is a NaN. -/
theorem number?_isNaN {j : Json} {x : Float} (h : j.number? = some x) : x.isNaN = false := by
  cases j with
  | integer n => exact Option.some.inj h ▸ Double.ofInt_isNaN n
  | double d => exact Option.some.inj h ▸ Double.isNaN_of_isFinite d.finite
  | _ => simp [number?] at h

end Json
end Lexaire
