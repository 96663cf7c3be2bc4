import Lexaire.Json

/-! JSON Schema as far as tool descriptions use it. Each keyword of a schema is an assertion of
its own, and a value fits when all of them hold; a keyword that is not known asserts nothing. -/
namespace Lexaire.Json

/-- What `type` says; a number may be written with or without a fraction. -/
def hasType (name : String) : Json → Bool
  | .null => name == "null"
  | .boolean _ => name == "boolean"
  | .integer _ => name == "integer" || name == "number"
  | .double _ => name == "number"
  | .string _ => name == "string"
  | .array _ => name == "array"
  | .object _ => name == "object"

/-- `required` asks for members of objects only. -/
def hasMember (name : Json) : Json → Bool
  | .object members =>
    match name with
    | .string name => (members.lookup name).isSome
    | _ => true
  | _ => true

mutual
/-- The value fits the schema. -/
def fits : (schema value : Json) → Bool
  | .object keywords, value => fitsKeywords keywords value
  | .boolean all, _ => all
  | _, _ => true
termination_by structural schema => schema

def fitsKeywords : List (String × Json) → Json → Bool
  | [], _ => true
  | (keyword, argument) :: rest, value => fitsKeyword argument keyword value && fitsKeywords rest value
termination_by structural keywords => keywords

def fitsKeyword : (argument : Json) → (keyword : String) → (value : Json) → Bool
  | .string name, keyword, value => if keyword = "type" then hasType name value else true
  | .object properties, keyword, value =>
    if keyword = "properties" then fitsProperties properties value else true
  | .array items, keyword, value =>
    if keyword = "required" then items.all (hasMember · value)
    else if keyword = "anyOf" then fitsAny items value
    else true
  | _, _, _ => true
termination_by structural argument => argument

def fitsProperties : List (String × Json) → Json → Bool
  | [], _ => true
  | (name, schema) :: rest, value =>
    (match value.find? name with
      | some member => fits schema member
      | none => true) && fitsProperties rest value
termination_by structural properties => properties

def fitsAny : List Json → Json → Bool
  | [], _ => false
  | schema :: rest, value => fits schema value || fitsAny rest value
termination_by structural schemas => schemas
end

section
variable {value : Json}

theorem hasType_number_iff : hasType "number" value = true ↔ ∃ x, value.number? = some x := by
  cases value <;> simp [hasType, number?]

theorem hasType_object_iff : hasType "object" value = true ↔ ∃ members, value = .object members := by
  cases value <;> simp [hasType]

theorem fitsKeywords_iff {keywords : List (String × Json)} : fitsKeywords keywords value = true ↔
    ∀ p ∈ keywords, fitsKeyword p.2 p.1 value = true := by
  induction keywords with
  | nil => simp [fitsKeywords]
  | cons p rest ih =>
    obtain ⟨keyword, argument⟩ := p
    rw [fitsKeywords, Bool.and_eq_true, ih, List.forall_mem_cons]

/-- A member with a schema of its own need not be there. -/
theorem fitsProperties_iff {properties : List (String × Json)} : fitsProperties properties value = true ↔
    ∀ p ∈ properties, ∀ member, value.find? p.1 = some member → fits p.2 member = true := by
  induction properties with
  | nil => simp [fitsProperties]
  | cons p rest ih =>
    obtain ⟨name, schema⟩ := p
    simp only [fitsProperties, Bool.and_eq_true, ih, List.forall_mem_cons]
    cases value.find? name <;> simp

theorem fitsAny_iff {schemas : List Json} : fitsAny schemas value = true ↔
    ∃ schema ∈ schemas, fits schema value = true := by
  induction schemas with
  | nil => simp [fitsAny]
  | cons schema rest ih => simp [fitsAny, ih]

end

/-- The schema of an object with these members. -/
def objectSchema (properties : List (String × Json)) (required : List String)
    (more : List (String × Json)) : Json :=
  .object ([("type", .string "object"), ("properties", .object properties),
    ("required", .array (required.map .string))] ++ more)

theorem fits_objectSchema_iff {properties more : List (String × Json)} {required : List String}
    {value : Json} : fits (objectSchema properties required more) value = true ↔
      (∃ members, value = .object members) ∧
      (∀ p ∈ properties, ∀ member, value.find? p.1 = some member → fits p.2 member = true) ∧
      (∀ name ∈ required, (value.find? name).isSome = true) ∧
      fitsKeywords more value = true := by
  simp only [objectSchema, fits, fitsKeywords_iff, List.forall_mem_append, List.forall_mem_cons,
    fitsKeyword, if_true, hasType_object_iff, fitsProperties_iff]
  constructor
  · rintro ⟨⟨⟨members, rfl⟩, typed, present, -⟩, further⟩
    refine ⟨⟨members, rfl⟩, typed, ?_, further⟩
    intro name listed
    exact List.all_eq_true.mp present (.string name) (List.mem_map_of_mem listed)
  · rintro ⟨⟨members, rfl⟩, typed, present, further⟩
    refine ⟨⟨⟨members, rfl⟩, typed, ?_, by simp⟩, further⟩
    rw [List.all_map, List.all_eq_true]
    exact present

end Lexaire.Json
