import Lexaire.Json

/-! Tool calls and results on the REQ/REP wire (`messages.hpp`). -/
namespace Lexaire.Bridge

structure ToolCall where
  requestId : String
  name : String
  args : Json

/-- Throws when the request is not an object or names itself with another type. -/
def ToolCall.fromJson (j : Json) : Except String ToolCall := do
  let requestId ← j.valueString "request_id" ""
  let name ← j.valueString "name" ""
  return { requestId, name, args := (j.find? "args").getD (.object []) }

structure ToolResult where
  requestId : String
  ok : Bool := false
  error : String := ""
  data : Json := .object []
deriving DecidableEq

/-- `empty()` of the library, true of null and of containers without elements. -/
def isEmpty : Json → Bool
  | .null => true
  | .array items => items.isEmpty
  | .object members => members.isEmpty
  | _ => false

/-- Null, not an empty string or object, stands for no error and no data. -/
def ToolResult.toJson (r : ToolResult) : Json := .object [
  ("request_id", .string r.requestId),
  ("ok", .boolean r.ok),
  ("error", if r.error = "" then .null else .string r.error),
  ("data", if isEmpty r.data then .null else r.data)]

@[simp] theorem ToolResult.toJson_ok (r : ToolResult) :
    r.toJson.find? "ok" = some (.boolean r.ok) := rfl

@[simp] theorem ToolResult.toJson_error (r : ToolResult) :
    r.toJson.find? "error" = some (if r.error = "" then .null else .string r.error) := rfl

/-- A float in a result; `dump()` writes null for one that is not finite. -/
def jsonOfSingle (x : Float32) : Json :=
  if finite : (Double.ofSingle x).isFinite = true then .double ⟨Double.ofSingle x, finite⟩
  else .null

end Lexaire.Bridge
