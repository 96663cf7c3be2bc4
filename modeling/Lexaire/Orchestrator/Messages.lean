import Lexaire.Json
import Lexaire.Core.Text

/-! Messages as the orchestrator holds them (`messages.py`). What Python's json reads beyond JSON,
NaN and the infinities, is in none of them. -/
namespace Lexaire.Orchestrator

structure VoiceCommand where
  text : String
  isAbort : Bool := false
deriving DecidableEq

/-- `args` is a dictionary; a first member of a name hides later ones. -/
structure ToolCall where
  requestId : String
  name : String
  args : List (String × Json) := []
deriving DecidableEq

/-- Null is Python's `None`. The error of a reply is whatever the reply holds. -/
structure ToolResult where
  requestId : Json
  ok : Bool
  error : Json := .null
  data : Json := .null
deriving DecidableEq

/-- The answer of a backend: the args of its calls are JSON values, as the backends take them
from a reply, and `decide` raises no exception but an `Exception`. -/
structure VlmDecision where
  thought : String
  toolCalls : List ToolCall := []
deriving DecidableEq

/-- `bool(x)`. -/
def truthy : Json → Bool
  | .null => false
  | .boolean b => b
  | .integer n => n ≠ 0
  | .double x => !(x.value == 0.0)
  | .string s => s ≠ ""
  | .array items => !items.isEmpty
  | .object members => !members.isEmpty

/-- `type(x).__name__`. -/
def typeName : Json → String
  | .null => "NoneType"
  | .boolean _ => "bool"
  | .integer _ => "int"
  | .double _ => "float"
  | .string _ => "str"
  | .array _ => "list"
  | .object _ => "dict"

end Lexaire.Orchestrator
