import Lexaire.Bridge.Handlers

/-! One turn of the REQ/REP loop of `run()`: parse, gate, dispatch, commit, and
the two places where an exception becomes a reply. -/
namespace Lexaire.Bridge
open Atomic

/-- Latches move only after the vehicle accepted the command. -/
def commit (c : ToolCall) : Code Unit :=
  if c.name == "arm" then do
    if ← Program.ofExcept (c.args.valueBool "voice_confirmed" false) then
      storeArmedWithVoice true
  else if c.name == "disarm" then do
    storeArmedWithVoice false
    storeAborted false
  else return

def serve (env : SafetyEnvelope) (ctx : FlightCtx) (c : ToolCall) : Code ToolResult := do
  let gate ← checkTool c.name c.args env
  if !gate.allow then
    return { requestId := c.requestId, error := "safety_denied: " ++ gate.reason }
  let result ← dispatch c ctx
  if result.ok then
    commit c
    return result
  return result

/-- What `json::parse` makes of a request. The text of an error quotes the
request, whose bytes need not be UTF-8. -/
inductive Parsed where
  | value (j : Json)
  | failed (what : String) (utf8 : Bool)

def Parsed.get : Parsed → Except String Json
  | .value j => .ok j
  | .failed what _ => .error what

def badRequest (what : String) : ToolResult :=
  { requestId := "", error := "bad_request: " ++ what }

/-- From the parsed bytes to the result; every exception on the way is caught. -/
def handle (env : SafetyEnvelope) (ctx : FlightCtx) (parsed : Parsed) : Code ToolResult :=
  Program.catching
    (do
      let req ← Program.ofExcept parsed.get
      let c ← Program.ofExcept (ToolCall.fromJson req)
      serve env ctx c)
    fun what => return badRequest what

/-- The reply of last resort. -/
def serializeFailed : Json := .object [
  ("ok", .boolean false),
  ("error", .string "internal_serialize_failed"),
  ("data", .null)]

/-- `dump()` throws on text that is not UTF-8, which only a parse error quotes. -/
def reply (parsed : Parsed) (result : ToolResult) : Json :=
  match parsed with
  | .failed _ false => serializeFailed
  | _ => result.toJson

end Lexaire.Bridge
