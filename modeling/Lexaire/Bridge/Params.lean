import Lexaire.Bridge.Rejection
import Lexaire.Core.Exact

/-! Integer parameters. `set_param` reads its number as a double and casts it to
`int`: what it writes is what was asked for when that is an `int`, and is the
integer part or any `int` at all for every other number. -/
namespace Lexaire
namespace Json

/-- The number that a value writes. -/
def rational? : Json → Option ℚ
  | .integer n => some n
  | .double x => Double.toRat? x.value
  | _ => none

end Json

namespace Bridge
open Atomic

/-- Writes to the vehicle's parameters. -/
def Op.writesParam : Op → Bool
  | .setParamInt _ _ | .setParamFloat _ _ => true
  | _ => false

/-- The parameters set by a request, if the vehicle took what was written. -/
def paramsSet (took : Bool) (performed : List Op) : List Op :=
  if took then performed.filter Op.writesParam else []

/-- The vehicle took a write that MAVSDK reports as a success. It may also have taken one that
is reported as failed, for an acknowledgement can be lost. -/
def Credible (o : Outside) (took : Bool) : Prop := o.setParam = .success → took = true

/-- The parameter is set to the very number asked for, or nothing is set and the reply says so. -/
def ExactOrNothing (name : String) (asked : Json) (set : List Op) (reply : Json) : Prop :=
  (∃ n : Int, asked.rational? = some (n : ℚ) ∧ set = [.setParamInt name n]) ∨
    reply.find? "ok" = some (.boolean false) ∧ set = []

/-- `int` of the bridge's platform. -/
def IsInt (n : Int) : Prop := -2 ^ 31 ≤ n ∧ n < 2 ^ 31

instance (n : Int) : Decidable (IsInt n) := inferInstanceAs (Decidable (_ ∧ _))

variable (o : Outside) (s : SafetyState)

/-- A cast has an `int` for its result, and the integer part where that is one. -/
theorem castInt_run (x : Float) :
    ∃ reads i, (castInt x).run o.answer s = ⟨reads, s, .ok i⟩ ∧
      reads.filter Op.writesParam = [] ∧
      (∀ n, Double.truncate? x = some n → IsInt n → i = n) ∧ (IsInt o.unspecifiedInt → IsInt i) := by
  unfold castInt
  cases whole : Double.truncate? x with
  | none => exact ⟨[.unspecifiedInt], _, rfl, rfl, by simp, id⟩
  | some n =>
    by_cases fits : -2 ^ 31 ≤ n ∧ n < 2 ^ 31
    · refine ⟨[], n, ?_, rfl, ?_, fun _ => fits⟩
      · simp only [if_pos fits]
        rfl
      · intro n' same _
        exact Option.some.inj same
    · refine ⟨[.unspecifiedInt], o.unspecifiedInt, ?_, rfl, ?_, id⟩
      · simp only [if_neg fits]
        rfl
      · intro n' same fits'
        exact absurd (Option.some.inj same ▸ fits') fits

variable (ctx : FlightCtx) {c : ToolCall} {name : String} {asked : Json}

/-- A call of `set_param` that names a parameter and carries an `int_value`. -/
structure SetsInt (c : ToolCall) (name : String) (asked : Json) : Prop where
  tool : c.name = "set_param"
  named : c.args.valueString "name" "" = .ok name
  nonempty : name ≠ ""
  present : c.args.find? "int_value" = some asked

theorem dispatch_setParam (call : SetsInt c name asked) : dispatch c ctx =
    if !ctx.param then pure (err c.requestId "param_not_initialized")
    else withArg c.requestId (requireDouble c.args "int_value") fun v => do
      let iv ← castInt v
      return paramSetReply c.requestId (← setParamInt name iv) := by
  have found : handlers.lookup "set_param" = some handleSetParam := rfl
  simp only [dispatch, call.tool, found, handleSetParam, call.named, Program.ofExcept_ok,
    Program.done_bind, if_neg call.nonempty, call.present, Option.isSome_some, if_true]

/-- What a call that passes the gate does. -/
theorem dispatch_setParam_run (call : SetsInt c name asked) :
    (ctx.param = false ∨ asked.number? = none) ∧
        (∃ error, (dispatch c ctx).run o.answer s = ⟨[], s, .ok (err c.requestId error)⟩) ∨
      ctx.param = true ∧ ∃ x, asked.number? = some x ∧ ∃ reads i,
        (dispatch c ctx).run o.answer s = ⟨reads ++ [.setParamInt name i], s,
          .ok (paramSetReply c.requestId o.setParam)⟩ ∧ reads.filter Op.writesParam = [] ∧
        (∀ n, Double.truncate? x = some n → IsInt n → i = n) ∧
        (IsInt o.unspecifiedInt → IsInt i) := by
  rw [dispatch_setParam ctx call]
  cases ready : ctx.param with
  | false => exact .inl ⟨.inl rfl, _, rfl⟩
  | true =>
    cases number : asked.number? with
    | none =>
      have refused : requireDouble c.args "int_value" = .error "wrong_type:int_value" := by
        simp only [requireDouble, call.present, number]
        rfl
      rw [refused]
      exact .inl ⟨.inr rfl, _, rfl⟩
    | some x =>
      obtain ⟨reads, i, ran, silent, kept, int⟩ := castInt_run o s x
      have read : requireDouble c.args "int_value" = .ok x := by
        simp only [requireDouble, call.present, number]
      refine .inr ⟨rfl, x, rfl, reads, i, ?_, silent, kept, int⟩
      rw [read]
      simp only [Bool.not_true, Bool.false_eq_true, if_false, withArg, Program.run_bind, ran,
        Program.Outcome.andThen]
      rfl

theorem gate_setParam (env : SafetyEnvelope) (tool : c.name = "set_param") :
    gate c.name c.args env s = .ok (if s.aborted then deny "abort_active" else {}) := by
  rw [tool]
  cases aborted : s.aborted <;> simp [gate, aborted, isEmergencyFollowup, checkLimits]

theorem finish_setParam_run (tool : c.name = "set_param") {performed : List Op} {r : ToolResult}
    (dispatched : (dispatch c ctx).run o.answer s = ⟨performed, s, .ok r⟩) :
    (finish ctx c).run o.answer s = ⟨performed, s, .ok r⟩ := by
  have uncommitted : commit c = pure () := by
    rw [commit, tool]
    rfl
  rw [finish_run, dispatched, uncommitted]
  cases accepted : r.ok <;> simp [accepted, Except.map]

/-- What a request to set an integer parameter does: nothing and is refused, or it writes once. -/
theorem handle_setParam_run (env : SafetyEnvelope) {parsed : Parsed} (request : parsed.Call c)
    (call : SetsInt c name asked) :
    (s.aborted = true ∨ ctx.param = false ∨ asked.number? = none) ∧
        (∃ reads error, (handle env ctx parsed).run o.answer s =
          ⟨reads, s, .ok (err c.requestId error)⟩ ∧ reads.filter Op.writesParam = []) ∨
      s.aborted = false ∧ ctx.param = true ∧ ∃ x, asked.number? = some x ∧ ∃ performed i,
        (handle env ctx parsed).run o.answer s =
          ⟨performed, s, .ok (paramSetReply c.requestId o.setParam)⟩ ∧
        performed.filter Op.writesParam = [.setParamInt name i] ∧
        (∀ n, Double.truncate? x = some n → IsInt n → i = n) ∧
        (IsInt o.unspecifiedInt → IsInt i) := by
  obtain ⟨latches, served, onlyLatches⟩ := serve_run o s env ctx c
  have noWrite : latches.filter Op.writesParam = [] := by
    apply List.filter_eq_nil_iff.mpr
    intro op member
    have read := onlyLatches op member
    cases op <;> simp_all [Op.readsLatch, Op.writesParam]
  rw [handle_call_run o s env ctx request, served, gate_setParam s env call.tool]
  cases aborted : s.aborted with
  | true => exact .inl ⟨.inl rfl, latches, _, rfl, noWrite⟩
  | false =>
    rcases dispatch_setParam_run o s ctx call with
      ⟨absent, error, ran⟩ | ⟨ready, x, number, reads, i, ran, silent, kept, int⟩
    · rw [finish_setParam_run o s ctx call.tool ran]
      refine .inl ⟨.inr absent, latches, error, ?_, noWrite⟩
      simp
    · rw [finish_setParam_run o s ctx call.tool ran]
      refine .inr ⟨rfl, ready, x, number, latches ++ (reads ++ [.setParamInt name i]), i, ?_, ?_,
        kept, int⟩
      · simp
      · rw [List.filter_append, List.filter_append, noWrite, silent]
        rfl

/-- A number that is an `int` survives its way through a double. -/
theorem truncate?_of_rational {x : Float} {n : Int} (number : asked.number? = some x)
    (value : asked.rational? = some (n : ℚ)) (fits : IsInt n) : Double.truncate? x = some n := by
  cases asked with
  | integer k =>
    have same : k = n := by exact_mod_cast Option.some.inj value
    obtain rfl := Option.some.inj number
    have small : k.natAbs < 2 ^ 53 := by
      unfold IsInt at fits
      omega
    rw [Double.truncate?_ofInt small, same]
  | double y =>
    obtain rfl := Option.some.inj number
    exact Double.truncate?_of_toRat? value
  | _ => cases number

/-- Whatever MAVSDK answers and whatever the vehicle takes, a request for an integer sets exactly
the number it carries or nothing, if and only if that number is an `int`, or is no number, or the
request is refused. -/
theorem set_param_exact_iff (env : SafetyEnvelope) {parsed : Parsed}
    (request : parsed.Call c) (call : SetsInt c name asked) :
    (∀ o took, Credible o took → ∃ r, ((handle env ctx parsed).run o.answer s).result = .ok r ∧
        ExactOrNothing name asked
          (paramsSet took ((handle env ctx parsed).run o.answer s).performed) (reply parsed r)) ↔
      (∃ n : Int, asked.rational? = some (n : ℚ) ∧ IsInt n) ∨
        asked.number? = none ∨ s.aborted = true ∨ ctx.param = false := by
  obtain ⟨j, rfl, read⟩ := id request
  constructor
  · intro always
    obtain ⟨r, replied, exactly⟩ := always .nominal true fun _ => rfl
    rcases handle_setParam_run .nominal s ctx env request call with
      ⟨refused, -⟩ | ⟨-, -, x, -, performed, i, ran, wrote, -, int⟩
    · tauto
    · rw [ran] at replied exactly
      obtain rfl := Except.ok.inj replied
      rcases exactly with ⟨n, value, set⟩ | ⟨failed, -⟩
      · left
        refine ⟨n, value, ?_⟩
        simp only [paramsSet, if_true, wrote, List.cons.injEq, Op.setParamInt.injEq, true_and,
          and_true] at set
        rw [← set]
        exact int ⟨by decide, by decide⟩
      · have succeeded : (reply (.value j) (paramSetReply c.requestId ParamResult.success)).find?
            "ok" = some (.boolean true) := rfl
        cases succeeded.symm.trans failed
  · intro holds o took credible
    rcases handle_setParam_run o s ctx env request call with
      ⟨-, reads, error, ran, silent⟩ | ⟨clear, ready, x, number, performed, i, ran, wrote, kept, -⟩
    · rw [ran]
      refine ⟨_, rfl, .inr ⟨rfl, ?_⟩⟩
      simp [paramsSet, silent]
    · have value : ∃ n : Int, asked.rational? = some (n : ℚ) ∧ IsInt n := by
        simpa [clear, ready, number] using holds
      obtain ⟨n, value, fits⟩ := value
      obtain rfl := kept n (truncate?_of_rational number value fits) fits
      rw [ran]
      refine ⟨_, rfl, ?_⟩
      cases took with
      | true => exact .inl ⟨i, value, wrote⟩
      | false =>
        have failed : o.setParam ≠ .success := fun success => Bool.false_ne_true (credible success)
        refine .inr ⟨?_, rfl⟩
        simp [reply, paramSetReply, if_neg failed, err]

/-- A request to set a parameter of PX4. -/
def velocityRequest (value : Json) : Parsed := .value (.object [("request_id", .string "1"),
  ("name", .string "set_param"),
  ("args", .object [("name", .string "MPC_XY_VEL_MAX"), ("int_value", value)])])

theorem set_param_exact_whole :
    ∃ r, ((handle {} {} (velocityRequest (.integer 7))).run Outside.nominal.answer {}).result = .ok r ∧
      ExactOrNothing "MPC_XY_VEL_MAX" (.integer 7) (paramsSet true
        ((handle {} {} (velocityRequest (.integer 7))).run Outside.nominal.answer {}).performed)
        (reply (velocityRequest (.integer 7)) r) :=
  (set_param_exact_iff (c := ⟨"1", "set_param", _⟩) {} {} {} ⟨_, rfl, rfl⟩
    ⟨rfl, rfl, by decide, rfl⟩).mpr (.inl ⟨7, rfl, by decide⟩) .nominal true fun _ => rfl

theorem not_exact {set : List Op} {reply : Json} {i : Int} (wrote : set = [.setParamInt name i])
    (succeeded : reply.find? "ok" = some (.boolean true)) (other : asked.rational? ≠ some (i : ℚ)) :
    ¬ ExactOrNothing name asked set reply := by
  rintro (⟨n, value, same⟩ | ⟨failed, -⟩)
  · injection same.symm.trans wrote with same
    injection same with _ same
    exact other (same ▸ value)
  · cases succeeded.symm.trans failed

/-- A fraction is cut to its integer part, 2 ^ 31 becomes whatever the cast leaves, and both are
reported as set. -/
theorem fraction_is_cut :
    let half : Json := .double ⟨2.5, by decide +kernel⟩
    ∀ value ∈ [half, .integer (2 ^ 31)],
      let out := (handle {} {} (velocityRequest value)).run Outside.nominal.answer {}
      Credible .nominal true ∧ ¬ ∃ r, out.result = .ok r ∧
        ExactOrNothing "MPC_XY_VEL_MAX" value (paramsSet true out.performed)
          (reply (velocityRequest value) r) := by
  intro half
  simp only [List.forall_mem_cons]
  refine ⟨⟨fun _ => rfl, ?_⟩, ⟨fun _ => rfl, ?_⟩, by simp⟩
  · rintro ⟨r, replied, exactly⟩
    have cut : ((handle {} {} (velocityRequest half)).run Outside.nominal.answer {}).performed =
      [.loadAborted, .setParamInt "MPC_XY_VEL_MAX" 2] := by decide +kernel
    rw [cut] at exactly
    obtain rfl := Except.ok.inj replied
    exact not_exact rfl rfl (by decide +kernel) exactly
  · rintro ⟨r, replied, exactly⟩
    have unspecified : ((handle {} {} (velocityRequest (.integer (2 ^ 31)))).run
        Outside.nominal.answer {}).performed =
      [.loadAborted, .unspecifiedInt, .setParamInt "MPC_XY_VEL_MAX" 0] := by decide +kernel
    rw [unspecified] at exactly
    obtain rfl := Except.ok.inj replied
    exact not_exact rfl rfl (by decide +kernel) exactly

end Bridge
end Lexaire
