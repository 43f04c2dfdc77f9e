import ModelDispatcher.Exceptions

/-!
What a web layer surfaces of the library's exceptions: the HTTP status, and the JSON body.

The `repr` of a string in a message is a parameter.
-/

namespace ModelDispatcher.Payloads

open Lib.Text Lib.Json DataTypes Exceptions

def HandoffAction.value : HandoffAction → PyStr
  | .triggerKeyWizard => py "trigger_key_wizard"
  | .upgradePlan => py "upgrade_plan"
  | .retryLater => py "retry_later"

def HandoffResponse.toPayload (handoff : HandoffResponse) : JSONObject :=
  [(py "error", .str handoff.error), (py "provider", .str handoff.provider),
    (py "action", .str (HandoffAction.value handoff.action))] ++
  match handoff.detail with
  | some detail => [(py "detail", .str detail)]
  | none => []

def httpStatus : ModelDispatcherError → ℕ
  | .base _ status _ => status
  | .perimeterViolation _ => 403
  | .authenticationError _ => 401
  | .rateLimitError _ => 429
  | .quotaExceededError handoff => handoff.httpStatus
  | .allProvidersExhausted _ => 503
  | .noProviderAvailableError _ => 503
  | .dispatchTimeoutError _ => 504
  | .toolExecutionError _ _ => 500

def errorCode : ModelDispatcherError → PyStr
  | .base _ _ code => code
  | .perimeterViolation _ => py "perimeter_violation"
  | .authenticationError _ => py "authentication_error"
  | .rateLimitError _ => py "rate_limited"
  | .quotaExceededError _ => py "quota_exceeded"
  | .allProvidersExhausted _ => py "all_providers_exhausted"
  | .noProviderAvailableError _ => py "no_provider_available"
  | .dispatchTimeoutError _ => py "dispatch_timeout"
  | .toolExecutionError _ _ => py "tool_execution_error"

def message : ModelDispatcherError → FString
  | .base message _ _ => message
  | .perimeterViolation message => message
  | .authenticationError message => message
  | .rateLimitError message => message
  | .quotaExceededError handoff =>
    [lit "quota exceeded for provider ", .repr handoff.provider, lit "; user credential required"]
  | .allProvidersExhausted message => message
  | .noProviderAvailableError message => message
  | .dispatchTimeoutError message => message
  | .toolExecutionError _ message => message

variable (repr : PyStr → PyStr)

def render (message : FString) : PyStr :=
  message.flatMap fun
    | .text s => s
    | .repr s => repr s

def toPayload : ModelDispatcherError → JSONObject
  | .quotaExceededError handoff => HandoffResponse.toPayload handoff
  | .toolExecutionError toolName text =>
    [(py "error", .str (errorCode (.toolExecutionError toolName text))),
      (py "detail", .str (render repr text)), (py "tool", .str toolName)]
  | e => [(py "error", .str (errorCode e)), (py "detail", .str (render repr (message e)))]

/-- The status and the code are those of the class, or the ones `_terminal_error` puts on an
instance of the base class. -/
def Standard : ModelDispatcherError → Prop
  | .base _ status code => (status = 500 ∧ code = py "internal_error") ∨
      (status = 502 ∧ ∃ errorClass : ErrorClass, code = py "provider_" ++ errorClass.value)
  | _ => True

/-- No exception but a handoff has a status below 400. -/
lemma le_httpStatus {e : ModelDispatcherError} (hstandard : Standard e)
    (hquota : ∀ handoff, e ≠ .quotaExceededError handoff) : 400 ≤ httpStatus e := by
  cases e with
  | base text status code => rcases hstandard with ⟨rfl, -⟩ | ⟨rfl, -⟩ <;> simp [httpStatus]
  | quotaExceededError handoff => exact absurd rfl (hquota handoff)
  | _ => simp [httpStatus]

/-! ### Payloads are string-valued -/

/-- A JSON object with string values. -/
def stringObject (fields : List (PyStr × PyStr)) : JSONObject :=
  fields.map fun field => (field.1, .str field.2)

/-- The fields of an error body that is no handoff: the code and the message first. -/
lemma toPayload_error {e : ModelDispatcherError}
    (hquota : ∀ handoff, e ≠ .quotaExceededError handoff) :
    ∃ rest, (rest = [] ∨ ∃ toolName, rest = [(py "tool", toolName)]) ∧
      toPayload repr e = stringObject
        ([(py "error", errorCode e), (py "detail", render repr (message e))] ++ rest) := by
  cases e with
  | quotaExceededError handoff => exact absurd rfl (hquota handoff)
  | toolExecutionError toolName text => exact ⟨_, .inr ⟨toolName, rfl⟩, rfl⟩
  | _ => exact ⟨[], .inl rfl, rfl⟩

lemma toPayload_handoff (handoff : HandoffResponse) :
    toPayload repr (.quotaExceededError handoff) = stringObject
      ([(py "error", handoff.error), (py "provider", handoff.provider),
        (py "action", HandoffAction.value handoff.action)] ++
        handoff.detail.toList.map (py "detail", ·)) := by
  obtain ⟨error, provider, action, status, detail⟩ := handoff
  cases detail <;> rfl

end ModelDispatcher.Payloads
