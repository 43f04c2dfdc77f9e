import ModelDispatcher.Lib.Logged
import ModelDispatcher.Quota
import ModelDispatcher.Security

/-!
The state a dispatch runs in, and the log of what it does.

The log records every call between components with its arguments and its result, in order. The
outside world (the vendors and the clock) is a parameter: a provider call may answer anything,
as a function of everything that happened before it.
-/

namespace ModelDispatcher.Machines

open Lib.Text Lib.Floats Lib.Logged DataTypes Exceptions Config Providers Quota Security

/-- The audit entry of one provider attempt. -/
structure AttemptRecord where
  providerName : PyStr
  errorClass : Option ErrorClass := none
  detail : Option PyStr := none
  credentialRef : Option PyStr := none
  deriving DecidableEq

/-- One call of `provider.complete`, with the credential and the loop counters it is made
under. -/
structure Call where
  provider : ModelProvider
  request : CompletionRequest
  apiKey : Option PyStr
  credential : Option Credential
  index : ℕ
  attempt : ℕ

inductive Event
  /-- The triage verdict was mapped to candidates. -/
  | routed (complexity : TaskComplexity) (result : Except BuiltinError (List ModelProvider))
  /-- The chain starts over from its first handler. -/
  | passStarted
  | validated (request : CompletionRequest) (tenant : TenantContext)
      (result : Except PyException Unit)
  | resolved (provider : ModelProvider) (result : Except ModelDispatcherError (List Credential))
  /-- A reservation, on the quota state it found. -/
  | reserved (provider : ModelProvider) (estimate : ℤ) (quota : QuotaState)
      (result : Except BuiltinError QuotaDecision)
  | called (call : Call) (result : CallResult)
  | recorded (record : AttemptRecord)
  /-- `retry_after_seconds` was consulted. -/
  | hinted (provider : ModelProvider) (exc : VendorError)
  /-- A retry waits for a delay. -/
  | backedOff (provider : ModelProvider) (attempt : ℕ) (exc : VendorError)
      (delay : Except BuiltinError PyFloat)
  | committed (tenant : TenantContext) (decision : QuotaDecision) (usage : Usage)
  /-- A message was appended to the conversation. -/
  | appended (message : Message)

/-- The outside: clock readings, and the answer to a provider call after a log. -/
structure World where
  monotonic : ℕ → ℚ
  complete : List Event → ModelProvider → CompletionRequest → Option PyStr → CallResult

/-- The part of the invocation context the handlers write. -/
structure Scratch where
  attempts : List AttemptRecord := []
  credentials : List Credential := []
  reservation : Option QuotaDecision := none
  response : Option CompletionResponse := none
  error : Option ModelDispatcherError := none
  warnings : List PyStr := []

structure Machine where
  scratch : Scratch := {}
  quota : QuotaState := {}
  log : List Event := []

abbrev Run := EStateM PyException Machine

/-! ### Steps -/

def emit (e : Event) : Run Unit := modify fun s => { s with log := s.log ++ [e] }

def updateScratch (f : Scratch → Scratch) : Run Unit :=
  modify fun s => { s with scratch := f s.scratch }

def orRaise {α : Type} : Except PyException α → Run α
  | .ok a => pure a
  | .error e => throw e

/-- Run a quota operation; its exception comes back as a value. -/
def onQuota {α : Type} (x : QuotaM α) : Run (Except BuiltinError α) := fun s =>
  .ok (answer (x.run s.quota)) { s with quota := finalState (x.run s.quota) }

end ModelDispatcher.Machines
