import ModelDispatcher.Gateway

/-!
The asynchronous side: the loops of the invocation handler, the executor of the chain, the
tool executor and the agent loop, written a second time around `await`.

The helpers both sides call, such as the classification of an error and the commit on success,
are those of the synchronous side.
-/

namespace ModelDispatcher.Async

open Lib.Text Lib.Floats DataTypes Exceptions Config Providers Quota Security Routing Machines
open Handlers Chain Orchestration Gateway

/-- The outside of an asynchronous dispatch. -/
structure AsyncWorld extends World where
  acomplete : List Event → ModelProvider → CompletionRequest → Option PyStr → CallResult
  /-- From Python 3.13 on `asyncio.sleep` refuses NaN. -/
  refusesNaN : Bool

/-! ### Handlers -/

def aperimeterHandler (settings : SecuritySettings) : FallbackHandler := perimeterHandler settings

def acredentialHandler : FallbackHandler := credentialHandler

def aquotaHandler (w : AsyncWorld) : FallbackHandler := quotaHandler w.toWorld

namespace ModelInvocationHandler

open Handlers.ModelInvocationHandler

variable (h : ModelInvocationHandler) (w : AsyncWorld)

/-- `await provider.acomplete(request, api_key=...)`. -/
def acomplete (c : InvocationContext) (k : KeySlot) (attempt : ℕ) : Run CallResult := do
  let s ← get
  let result := w.acomplete s.log k.provider c.request k.apiKey
  emit (.called ⟨k.provider, c.request, k.apiKey, k.credential, k.index, attempt⟩ result)
  return result

/-- `await asyncio.sleep(delay)`: zero and negative delays only yield to the event loop. A sleep
of infinite length, which would not end, is never asked for: delays are capped. -/
def asleep (delay : PyFloat) : Except PyException Unit :=
  if delay = .nan ∧ w.refusesNaN then .error (.builtin .valueError) else .ok ()

/-- `await asyncio.sleep(self._backoff_delay(attempt, provider, exc))`. -/
def abackoff (k : KeySlot) (exc : VendorError) (attempt : ℕ) : Run Unit := do
  let delay := h.backoffDelay attempt k.provider exc
  emit (.backedOff k.provider attempt exc delay)
  let d ← orRaise (delay.mapError .builtin)
  orRaise (asleep w d)

def aattemptOnce (c : InvocationContext) (k : KeySlot) (attempt : ℕ) : Run Attempted := do
  match ← acomplete w c k attempt with
  | .returned response => return .done (← onSuccess w.toWorld c k response)
  | .raisedLibrary e => throw (.library e)
  | .raised exc =>
    match ← h.onError k exc attempt with
    | none =>
      abackoff h w k exc attempt
      return .again
    | some .fallback => return if k.hasMoreCredentials then .nextKey else .done .fallback
    | some outcome => return .done outcome

def aattemptLoop (c : InvocationContext) (k : KeySlot) : ℕ → ℕ → Run (Option HandlerOutcome)
  | 0, _ => return none
  | n + 1, attempt => do
    match ← aattemptOnce h w c k attempt with
    | .again => aattemptLoop c k n (attempt + 1)
    | .nextKey => return none
    | .done outcome => return some outcome

def akeyLoop (c : InvocationContext) (provider : ModelProvider) (hasMoreProviders : Bool) :
    List (Option Credential) → ℕ → Run HandlerOutcome
  | [], _ => return .fallback
  | credential :: rest, index => do
    match ← aattemptLoop h w c ⟨provider, credential, index, !rest.isEmpty, hasMoreProviders⟩
        h.maxAttempts.toNat 1 with
    | some outcome => return outcome
    | none => akeyLoop c provider hasMoreProviders rest (index + 1)

def ahandle : FallbackHandler := fun c =>
  match c.candidates with
  | [] => return .fallback
  | provider :: rest => do
    let s ← get
    akeyLoop h w c provider (!rest.isEmpty) (keysOf s.scratch.credentials) 0

end ModelInvocationHandler

/-! ### The executor of the chain -/

namespace FallbackChain

open Chain.FallbackChain

/-- The `ahandle` of each handler in order, up to the first that does not say `CONTINUE`. -/
def awalk (c : InvocationContext) : FallbackChain → Run HandlerOutcome
  | [] => return .proceed
  | handler :: rest => do
    match ← handler c with
    | .proceed => awalk c rest
    | outcome => return outcome

def apass (chain : FallbackChain) (c : InvocationContext) : Run HandlerOutcome := do
  emit .passStarted
  awalk c chain

/-- The loop of `aexecute`, on the candidates still in the context. -/
def aloop (chain : FallbackChain) (request : CompletionRequest) (tenant : TenantContext) :
    List ModelProvider → Run CompletionResponse
  | [] => throw (.library (.allProvidersExhausted [lit "all routed providers were exhausted"]))
  | provider :: rest => do
    match ← apass chain ⟨request, tenant, provider :: rest⟩ with
    | .success => succeed
    | .stop => stop
    | .proceed =>
      throw (.library (.allProvidersExhausted [lit "fallback chain produced no response"]))
    | .fallback =>
      resetCandidateState
      aloop chain request tenant rest

def aexecute (chain : FallbackChain) (c : InvocationContext) : Run CompletionResponse :=
  if c.candidates = [] then
    throw (.library (.allProvidersExhausted [lit "no candidate providers were routed"]))
  else aloop chain c.request c.tenant c.candidates

end FallbackChain

/-- The `ahandle` side of the chain of one dispatch. -/
def abuildChain (w : AsyncWorld) (settings : GatewaySettings) : FallbackChain :=
  [aperimeterHandler settings.security, acredentialHandler, aquotaHandler w,
   ModelInvocationHandler.ahandle { maxAttempts := settings.retryMaxAttempts } w]

/-! ### Tools and the agent loop -/

/-- Run a tool call, on the asynchronous implementation when the tool has one. -/
def ToolExecutor.aexecute (registry : ToolRegistry) (log : List Event) (call : ToolCall) :
    ToolResult :=
  match registry.get call.name with
  | none => { callId := call.id, content := py "unknown tool: " ++ call.name, isError := true }
  | some tool => match tool.ahandler.or tool.handler with
    | none =>
      { callId := call.id, content := py "tool " ++ call.name ++ py " has no handler",
        isError := true }
    | some handler => match handler log call.arguments with
      | .error exc =>
        { callId := call.id, content := py "tool error: " ++ exc.text, isError := true }
      | .ok content => { callId := call.id, content := content }

namespace AgentLoop

open Orchestration.AgentLoop

def adispatchTurn (chain : FallbackChain) (tenant : TenantContext)
    (candidates : List ModelProvider) (st : ConversationState) : Run CompletionResponse := do
  updateScratch fun _ => {}
  FallbackChain.aexecute chain ⟨st.toRequest, tenant, candidates⟩

def arunToolCalls (registry : ToolRegistry) : List ToolCall → ConversationState →
    Run ConversationState
  | [], st => return st
  | call :: rest, st => do
    let s ← get
    let result := ToolExecutor.aexecute registry s.log call
    let st ← append st { role := .tool, toolResult := some result }
    arunToolCalls registry rest st

def arun (w : World) (chain : FallbackChain) (tenant : TenantContext) (registry : ToolRegistry)
    (candidates : List ModelProvider) (deadline : Option PyFloat) :
    ℕ → ConversationState → List StepResult → Run RunResult
  | 0, st, steps => return finalize st steps .maxIterations
  | n + 1, st, steps => do
    if ← pastDeadline w deadline then return finalize st steps .deadline
    else
      let response ← adispatchTurn chain tenant candidates st
      let s ← get
      let st ← absorb st response
      let steps := steps ++ [⟨response.message, response.usage, s.scratch.attempts⟩]
      if response.message.toolCalls ≠ [] then
        let st ← arunToolCalls registry response.message.toolCalls st
        arun w chain tenant registry candidates deadline n st steps
      else return finalize st steps .completed

end AgentLoop

def adispatch (w : AsyncWorld) (g : ModelGateway) (request : CompletionRequest)
    (tenant : TenantContext) (tools : Option ToolRegistry) : Run RunResult := do
  let candidates ← g.prepare request tenant
  AgentLoop.arun w.toWorld (abuildChain w g.settings) tenant (tools.getD {}) candidates none
    g.settings.maxIterations.toNat (ModelGateway.initialState request tenant tools) []

end ModelDispatcher.Async
