import ModelDispatcher.Handlers

/-!
The executor of the fallback chain: it walks the handlers and, on `FALLBACK`, drops the
current candidate and starts over with the next one.
-/

namespace ModelDispatcher.Chain

open Lib.Text DataTypes Exceptions Config Providers Machines Handlers

abbrev FallbackChain := List FallbackHandler

namespace FallbackChain

/-- The handlers in order, up to the first that does not say `CONTINUE`. -/
def walk (c : InvocationContext) : FallbackChain → Run HandlerOutcome
  | [] => return .proceed
  | handler :: rest => do
    match ← handler c with
    | .proceed => walk c rest
    | outcome => return outcome

/-- One pass over the handlers for the current candidate. -/
def pass (chain : FallbackChain) (c : InvocationContext) : Run HandlerOutcome := do
  emit .passStarted
  walk c chain

/-- The response recorded by the invocation handler; without one the assertion fails. -/
def succeed : Run CompletionResponse := do
  let s ← get
  match s.scratch.response with
  | some r => return r
  | none => throw (.builtin .assertionError)

/-- Raise the error a handler stopped with. -/
def stop : Run CompletionResponse := do
  let s ← get
  throw (.library
    (s.scratch.error.getD (.base [lit "fallback chain stopped"] 500 (py "internal_error"))))

def resetCandidateState : Run Unit :=
  updateScratch fun x => { x with credentials := [], reservation := none }

/-- The loop of `execute`, on the candidates still in the context. -/
def loop (chain : FallbackChain) (request : CompletionRequest) (tenant : TenantContext) :
    List ModelProvider → Run CompletionResponse
  | [] => throw (.library (.allProvidersExhausted [lit "all routed providers were exhausted"]))
  | provider :: rest => do
    match ← chain.pass ⟨request, tenant, provider :: rest⟩ with
    | .success => succeed
    | .stop => stop
    | .proceed =>
      throw (.library (.allProvidersExhausted [lit "fallback chain produced no response"]))
    | .fallback =>
      resetCandidateState
      loop chain request tenant rest

/-- Run the chain and return the winning response. -/
def execute (chain : FallbackChain) (c : InvocationContext) : Run CompletionResponse :=
  if c.candidates = [] then
    throw (.library (.allProvidersExhausted [lit "no candidate providers were routed"]))
  else chain.loop c.request c.tenant c.candidates

end FallbackChain

/-- The chain of one dispatch. -/
def buildChain (w : World) (settings : GatewaySettings) : FallbackChain :=
  [perimeterHandler settings.security, credentialHandler, quotaHandler w,
   ModelInvocationHandler.handle { maxAttempts := settings.retryMaxAttempts } w]

end ModelDispatcher.Chain
