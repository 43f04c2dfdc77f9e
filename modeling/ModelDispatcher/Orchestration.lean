import ModelDispatcher.Chain

/-!
The agent loop: every model turn goes through the fallback chain, and the tools the model asks
for are run between turns.
-/

namespace ModelDispatcher.Orchestration

open Lib.Text Lib.Binary64 Lib.Floats Lib.Json Lib.Dicts DataTypes Exceptions Config Providers
open Machines Handlers Chain

/-! ### Tools -/

/-- What a tool implementation answers, which may depend on everything that happened before;
only the text of an exception it raises is ever used. -/
abbrev ToolHandler := List Event → JSONObject → Except VendorError PyStr

/-- A callable tool bound to its schema, with an implementation for each way to drive the loop. -/
structure Tool where
  spec : ToolSpec
  handler : Option ToolHandler := none
  ahandler : Option ToolHandler := none

structure ToolRegistry where
  tools : PyDict PyStr Tool := ∅

namespace ToolRegistry

def register (r : ToolRegistry) (t : Tool) : ToolRegistry := ⟨r.tools.set t.spec.name t⟩

/-- The specs advertised to the model, in registration order. -/
def specs (r : ToolRegistry) : List ToolSpec := r.tools.values.map Tool.spec

def get (r : ToolRegistry) (name : PyStr) : Option Tool := r.tools.get? name

end ToolRegistry

/-- Run a tool call; a failure becomes an error result for the model to read. -/
def ToolExecutor.execute (registry : ToolRegistry) (log : List Event) (call : ToolCall) :
    ToolResult :=
  match registry.get call.name with
  | none => { callId := call.id, content := py "unknown tool: " ++ call.name, isError := true }
  | some tool => match tool.handler with
    | none =>
      { callId := call.id, content := py "tool " ++ call.name ++ py " has no synchronous handler",
        isError := true }
    | some handler => match handler log call.arguments with
      | .error exc =>
        { callId := call.id, content := py "tool error: " ++ exc.text, isError := true }
      | .ok content => { callId := call.id, content := content }

/-! ### Conversation state -/

structure ConversationState where
  tenant : TenantId
  messages : List Message
  tools : List ToolSpec := []
  usage : Usage := {}
  iterations : ℕ := 0

namespace ConversationState

def append (st : ConversationState) (m : Message) : ConversationState :=
  { st with messages := st.messages ++ [m] }

def addUsage (st : ConversationState) (u : Usage) : ConversationState :=
  { st with usage := st.usage + u }

/-- The request of the next turn. -/
def toRequest (st : ConversationState) : CompletionRequest where
  messages := st.messages
  tenant := st.tenant
  tools := st.tools

end ConversationState

/-! ### Results -/

inductive StopReason
  | completed | maxIterations | deadline | error
  deriving DecidableEq

structure StepResult where
  message : Message
  usage : Usage
  attempts : List AttemptRecord := []

structure RunResult where
  finalMessage : Message
  transcript : List Message
  usage : Usage
  stopReason : StopReason
  steps : List StepResult := []

/-! ### The loop -/

namespace AgentLoop

def finalize (st : ConversationState) (steps : List StepResult) (reason : StopReason) :
    RunResult where
  finalMessage := (st.messages.reverse.find? (·.role = .assistant)).getD
    { role := .assistant, content := some [] }
  transcript := st.messages
  usage := st.usage
  stopReason := reason
  steps := steps

def pastDeadline (w : World) : Option PyFloat → Run Bool
  | none => return false
  | some deadline => do
    let s ← get
    set { s with quota := { s.quota with ticks := s.quota.ticks + 1 } }
    return deadline.ltRat (w.monotonic s.quota.ticks)

/-- Build the context of a turn and run it through the chain. -/
def dispatchTurn (chain : FallbackChain) (tenant : TenantContext)
    (candidates : List ModelProvider) (st : ConversationState) : Run CompletionResponse := do
  updateScratch fun _ => {}
  chain.execute ⟨st.toRequest, tenant, candidates⟩

/-- Append a message to the transcript. -/
def append (st : ConversationState) (m : Message) : Run ConversationState := do
  emit (.appended m)
  return st.append m

/-- Fold a response into the state. -/
def absorb (st : ConversationState) (response : CompletionResponse) : Run ConversationState := do
  let st ← append st response.message
  let st := st.addUsage response.usage
  return { st with iterations := st.iterations + 1 }

def runToolCalls (registry : ToolRegistry) : List ToolCall → ConversationState →
    Run ConversationState
  | [], st => return st
  | call :: rest, st => do
    let s ← get
    let result := ToolExecutor.execute registry s.log call
    let st ← append st { role := .tool, toolResult := some result }
    runToolCalls registry rest st

/-- The turns left, from a state on. -/
def run (w : World) (chain : FallbackChain) (tenant : TenantContext) (registry : ToolRegistry)
    (candidates : List ModelProvider) (deadline : Option PyFloat) :
    ℕ → ConversationState → List StepResult → Run RunResult
  | 0, st, steps => return finalize st steps .maxIterations
  | n + 1, st, steps => do
    if ← pastDeadline w deadline then return finalize st steps .deadline
    else
      let response ← dispatchTurn chain tenant candidates st
      let s ← get
      let st ← absorb st response
      let steps := steps ++ [⟨response.message, response.usage, s.scratch.attempts⟩]
      if response.message.toolCalls ≠ [] then
        let st ← runToolCalls registry response.message.toolCalls st
        run w chain tenant registry candidates deadline n st steps
      else return finalize st steps .completed

end AgentLoop

end ModelDispatcher.Orchestration
