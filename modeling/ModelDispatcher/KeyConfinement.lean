import ModelDispatcher.Completion
import ModelDispatcher.Lib.Lockstep
import ModelDispatcher.Lib.Urls

/-!
What the keys of the browser agent are used for: each one is sent to its own vendor, in one header,
and nothing else that a run does depends on it.
-/

namespace ModelDispatcher.KeyConfinement

open Lib.Js Lib.CodePoints Lib.Urls Lib.Logged Lib.Lockstep BrowserAgent Streaming Completion

/-! ### Where a key goes -/

def keyHeaders : List JsStr := [js "x-goog-api-key", js "x-api-key", js "Authorization"]

section

variable {runtime : Runtime} {c : ProviderCallConfig} {messages : List ChatMessage}
variable {options : RequestOptions} {request : FetchRequest}

end

/-! ### What a key decides -/

/-- The request with the texts of its keys left out. -/
def unkeyed (request : FetchRequest) : FetchRequest :=
  { request with
    headers := request.headers.map fun h => if h.1 ∈ keyHeaders then (h.1, []) else h }

def unkeyedAct : Act → Act
  | .fetched request result => .fetched (unkeyed request) result
  | act => act

def unkeyedLog (es : List Event) : List Event :=
  es.map fun e => { e with act := unkeyedAct e.act }

@[simp] lemma unkeyedLog_append (es fs : List Event) :
    unkeyedLog (es ++ fs) = unkeyedLog es ++ unkeyedLog fs := List.map_append

/-- The machines are the same but for the keys in their requests. -/
structure Alike (m m' : Machine) : Prop where
  log : unkeyedLog m.log = unkeyedLog m'.log
  current : m.current = m'.current
  startedStreaming : m.startedStreaming = m'.startedStreaming

/-- A world in which no key does better than another one. -/
structure Blind (runtime : Runtime) : Prop where
  fetch : ∀ es es' request request', unkeyedLog es = unkeyedLog es' →
    unkeyed request = unkeyed request' → runtime.fetch es request = runtime.fetch es' request'
  aborted : ∀ es es', unkeyedLog es = unkeyedLog es' → runtime.aborted es = runtime.aborted es'
  interrupted : ∀ es es', unkeyedLog es = unkeyedLog es' →
    runtime.interrupted es = runtime.interrupted es'
  onChunk : ∀ es es' text, unkeyedLog es = unkeyedLog es' →
    runtime.onChunk es text = runtime.onChunk es' text

/-- The configuration of a call without its key. -/
def blank (c : ProviderCallConfig) : ProviderCallConfig := { c with apiKey := [] }

section

variable {runtime : Runtime} {α β ε : Type} {m m' : Machine}

lemma alike_note {act act' : Act} (hact : unkeyedAct act = unkeyedAct act') (h : Alike m m') :
    InStep Alike (note act : EStateM ε Machine Unit) (note act') m m' :=
  inStep_modify ⟨by simp [unkeyedLog, hact, h.current, show m.log.map _ = _ from h.log], h.current,
    h.startedStreaming⟩

lemma steady_note (act : Act) : Steady Alike (note act : EStateM ε Machine Unit) :=
  fun _ _ => alike_note rfl

lemma inStep_attempt {x y : Run α} (h : InStep Alike x y m m') :
    InStep Alike (attempt x : EStateM ε Machine (Except Thrown α)) (attempt y) m m' := by
  unfold InStep EStateM.run attempt at *
  generalize x m = r at h ⊢
  generalize y m' = r' at h ⊢
  cases h with
  | returned a h => exact .returned (Except.ok a) h
  | raised e h => exact .returned (Except.error e) h

end

section

variable {runtime : Runtime} (hblind : Blind runtime) {α : Type} {m m' : Machine}
include hblind

lemma steady_onLine (next : JsStr → JsStr → Option JsStr) (full line : JsStr) :
    Steady Alike (onLine next (deliver runtime) full line) := by
  unfold onLine
  cases next full line with
  | none => exact steady_pure full
  | some full =>
    have hdeliver : Steady Alike (deliver runtime full) := by
      refine steady_get fun s t h => ?_
      refine inStep_bind (.returned _ ⟨h.log, h.current, rfl⟩) fun _ s' t' h' => ?_
      refine inStep_bind (steady_note _ s' t' h') fun _ s'' t'' h'' => ?_
      rw [hblind.onChunk _ _ full h.log]
      cases runtime.onChunk t.log full with
      | none => exact inStep_pure _ h''
      | some e => exact .raised e h''
    exact steady_bind (fun s t h => inStep_attempt (hdeliver s t h)) fun _ => steady_pure full

end

section

variable {runtime : Runtime} {messages : List ChatMessage} {options : RequestOptions}
variable {c c' : ProviderCallConfig}

variable (hblind : Blind runtime)
include hblind

end

/-! ### Runs -/

section

variable (runtime : Runtime) (cfg : AgentConfig) (prompt : Prompt) (options : RequestOptions)

end

namespace Sample

/-- An offline browser with the `encodeURIComponent` of the language, which knows two URLs. -/
def runtime : Runtime := { Streaming.Sample.runtime with
  encodeURIComponent := fun text => ((encodeURIComponent text).map Except.ok).getD
    (.error (.error (js "URI malformed")))
  parseUrl := fun text =>
    if text = js "http://localhost:11434/" then
      .ok ⟨js "localhost", js "http:", js "http://localhost:11434"⟩
    else if text = js "foo://localhost:11434" then
      .ok ⟨js "localhost", js "foo:", js "null"⟩
    else .error (js "Invalid URL") }

/-- A model whose name looks like the end of a path, with a key, and a server to fall back to. -/
def config (apiKey ollamaUrl : JsStr) : AgentConfig :=
  ⟨[⟨.gemini, js "../x?y#z", [apiKey]⟩, ⟨.ollama, js "llama3.2", []⟩], ollamaUrl⟩

end Sample

end ModelDispatcher.KeyConfinement
