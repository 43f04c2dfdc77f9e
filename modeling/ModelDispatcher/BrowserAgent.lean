import ModelDispatcher.Lib.Js
import ModelDispatcher.Lib.Logged

/-!
The browser agent: one candidate for each configured key, the calls of the four provider modules,
and the two ways to fall back from one candidate to the next: `complete` until one answers, and
`streamComplete` until text has been streamed.

What the browser answers is a function of the log; every event of the log is tagged with the
position of the candidate it belongs to.
-/

namespace ModelDispatcher.BrowserAgent

open Lib.Text Lib.Binary64 Lib.Logged Lib.Js

/-! ### Configuration -/

inductive ProviderId
  | gemini | openai | anthropic | groq | ollama
  deriving DecidableEq

structure ProviderCredential where
  provider : ProviderId
  model : JsStr
  apiKeys : List JsStr
  deriving DecidableEq

structure AgentConfig where
  providers : List ProviderCredential
  ollamaUrl : JsStr
  deriving DecidableEq

structure ProviderCallConfig where
  provider : ProviderId
  model : JsStr
  apiKey : JsStr
  ollamaUrl : JsStr
  deriving DecidableEq

def candidatesOf (cfg : AgentConfig) : List ProviderCallConfig :=
  cfg.providers.flatMap fun cred =>
    if cred.provider = .ollama then [⟨.ollama, cred.model, [], cfg.ollamaUrl⟩]
    else (cred.apiKeys.filter (· ≠ [])).map fun apiKey =>
      ⟨cred.provider, cred.model, apiKey, cfg.ollamaUrl⟩

inductive ChatRole
  | system | user | assistant
  deriving DecidableEq

def ChatRole.text : ChatRole → JsStr
  | .system => js "system"
  | .user => js "user"
  | .assistant => js "assistant"

structure ChatMessage where
  role : ChatRole
  content : JsStr

structure RequestOptions where
  systemInstruction : Option JsStr := none
  jsonMode : Bool := false
  maxTokens : Option Double := none

/-! ### The browser -/

/-- A value the browser throws, as far as the agent looks at it: `null` and `undefined` have no
`message` to read; of any other value it is the text of its `message`, which is missing where the
conversion throws. -/
inductive Thrown
  | nullish
  | value (message : Option JsStr)
  deriving DecidableEq

def Thrown.error (message : JsStr) : Thrown := .value (some message)

/-- The body is kept as the value before `JSON.stringify`. -/
structure FetchRequest where
  method : JsStr := js "POST"
  url : JsStr
  headers : List (JsStr × JsStr)
  body : JsValue

/-- A streamed body: the chunks, and the error that breaks it off. -/
structure Stream where
  chunks : List (List UInt8)
  ending : Option Thrown

/-- A response, with what `json` makes of its body, or throws. -/
structure Response where
  status : ℕ
  body : Option Stream
  json : Except Thrown JsValue

def Response.ok (response : Response) : Bool := 200 ≤ response.status && response.status ≤ 299

/-- What a run leaves: each wait with what it gave, `none` for the end of a body, each text that was
passed on, and the outcome of each candidate, streamed or not. -/
inductive Act
  | fetched (request : FetchRequest) (result : Except Thrown Response)
  | slept
  | read (result : Except Thrown (Option (List UInt8)))
  | json (result : Except Thrown JsValue)
  | chunk (text : JsStr)
  | settled (result : Except Thrown JsStr)
  | completed (result : Except Thrown JsValue)

structure Event where
  candidate : ℕ
  act : Act

structure Url where
  hostname : JsStr
  protocol : JsStr
  origin : JsStr

structure Runtime where
  fetch : List Event → FetchRequest → Except Thrown Response
  /-- Whether the caller's signal is aborted. -/
  aborted : List Event → Bool
  /-- What breaks off the wait for more of a body, if anything: the signal or the timeout. -/
  interrupted : List Event → Option Thrown
  encodeURIComponent : JsStr → Except Thrown JsStr
  /-- `new URL`, or the message of its exception. -/
  parseUrl : JsStr → Except JsStr Url
  parse : JsStr → Option JsValue
  /-- The message of the exception that reading a property of `null` throws. -/
  nullMessage : JsStr → JsStr
  /-- The text of a value in a concatenation. -/
  toText : JsValue → Except Thrown JsStr
  /-- What a `TextDecoder` gives for a chunk after the earlier ones. -/
  decode : List (List UInt8) → List UInt8 → JsStr
  /-- The caller's callback, which may throw. -/
  onChunk : List Event → JsStr → Option Thrown

structure Machine where
  log : List Event := []
  current : ℕ := 0
  startedStreaming : Bool := false

abbrev Run := EStateM Thrown Machine

def note {ε : Type} (act : Act) : EStateM ε Machine Unit :=
  modify fun m => { m with log := m.log ++ [⟨m.current, act⟩] }

/-- The outcome of something that may throw. -/
def orThrow {α : Type} : Except Thrown α → Run α
  | .ok a => pure a
  | .error e => throw e

/-! ### Request bodies -/

def defaultMaxTokens : Double := ofRat 1024

def maxTokensOf (options : RequestOptions) : JsValue :=
  .number (options.maxTokens.getD defaultMaxTokens)

def turn (message : ChatMessage) : JsValue :=
  .object [(js "role", .string message.role.text), (js "content", .string message.content)]

/-- The system text of the vendors that take it apart from the turns. -/
def systemOf (messages : List ChatMessage) (explicit : Option JsStr) : Option JsStr :=
  explicit <|> (messages.find? (·.role = .system)).map (·.content)

def withoutSystem (messages : List ChatMessage) : List ChatMessage :=
  messages.filter (·.role ≠ .system)

/-- The turns of the vendors that take the system text as one of them. -/
def withSystem (messages : List ChatMessage) (systemInstruction : Option JsStr) : List JsValue :=
  let system := match systemInstruction with
    | none | some [] => []
    | some text => if messages.any (·.role = .system) then [] else [turn ⟨.system, text⟩]
  system ++ messages.map turn

namespace Gemini

def toContents (messages : List ChatMessage) : JsValue :=
  .array ((withoutSystem messages).map fun m =>
    .object [(js "role", .string (if m.role = .assistant then js "model" else js "user")),
      (js "parts", .array [.object [(js "text", .string m.content)]])])

def buildBody (messages : List ChatMessage) (options : RequestOptions) : JsValue :=
  .object ([(js "contents", toContents messages),
    (js "generationConfig", .object ([(js "maxOutputTokens", maxTokensOf options)] ++
      if options.jsonMode then [(js "responseMimeType", .string (js "application/json"))]
      else []))] ++
    match systemOf messages options.systemInstruction with
    | none | some [] => []
    | some system => [(js "systemInstruction",
        .object [(js "parts", .array [.object [(js "text", .string system)]])])])

end Gemini

namespace Anthropic

def buildBody (cfg : ProviderCallConfig) (messages : List ChatMessage) (options : RequestOptions)
    (stream : Bool) : JsValue :=
  .object ([(js "model", .string cfg.model), (js "max_tokens", maxTokensOf options)] ++
    (match systemOf messages options.systemInstruction with
      | none | some [] => []
      | some system => [(js "system", .string system)]) ++
    [(js "messages", .array ((withoutSystem messages).map turn))] ++
    if stream then [(js "stream", .boolean true)] else [])

end Anthropic

namespace OpenAICompatible

def buildBody (cfg : ProviderCallConfig) (messages : List ChatMessage) (options : RequestOptions)
    (stream : Bool) : JsValue :=
  .object ([(js "model", .string cfg.model), (js "max_tokens", maxTokensOf options),
    (js "messages", .array (withSystem messages options.systemInstruction))] ++
    (if options.jsonMode then
      [(js "response_format", .object [(js "type", .string (js "json_object"))])] else []) ++
    if stream then [(js "stream", .boolean true)] else [])

end OpenAICompatible

namespace Ollama

def buildBody (cfg : ProviderCallConfig) (messages : List ChatMessage) (options : RequestOptions)
    (stream : Bool) : JsValue :=
  .object [(js "model", .string cfg.model),
    (js "messages", .array (withSystem messages options.systemInstruction)),
    (js "stream", .boolean stream),
    (js "options", .object [(js "num_predict", maxTokensOf options)])]

end Ollama

/-! ### Requests -/

variable (runtime : Runtime)

def contentType : JsStr × JsStr := (js "Content-Type", js "application/json")

/-- The origin of an Ollama URL that is local or HTTPS. -/
def validateOllamaUrl (url : JsStr) : Except Thrown JsStr :=
  match runtime.parseUrl url with
  | .error message => .error (.error (js "Invalid Ollama URL: " ++ message))
  | .ok parsed =>
    if parsed.hostname ∉ [js "localhost", js "127.0.0.1", js "::1"] ∧
        parsed.protocol ≠ js "https:" then
      .error (.error (js
        "Remote Ollama must use HTTPS. For local testing, use http://localhost:11434"))
    else .ok parsed.origin

section

variable (cfg : ProviderCallConfig) (messages : List ChatMessage) (options : RequestOptions)

def Gemini.completeRequest : Except Thrown FetchRequest := do
  let model ← runtime.encodeURIComponent cfg.model
  return {
    url := js "https://generativelanguage.googleapis.com/v1beta/models/" ++ model ++
      js ":generateContent"
    headers := [contentType, (js "x-goog-api-key", cfg.apiKey)]
    body := Gemini.buildBody messages options }

def Gemini.streamRequest : Except Thrown FetchRequest := do
  let model ← runtime.encodeURIComponent cfg.model
  return {
    url := js "https://generativelanguage.googleapis.com/v1beta/models/" ++ model ++
      js ":streamGenerateContent?alt=sse"
    headers := [contentType, (js "x-goog-api-key", cfg.apiKey)]
    body := Gemini.buildBody messages options }

def Anthropic.request (stream : Bool) : FetchRequest where
  url := js "https://api.anthropic.com/v1/messages"
  headers := [contentType, (js "x-api-key", cfg.apiKey), (js "anthropic-version", js "2023-06-01"),
    (js "anthropic-dangerous-direct-browser-access", js "true")]
  body := Anthropic.buildBody cfg messages options stream

def OpenAICompatible.request (baseUrl : JsStr) (stream : Bool) : FetchRequest where
  url := baseUrl
  headers := [contentType, (js "Authorization", js "Bearer " ++ cfg.apiKey)]
  body := OpenAICompatible.buildBody cfg messages options stream

def Ollama.request (stream : Bool) : Except Thrown FetchRequest := do
  let baseUrl ← validateOllamaUrl runtime cfg.ollamaUrl
  return {
    url := baseUrl ++ js "/api/chat"
    headers := [contentType]
    body := Ollama.buildBody cfg messages options stream }

end

def fetch (request : FetchRequest) : Run Response := do
  let m ← get
  let result := runtime.fetch m.log request
  note (.fetched request result)
  orThrow result

def isRetryableStatus (status : ℕ) : Bool := status = 429 || (500 ≤ status && status < 600)

/-- A program under a `try`, with its outcome. -/
def attempt {ε α : Type} (x : Run α) : EStateM ε Machine (Except Thrown α) := fun m =>
  match x m with
  | .ok a m' => .ok (.ok a) m'
  | .error e m' => .ok (.error e) m'

/-- The second round of the loop takes what it gets. -/
def fetchWithRetry (request : FetchRequest) : Run Response := do
  match ← attempt (fetch runtime request) with
  | .ok res =>
    if isRetryableStatus res.status then
      note .slept
      fetch runtime request
    else return res
  | .error e =>
    if runtime.aborted (← get).log then throw e
    note .slept
    fetch runtime request

/-! ### Reading a body -/

/-- What a wait for a body gives that would end so by itself. -/
def arrival {α : Type} (own : Except Thrown α) : Run (Except Thrown α) := do
  let m ← get
  return match runtime.interrupted m.log with
    | some e => .error e
    | none => own

def read (own : Except Thrown (Option (List UInt8))) : Run (Option (List UInt8)) := do
  let result ← arrival runtime own
  note (.read result)
  orThrow result

def readJson (res : Response) : Run JsValue := do
  let result ← arrival runtime res.json
  note (.json result)
  orThrow result

/-- The text of a value in a concatenation. -/
def textOf : JsValue → Except Thrown JsStr
  | .string s => .ok s
  | value => runtime.toText value

def httpStatusText (status : ℕ) : JsStr := js "HTTP " ++ ofNat status

def describeHttpError (res : Response) : Run JsStr := do
  let body ← attempt (readJson runtime res)
  let message := ((body.toOption.getD .undefined).property (js "error")).property (js "message")
  if message.isNullish then return httpStatusText res.status
  else orThrow (textOf runtime message)

/-- The complete lines of the buffer, and what is left of it. -/
def splitLines (buffer : JsStr) : List JsStr × JsStr :=
  let parts := buffer.splitOn 10
  (parts.dropLast, parts.getLast?.getD [])

/-- The chunks that are left after the earlier ones; `onLine` works on the text so far. -/
def readChunks (onLine : JsStr → JsStr → Run JsStr) (ending : Option Thrown) :
    List (List UInt8) → List (List UInt8) → JsStr → JsStr → Run JsStr
  | _, [], _, full => do
    let _ ← read runtime (match ending with
      | none => .ok none
      | some e => .error e)
    return full
  | earlier, value :: rest, buffer, full => do
    let _ ← read runtime (.ok (some value))
    let (lines, buffer) := splitLines (buffer ++ runtime.decode earlier value)
    let full ← lines.foldlM onLine full
    readChunks onLine ending (earlier ++ [value]) rest buffer full

def consumeLines (res : Response) (onLine : JsStr → JsStr → Run JsStr) (full : JsStr) :
    Run JsStr :=
  match res.body with
  | none => throw (.error (js "Empty response body from AI provider."))
  | some stream => readChunks runtime onLine stream.ending [] stream.chunks [] full

/-- What a line adds to the text so far, if anything; exceptions of `onChunk` are swallowed with
those of malformed lines. -/
def onLine (next : JsStr → JsStr → Option JsStr) (onChunk : JsStr → Run Unit) (full line : JsStr) :
    Run JsStr :=
  match next full line with
  | none => pure full
  | some full => do
    let _ ← attempt (onChunk full)
    return full

/-- `full += value`, unless the value has no text. -/
def append (full : JsStr) (value : JsValue) : Option JsStr :=
  match textOf runtime value with
  | .ok text => some (full ++ text)
  | .error _ => none

/-- The payload of a server-sent event. -/
def dataOf (line : JsStr) : Option JsStr :=
  if (js "data: ").isPrefixOf line then some (trim (line.drop 6)) else none

def Gemini.next (full line : JsStr) : Option JsStr := do
  let raw ← dataOf line
  let frame ← runtime.parse raw
  let text := ((((frame.property (js "candidates")).first.property (js "content")).property
    (js "parts")).first.property (js "text"))
  if text.truthy then append runtime full text else none

def Anthropic.next (full line : JsStr) : Option JsStr := do
  let raw ← dataOf line
  let event ← runtime.parse raw
  let delta := event.property (js "delta")
  if (event.property (js "type")).asString = some (js "content_block_delta") ∧
      (delta.property (js "type")).asString = some (js "text_delta") then
    append runtime full (delta.property (js "text"))
  else none

def OpenAICompatible.next (full line : JsStr) : Option JsStr := do
  let raw ← dataOf line
  if raw = js "[DONE]" then none
  else
    let frame ← runtime.parse raw
    let choice := (frame.property (js "choices")).first
    let delta := (choice.property (js "delta")).property (js "content")
    if delta.truthy then append runtime full delta else none

def Ollama.next (full line : JsStr) : Option JsStr :=
  if trim line = [] then none
  else do
    let frame ← runtime.parse line
    let text := (frame.property (js "message")).property (js "content")
    if text.truthy then append runtime full text else none

/-! ### Calls -/

/-- A response that is ok, or what is said of one that is not. -/
def exchange (request : Except Thrown FetchRequest) (describe : Response → Run JsStr) :
    Run Response := do
  let request ← orThrow request
  let res ← fetchWithRetry runtime request
  if res.ok then return res
  else
    let message ← describe res
    throw (.error message)

/-- One streaming call: the request, the message of a response that is not ok, and the lines. -/
def streamLines (request : Except Thrown FetchRequest) (describe : Response → Run JsStr)
    (next : JsStr → JsStr → Option JsStr) (onChunk : JsStr → Run Unit) : Run JsStr := do
  let res ← exchange runtime request describe
  consumeLines runtime res (onLine next onChunk) []

/-- `data[key]`, which throws where there is no value. -/
def member (data : JsValue) (key : JsStr) : Except Thrown JsValue :=
  if data.isNullish then .error (.error (runtime.nullMessage key)) else .ok (data.property key)

/-- One call without a stream: the answer is some part of one property of the body. -/
def completeJson (request : Except Thrown FetchRequest) (describe : Response → Run JsStr)
    (key : JsStr) (part : JsValue → JsValue) : Run JsValue := do
  let res ← exchange runtime request describe
  let data ← readJson runtime res
  let value ← orThrow (member runtime data key)
  return if (part value).isNullish then .string [] else part value

def Ollama.describe (res : Response) : Run JsStr :=
  return js "Ollama error: " ++ httpStatusText res.status ++ js ". Is Ollama running?"

def openaiUrl : JsStr := js "https://api.openai.com/v1/chat/completions"

def groqUrl : JsStr := js "https://api.groq.com/openai/v1/chat/completions"

section

variable (cfg : ProviderCallConfig) (messages : List ChatMessage) (onChunk : JsStr → Run Unit)
variable (options : RequestOptions)

def completeGemini : Run JsValue :=
  completeJson runtime (Gemini.completeRequest runtime cfg messages options)
    (describeHttpError runtime) (js "candidates") fun candidates =>
      ((candidates.first.property (js "content")).property (js "parts")).first.property (js "text")

def streamGemini : Run JsStr :=
  streamLines runtime (Gemini.streamRequest runtime cfg messages options)
    (describeHttpError runtime) (Gemini.next runtime) onChunk

def completeAnthropic : Run JsValue :=
  completeJson runtime (.ok (Anthropic.request cfg messages options false))
    (describeHttpError runtime) (js "content") fun content => content.first.property (js "text")

def streamAnthropic : Run JsStr :=
  streamLines runtime (.ok (Anthropic.request cfg messages options true))
    (describeHttpError runtime) (Anthropic.next runtime) onChunk

def completeOpenAICompatible (baseUrl : JsStr) : Run JsValue :=
  completeJson runtime (.ok (OpenAICompatible.request cfg messages options baseUrl false))
    (describeHttpError runtime) (js "choices") fun choices =>
      (choices.first.property (js "message")).property (js "content")

def streamOpenAICompatible (baseUrl : JsStr) : Run JsStr :=
  streamLines runtime (.ok (OpenAICompatible.request cfg messages options baseUrl true))
    (describeHttpError runtime) (OpenAICompatible.next runtime) onChunk

def completeOllama : Run JsValue :=
  completeJson runtime (Ollama.request runtime cfg messages options false) Ollama.describe
    (js "message") fun message => message.property (js "content")

def streamOllama : Run JsStr :=
  streamLines runtime (Ollama.request runtime cfg messages options true) Ollama.describe
    (Ollama.next runtime) onChunk

def completeOne : Run JsValue :=
  match cfg.provider with
  | .gemini => completeGemini runtime cfg messages options
  | .anthropic => completeAnthropic runtime cfg messages options
  | .ollama => completeOllama runtime cfg messages options
  | .openai => completeOpenAICompatible runtime cfg messages options openaiUrl
  | .groq => completeOpenAICompatible runtime cfg messages options groqUrl

def streamOne : Run JsStr :=
  match cfg.provider with
  | .gemini => streamGemini runtime cfg messages onChunk options
  | .anthropic => streamAnthropic runtime cfg messages onChunk options
  | .ollama => streamOllama runtime cfg messages onChunk options
  | .openai => streamOpenAICompatible runtime cfg messages onChunk options openaiUrl
  | .groq => streamOpenAICompatible runtime cfg messages onChunk options groqUrl

end

/-! ### Falling back -/

structure FailedAttempt where
  provider : ProviderId
  error : Option JsStr
  deriving DecidableEq

/-- What `complete` and `streamComplete` throw. -/
inductive AgentError
  | noProviderConfigured
  | allProvidersExhausted (attempts : List FailedAttempt)
  | rethrown (e : Thrown)
  | typeError
  deriving DecidableEq

/-- The message of the error quotes that of every attempt. -/
def exhaustedError (attempts : List FailedAttempt) : AgentError :=
  if attempts.all (·.error.isSome) then .allProvidersExhausted attempts else .typeError

/-- The loop of `complete` over the candidates from the `i`-th on. -/
def completeFrom (messages : List ChatMessage) (options : RequestOptions) :
    ℕ → List ProviderCallConfig → List FailedAttempt → EStateM AgentError Machine JsValue
  | _, [], attempts => throw (exhaustedError attempts)
  | i, candidate :: rest, attempts => do
    modify fun m => { m with current := i }
    let result ← attempt (completeOne runtime candidate messages options)
    note (.completed result)
    match result with
    | .ok text => return text
    | .error .nullish => throw .typeError
    | .error (.value message) =>
      completeFrom messages options (i + 1) rest (attempts ++ [⟨candidate.provider, message⟩])

/-- The callback that is handed to a provider. -/
def deliver (text : JsStr) : Run Unit := do
  let m ← get
  set { m with startedStreaming := true }
  note (.chunk text)
  match runtime.onChunk m.log text with
  | none => pure ()
  | some e => throw e

def fallback (messages : List ChatMessage) (options : RequestOptions) :
    ℕ → List ProviderCallConfig → List FailedAttempt → EStateM AgentError Machine JsStr
  | _, [], attempts => throw (exhaustedError attempts)
  | i, candidate :: rest, attempts => do
    modify fun m => { m with current := i, startedStreaming := false }
    let result ← attempt (streamOne runtime candidate messages (deliver runtime) options)
    note (.settled result)
    match result with
    | .ok text => return text
    | .error e =>
      if (← get).startedStreaming then throw (.rethrown e)
      else
        match e with
        | .nullish => throw .typeError
        | .value message =>
          fallback messages options (i + 1) rest (attempts ++ [⟨candidate.provider, message⟩])

inductive Prompt
  | text (prompt : JsStr)
  | messages (messages : List ChatMessage)

def messagesOf : Prompt → List ChatMessage
  | .text prompt => [⟨.user, prompt⟩]
  | .messages messages => messages

def complete (cfg : AgentConfig) (prompt : Prompt) (options : RequestOptions) :
    EStateM AgentError Machine JsValue := do
  let candidates := candidatesOf cfg
  if candidates = [] then throw .noProviderConfigured
  else completeFrom runtime (messagesOf prompt) options 0 candidates []

def streamComplete (cfg : AgentConfig) (prompt : Prompt) (options : RequestOptions) :
    EStateM AgentError Machine JsStr := do
  let candidates := candidatesOf cfg
  if candidates = [] then throw .noProviderConfigured
  else fallback runtime (messagesOf prompt) options 0 candidates []

end ModelDispatcher.BrowserAgent
