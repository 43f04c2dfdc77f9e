import ModelDispatcher.EventBus
import ModelDispatcher.Lib.Dicts
import ModelDispatcher.Lib.Promises

/-!
The TypeScript client of the gateway: the interceptor chain around `fetch`, the decoder of the
final response, and the handoffs that are published on the event bus.

Whatever the client is handed (token providers, scheduler, `fetch`, who listens on the bus) may act
on everything that happened before, so each is a function of the log. Numbers are doubles. The loop
of retries and the walk over the listeners need not end; the fuel bounds their rounds.
-/

namespace ModelDispatcher.GatewayClient

open Lib.Text Lib.Binary64 Lib.Dicts Lib.Js Lib.Promises EventBus

/-! ### Requests and responses -/

structure GatewayRequestConfig where
  url : JsStr
  method : JsStr
  headers : PyDict JsStr JsStr
  timeoutMs : ℕ

/-- The arguments of `fetch`. -/
structure FetchRequest where
  url : JsStr
  method : JsStr
  headers : PyDict JsStr JsStr
  body : Option JsStr

structure Response where
  status : ℕ
  deriving DecidableEq

def Response.ok (response : Response) : Bool := 200 ≤ response.status && response.status ≤ 299

/-! ### What happens during a dispatch -/

/-- What one `fetch` does, and whether the deadline passes before it settles. -/
structure Transport where
  timedOut : Bool
  response : Settled Thrown Response

inductive Event
  | token (header : JsStr) (token : Settled Thrown (Option JsStr))
  | serialised (text : Settled Thrown (Option JsStr))
  | fetched (request : FetchRequest) (transport : Transport)
  | slept (ms : Double) (timer : Settled Thrown Unit)
  | bodyRead (text : Settled Thrown JsStr)
  | published (event : HandoffEvent) (bus : GatewayEventBus ℕ)
  | delivered (called : List ℕ) (thrown : Option Thrown)

abbrev Client := Async Thrown Event

abbrev TokenProvider := List Event → Settled Thrown (Option JsStr)

/-- A bus with the listeners that are subscribed when something is published on it. -/
abbrev Bus := List Event → GatewayEventBus ℕ

/-- What the platform supplies. -/
structure Runtime where
  fetch : List Event → FetchRequest → Transport
  setTimeout : List Event → Double → Settled Thrown Unit
  random : List Event → Double
  text : List Event → Settled Thrown JsStr
  parse : JsStr → Option JsValue

/-- A request body, as what `JSON.stringify` makes of it: a text, `undefined`, or an exception. -/
abbrev Body := List Event → Except Thrown (Option JsStr)

/-! ### Interceptors -/

abbrev Send := GatewayRequestConfig → Client Response

structure Interceptor where
  intercept : GatewayRequestConfig → Send → Client Response

def compose (interceptors : List Interceptor) (terminal : Send) : Send :=
  interceptors.foldr (fun interceptor next config => interceptor.intercept config next) terminal

/-- A token provider is awaited, and a token it has is attached under the header. -/
def tokenInterceptor (header : JsStr) (value : JsStr → JsStr) (provider : TokenProvider) :
    Interceptor where
  intercept config next := do
    let promise := provider (← get)
    note (.token header promise)
    match ← await promise with
    | none | some [] => next config
    | some token => next { config with headers := config.headers.set header (value token) }

def appCheckHeader : JsStr := js "X-Firebase-AppCheck"

def appCheckInterceptor : TokenProvider → Interceptor := tokenInterceptor appCheckHeader id

def authorizationHeader : JsStr := js "Authorization"

def authInterceptor : TokenProvider → Interceptor :=
  tokenInterceptor authorizationHeader (js "Bearer " ++ ·)

/-! ### Retries -/

structure RetryPolicy where
  maxRetries : Double
  baseDelayMs : Double
  maxDelayMs : Double
  jitter : Bool
  retryableStatuses : List ℕ

def defaultRetryPolicy : RetryPolicy where
  maxRetries := ofRat 3
  baseDelayMs := ofRat 250
  maxDelayMs := ofRat 4000
  jitter := true
  retryableStatuses := [500, 502, 503, 504]

def backoffDelayMs (policy : RetryPolicy) (attempt : ℕ) (random : Double) : Double :=
  let uncapped := policy.baseDelayMs.mul (ofRat (2 ^ attempt))
  let capped := mathMin policy.maxDelayMs uncapped
  if policy.jitter then mathFloor (random.mul capped) else capped

/-- `attempt += 1`: the double after `2 ^ 53` is not reached by adding one. -/
def increment (attempt : ℕ) : ℕ := if attempt < 2 ^ 53 then attempt + 1 else attempt

/-- The condition of the loop. -/
def RetryPolicy.retries (policy : RetryPolicy) (attempt : ℕ) (response : Response) : Bool :=
  policy.retryableStatuses.contains response.status && (ofRat attempt).lt policy.maxRetries

structure RetryOptions where
  policy : Option RetryPolicy := none
  scheduler : Option (List Event → Double → Settled Thrown Unit) := none
  random : Option (List Event → Double) := none

section

variable (runtime : Runtime)

def RetryOptions.sleep (options : RetryOptions) (policy : RetryPolicy) (attempt : ℕ) :
    Client Unit := do
  let log ← get
  let ms := backoffDelayMs policy attempt ((options.random.getD runtime.random) log)
  let timer := (options.scheduler.getD runtime.setTimeout) log ms
  note (.slept ms timer)
  await timer

def retryLoop (options : RetryOptions) (policy : RetryPolicy) (config : GatewayRequestConfig)
    (next : Send) : ℕ → ℕ → Response → Client Response
  | 0, attempt, response =>
    if policy.retries attempt response then throw .running else pure response
  | fuel + 1, attempt, response =>
    if policy.retries attempt response then do
      options.sleep runtime policy attempt
      let response ← next config
      retryLoop options policy config next fuel (increment attempt) response
    else pure response

def retryInterceptor (options : RetryOptions) (fuel : ℕ) : Interceptor where
  intercept config next := do
    let policy := options.policy.getD defaultRetryPolicy
    let response ← next config
    retryLoop runtime options policy config next fuel 0 response

/-! ### The deadline of an attempt -/

def timeoutMessage (timeoutMs : ℕ) : JsStr :=
  js "request exceeded " ++ ofNat timeoutMs ++ js "ms timeout"

/-- Whether the timer of the attempt that has just ended went off during it. -/
def timedOut (log : List Event) : Bool :=
  match log.getLast? with
  | some (.fetched _ transport) => transport.timedOut
  | _ => false

def timeoutInterceptor : Interceptor where
  intercept config next := do
    match ← attempt (next config) with
    | .ok response => pure response
    | .error e =>
      if timedOut (← get) then throw (.rejected (.timeoutError (timeoutMessage config.timeoutMs)))
      else throw (.rejected e)

def terminal (fetch : List Event → FetchRequest → Transport) (body : Body) :
    Send := fun config => do
  let text : Settled Thrown (Option JsStr) := match body (← get) with
    | .ok text => .fulfilled text
    | .error e => .rejected e
  note (.serialised text)
  let request : FetchRequest :=
    { url := config.url, method := config.method, headers := config.headers, body := ← await text }
  let transport := fetch (← get) request
  note (.fetched request transport)
  await transport.response

/-! ### Publishing -/

/-- The outcome of a call that may throw. -/
def called : Option Thrown → Settled Thrown Unit
  | none => .fulfilled ()
  | some e => .rejected e

/-- `bus.emit("handoff", event)`. -/
def publish (bus : Bus) (event : HandoffEvent) (fuel : ℕ) : Client Unit := do
  let bus := bus (← get)
  note (.published event bus)
  match bus.emit event fuel with
  | none => throw .running
  | some (d, thrown) =>
    note (.delivered d.called thrown)
    await (called thrown)

/-! ### Decoding a response -/

/-- The parsed body, or `undefined` where it is empty or no JSON text. -/
def readJson : Client JsValue := do
  let promise := runtime.text (← get)
  note (.bodyRead promise)
  match ← await promise with
  | [] => pure .undefined
  | text => pure ((runtime.parse text).getD .undefined)

/-- `isHandoffPayload`, with the handoff that is made of a body that passes. -/
def handoffOf (body : JsValue) : Option Handoff :=
  match (body.property (js "error")).asString, (body.property (js "provider")).asString,
      (body.property (js "action")).asString with
  | some error, some provider, some action =>
    if known : action ∈ handoffActions then
      let detail := body.property (js "detail")
      some ⟨error, provider, action, known, if detail.isUndefined then none else some detail⟩
    else none
  | _, _, _ => none

def toGatewayError (body : JsValue) (status : ℕ) : GatewayError :=
  match (body.property (js "error")).asString with
  | some error => ⟨error, (body.property (js "detail")).asString⟩
  | none => ⟨js "unexpected_response", some (js "HTTP " ++ ofNat status)⟩

def decodeOutcome (response : Response) (bus : Bus) (fuel : ℕ) : Client DispatchOutcome := do
  let body ← readJson runtime
  if response.ok then return .ok body
  match handoffOf body with
  | some handoff =>
    publish bus { status := response.status, handoff } fuel
    return .handoff response.status handoff
  | none => return .error response.status (toGatewayError body response.status)

/-! ### The client -/

structure GatewayClientOptions where
  endpoint : Option JsStr := none
  timeoutMs : Option ℕ := none
  appCheckTokenProvider : Option TokenProvider := none
  authTokenProvider : Option TokenProvider := none
  retry : Option RetryOptions := none
  bus : Option Bus := none
  fetchImpl : Option (List Event → FetchRequest → Transport) := none

def defaultEndpoint : JsStr := js "/api/gateway"

def defaultTimeoutMs : ℕ := 15000

/-- What `String(error)` throws of a value without a primitive. -/
def notPrintable : Thrown := .typeError (js "Cannot convert object to primitive value")

def classifyNetworkError (e : Thrown) : Client NetworkError :=
  match e with
  | .timeoutError message => return ⟨.timeout, message, e⟩
  | .typeError message => return ⟨.offline, message, e⟩
  | .error message => return ⟨.unknown, message, e⟩
  | .other (some text) => return ⟨.unknown, text, e⟩
  | .other none => throw (.rejected notPrintable)

namespace GatewayClientOptions

variable (options : GatewayClientOptions)

/-- A fresh bus has no listeners. -/
def theBus : Bus := options.bus.getD fun _ => { listeners := .empty, listener := fun _ _ _ => {} }

def chain (fuel : ℕ) : List Interceptor :=
  (options.appCheckTokenProvider.map appCheckInterceptor).toList ++
    (options.authTokenProvider.map authInterceptor).toList ++
    [retryInterceptor runtime (options.retry.getD {}) fuel, timeoutInterceptor]

def send (body : Body) (fuel : ℕ) : Send :=
  compose (options.chain runtime fuel) (terminal (options.fetchImpl.getD runtime.fetch) body)

/-- The headers of the call: the content type, and the caller's own over it. -/
def callHeaders (headers : List (JsStr × JsStr)) : PyDict JsStr JsStr :=
  headers.foldl (fun d h => d.set h.1 h.2)
    ((∅ : PyDict JsStr JsStr).set (js "content-type") (js "application/json"))

/-- `dispatch` of a client built with the options. -/
def dispatch (body : Body) (headers : List (JsStr × JsStr)) (fuel : ℕ) :
    Client DispatchOutcome := do
  let config : GatewayRequestConfig :=
    { url := options.endpoint.getD defaultEndpoint
      method := js "POST"
      headers := callHeaders headers
      timeoutMs := options.timeoutMs.getD defaultTimeoutMs }
  match ← attempt (options.send runtime body fuel config) with
  | .error e => return .network (← classifyNetworkError e)
  | .ok response => decodeOutcome runtime response options.theBus fuel

end GatewayClientOptions

end

end ModelDispatcher.GatewayClient
