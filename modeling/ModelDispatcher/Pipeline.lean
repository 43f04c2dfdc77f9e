import ModelDispatcher.Payloads
import ModelDispatcher.Wiring

/-!
The dispatch pipeline of the web template: guard, decode, dispatch, and map the outcome to a
status and a JSON body.

The verifiers return claims or raise their declared error, and `json.loads` returns a value or
raises a `ValueError`; the three are parameters.
-/

namespace ModelDispatcher.Pipeline

open Lib.Text Lib.Json DataTypes Exceptions Config Machines Orchestration Gateway Payloads Byok
open Wiring

/-! ### The guards -/

structure AppCheckClaims where
  appId : PyStr
  subject : PyStr

structure AppCheckError where
  message : PyStr

structure AuthClaims where
  uid : Option PyStr

structure AuthError where
  message : PyStr

abbrev AppCheckVerifier := Option PyStr → Except AppCheckError AppCheckClaims
abbrev AuthVerifier := Option PyStr → Except AuthError AuthClaims

/-! ### The body -/

abbrev Bytes := List UInt8

/-- `json.loads`: a value, or a `ValueError` with its text. -/
abbrev JsonLoads := Bytes → Except PyStr JSONValue

/-- `payload.get(key)`. -/
def getKey (payload : JSONObject) (key : PyStr) : Option JSONValue :=
  (payload.find? (·.1 = key)).map Prod.snd

def defaultTenantId : TenantId := py "anonymous"

/-- The declared tenant id, if it is a string that is not empty. -/
def declaredTenant : Option JSONValue → TenantId
  | some (.str s) => if s ≠ [] then s else defaultTenantId
  | _ => defaultTenantId

def userRequest (prompt : PyStr) (tenant : TenantId) : CompletionRequest where
  messages := [{ role := .user, content := some prompt }]
  tenant := tenant

/-- The request of a payload and the tenant it declares, or the text of a `ValueError`. -/
def parseDispatchRequest (payload : JSONObject) : Except PyStr (CompletionRequest × TenantId) :=
  let refusal := py "field 'prompt' must be a non-empty string"
  match getKey payload (py "prompt") with
  | some (.str prompt) =>
    if strip prompt = [] then .error refusal
    else
      let resolved := declaredTenant (getKey payload (py "tenant_id"))
      .ok (userRequest prompt resolved, resolved)
  | _ => .error refusal

/-- `raw_body or b"{}"`. -/
def orEmptyObject (rawBody : Bytes) : Bytes := if rawBody = [] then [0x7B, 0x7D] else rawBody

/-- Decode the body and validate it; a `ValueError` on the way is kept as its text. -/
def decodeRequest (loads : JsonLoads) (rawBody : Bytes) :
    Except PyStr (CompletionRequest × TenantId) :=
  match loads (orEmptyObject rawBody) with
  | .error detail => .error detail
  | .ok (.dict fields) => parseDispatchRequest fields
  | .ok _ => .error (py "request body must be a JSON object")

/-! ### The response -/

def complexityName : TaskComplexity → PyStr
  | .trivial => py "TRIVIAL"
  | .simple => py "SIMPLE"
  | .moderate => py "MODERATE"
  | .complex => py "COMPLEX"

def stopReasonValue : StopReason → PyStr
  | .completed => py "completed"
  | .maxIterations => py "max_iterations"
  | .deadline => py "deadline"
  | .error => py "error"

/-- A string or `None`. -/
def optional : Option PyStr → JSONValue
  | some s => .str s
  | none => .null

def serialiseAttempt (attempt : AttemptRecord) : JSONValue :=
  .dict [(py "provider", .str attempt.providerName),
    (py "error", optional (attempt.errorClass.map ErrorClass.value))]

def serialiseStep (step : StepResult) : JSONValue :=
  .dict [(py "message", optional step.message.content),
    (py "usage", .int step.usage.totalTokens),
    (py "attempts", .list (step.attempts.map serialiseAttempt))]

/-- The JSON shape of a completed dispatch. -/
def serialiseResult (result : RunResult) (complexity : PyStr) : JSONObject :=
  [(py "final", optional result.finalMessage.content),
    (py "stop_reason", .str (stopReasonValue result.stopReason)),
    (py "complexity", .str complexity),
    (py "usage", .dict [(py "prompt", .int result.usage.promptTokens),
      (py "completion", .int result.usage.completionTokens),
      (py "total", .int result.usage.totalTokens)]),
    (py "steps", .list (result.steps.map serialiseStep))]

/-! ### The pipeline -/

/-- The collaborators of `run_dispatch`, and what they talk to. -/
structure Collaborators where
  loads : JsonLoads
  repr : PyStr → PyStr
  verifier : AppCheckVerifier
  authVerifier : AuthVerifier
  gatewayFactory : ModelGateway
  tenantFactory : TenantId → TenantContext
  triage : CompletionRequest → TaskComplexity
  world : World

/-- `claims.uid or declared_tenant_id`. -/
def tenantId (claims : AuthClaims) (declared : TenantId) : TenantId :=
  if truthy claims.uid then claims.uid.getD [] else declared

/-- `try: x` with `except ModelDispatcherError`. -/
def catchLibrary {α : Type} (x : Run α) : Run (Except ModelDispatcherError α) := fun s =>
  match x.run s with
  | .ok a t => .ok (.ok a) t
  | .error (.library e) t => .ok (.error e) t
  | .error e t => .error e t

/-- Dispatch a decoded request for a tenant and map the outcome. -/
def invoke (c : Collaborators) (request : CompletionRequest) (tenant : TenantContext) :
    Run (ℕ × JSONObject) := do
  let complexity := complexityName (c.triage request)
  match ← catchLibrary (c.gatewayFactory.dispatch c.world request tenant none) with
  | .error e => return (httpStatus e, toPayload c.repr e)
  | .ok result => return (200, serialiseResult result complexity)

/-- One dispatch: the status and the JSON body. -/
def runDispatch (c : Collaborators) (appCheckToken authorizationHeader : Option PyStr)
    (rawBody : Bytes) : Run (ℕ × JSONObject) :=
  match c.verifier appCheckToken with
  | .error _ => return (403, [(py "error", .str (py "app_check_failed"))])
  | .ok _ => match c.authVerifier authorizationHeader with
    | .error _ => return (401, [(py "error", .str (py "unauthenticated"))])
    | .ok claims => match decodeRequest c.loads rawBody with
      | .error detail =>
        return (400, [(py "error", .str (py "bad_request")), (py "detail", .str detail)])
      | .ok (request, declared) =>
        invoke c request (c.tenantFactory (tenantId claims declared))

/-- The collaborators with the default gateway, tenant factory and triage. -/
def defaults (lower : PyStr → PyStr) (vendors : Vendors) (env : Environ)
    (loads : JsonLoads) (repr : PyStr → PyStr) (verifier : AppCheckVerifier)
    (authVerifier : AuthVerifier) (world : World) : Collaborators where
  loads := loads
  repr := repr
  verifier := verifier
  authVerifier := authVerifier
  gatewayFactory := buildGateway lower vendors env
  tenantFactory := buildTenant
  triage := defaultScorer lower
  world := world

/-- What a dispatch over a quota state hands back, and the state it leaves. -/
def served (c : Collaborators) (appCheckToken authorizationHeader : Option PyStr) (rawBody : Bytes)
    (q : Quota.QuotaState) : EStateM.Result PyException Machine (ℕ × JSONObject) :=
  (runDispatch c appCheckToken authorizationHeader rawBody).run { quota := q }

/-- Both guards let the caller through. -/
def Guarded (c : Collaborators) (appCheckToken authorizationHeader : Option PyStr) : Prop :=
  (∃ claims, c.verifier appCheckToken = .ok claims) ∧
    ∃ claims, c.authVerifier authorizationHeader = .ok claims

/-- The body decodes to an object with a prompt that is not blank. -/
def Prompted (loads : JsonLoads) (rawBody : Bytes) (prompt : PyStr) : Prop :=
  ∃ payload, loads (orEmptyObject rawBody) = .ok (.dict payload) ∧
    getKey payload (py "prompt") = some (.str prompt) ∧ strip prompt ≠ []

/-! ### Exceptions of the library are caught -/

/-- The ways a program runs under `catchLibrary`. -/
inductive Caught {α : Type} : EStateM.Result PyException Machine α →
    EStateM.Result PyException Machine (Except ModelDispatcherError α) → Prop
  | returned (a : α) (t : Machine) : Caught (.ok a t) (.ok (.ok a) t)
  | caught (e : ModelDispatcherError) (t : Machine) :
      Caught (.error (.library e) t) (.ok (.error e) t)
  | escaped {e : PyException} (t : Machine) (he : e.isLibrary = false) :
      Caught (.error e t) (.error e t)

lemma catchLibrary_cases {α : Type} (x : Run α) (s : Machine) :
    Caught (x.run s) ((catchLibrary x).run s) := by
  change Caught (x.run s) (catchLibrary x s)
  unfold catchLibrary
  rcases x.run s with ⟨a, t⟩ | ⟨e, t⟩
  · exact .returned a t
  · cases e with
    | library e => exact .caught e t
    | builtin e => exact .escaped t rfl
    | vendor e => exact .escaped t rfl

/-! ### Parsing -/

section

variable {payload : JSONObject} {loads : JsonLoads} {rawBody : Bytes}
variable {request : CompletionRequest} {declared : TenantId}

/-- The request of a payload is its prompt, for the tenant it declares. -/
lemma parseDispatchRequest_ok_iff :
    parseDispatchRequest payload = .ok (request, declared) ↔
      ∃ prompt, getKey payload (py "prompt") = some (.str prompt) ∧ strip prompt ≠ [] ∧
        declared = declaredTenant (getKey payload (py "tenant_id")) ∧
        request = userRequest prompt declared := by
  unfold parseDispatchRequest
  dsimp only
  split
  · rename_i prompt hprompt
    by_cases hblank : strip prompt = []
    · simp [hprompt, hblank]
    · rw [if_neg hblank]
      constructor
      · intro h
        cases h
        exact ⟨prompt, hprompt, hblank, rfl, rfl⟩
      · rintro ⟨_, h, -, rfl, rfl⟩
        rw [hprompt] at h
        cases h
        rfl
  · rename_i hother
    constructor
    · intro h
      cases h
    · rintro ⟨prompt, h, -⟩
      exact absurd h (hother prompt)

lemma decodeRequest_ok_iff :
    decodeRequest loads rawBody = .ok (request, declared) ↔
      ∃ payload, loads (orEmptyObject rawBody) = .ok (.dict payload) ∧
        parseDispatchRequest payload = .ok (request, declared) := by
  unfold decodeRequest
  split
  · simp_all
  · simp_all
  · rename_i v hother hvalue
    constructor
    · intro h
      cases h
    · rintro ⟨payload, hloads, -⟩
      rw [hvalue] at hloads
      cases hloads
      exact absurd rfl (hother payload)

/-- A declared tenant id is never empty. -/
lemma declaredTenant_ne_nil (v : Option JSONValue) : declaredTenant v ≠ [] := by
  unfold declaredTenant
  split
  · split_ifs with h
    · exact h
    · simp [defaultTenantId, py]
  · simp [defaultTenantId, py]

lemma tenantId_ne_nil (claims : AuthClaims) (hdeclared : declared ≠ []) :
    tenantId claims declared ≠ [] := by
  unfold tenantId
  split_ifs with h
  · cases huid : claims.uid with
    | none => simp [huid, truthy] at h
    | some uid => simpa [huid, truthy] using h
  · exact hdeclared

/-- A body has one prompt. -/
lemma Prompted.unique {prompt prompt' : PyStr} (h : Prompted loads rawBody prompt)
    (h' : Prompted loads rawBody prompt') : prompt = prompt' := by
  obtain ⟨payload, hloads, hprompt, -⟩ := h
  obtain ⟨payload', hloads', hprompt', -⟩ := h'
  rw [hloads] at hloads'
  cases hloads'
  rw [hprompt] at hprompt'
  cases hprompt'
  rfl

/-- A decoded request is the prompt of its body, for a tenant that is not empty. -/
lemma prompted_of_decodeRequest (h : decodeRequest loads rawBody = .ok (request, declared)) :
    ∃ prompt, Prompted loads rawBody prompt ∧ request = userRequest prompt declared ∧
      declared ≠ [] := by
  obtain ⟨payload, hloads, hparse⟩ := decodeRequest_ok_iff.mp h
  obtain ⟨prompt, hprompt, hblank, rfl, rfl⟩ := parseDispatchRequest_ok_iff.mp hparse
  exact ⟨prompt, ⟨payload, hloads, hprompt, hblank⟩, rfl, declaredTenant_ne_nil _⟩

lemma decodeRequest_of_prompted {prompt : PyStr} (h : Prompted loads rawBody prompt) :
    ∃ v, decodeRequest loads rawBody = .ok v := by
  obtain ⟨payload, hloads, hprompt, hblank⟩ := h
  exact ⟨(_, _), decodeRequest_ok_iff.mpr ⟨payload, hloads,
    parseDispatchRequest_ok_iff.mpr ⟨prompt, hprompt, hblank, rfl, rfl⟩⟩⟩

end

/-- The ways a dispatch goes: turned away by a guard or for its body, or invoked. -/
inductive Handled (c : Collaborators) (appCheckToken authorizationHeader : Option PyStr)
    (rawBody : Bytes) : Prop
  | turnedAway {response : ℕ × JSONObject}
      (hrun : runDispatch c appCheckToken authorizationHeader rawBody = pure response)
      (hnone : Guarded c appCheckToken authorizationHeader →
        ∀ prompt, ¬ Prompted c.loads rawBody prompt)
  | invoked {claims : AuthClaims} {prompt : PyStr} {declared : TenantId}
      (hrun : runDispatch c appCheckToken authorizationHeader rawBody =
        invoke c (userRequest prompt declared) (c.tenantFactory (tenantId claims declared)))
      (hguarded : Guarded c appCheckToken authorizationHeader)
      (hprompted : Prompted c.loads rawBody prompt) (hdeclared : declared ≠ [])

lemma runDispatch_cases (c : Collaborators) (appCheckToken authorizationHeader : Option PyStr)
    (rawBody : Bytes) : Handled c appCheckToken authorizationHeader rawBody := by
  cases happ : c.verifier appCheckToken with
  | error e =>
    refine .turnedAway (by rw [runDispatch, happ]) ?_
    rintro ⟨⟨claims, hok⟩, -⟩
    rw [happ] at hok
    cases hok
  | ok app =>
    cases hauth : c.authVerifier authorizationHeader with
    | error e =>
      refine .turnedAway (by rw [runDispatch, happ, hauth]) ?_
      rintro ⟨-, claims, hok⟩
      rw [hauth] at hok
      cases hok
    | ok claims =>
      cases hdecode : decodeRequest c.loads rawBody with
      | error detail =>
        refine .turnedAway (by rw [runDispatch, happ, hauth, hdecode]) ?_
        intro _ prompt hprompt
        obtain ⟨v, hok⟩ := decodeRequest_of_prompted hprompt
        rw [hdecode] at hok
        cases hok
      | ok v =>
        obtain ⟨request, declared⟩ := v
        obtain ⟨prompt, hprompted, rfl, hdeclared⟩ := prompted_of_decodeRequest hdecode
        exact .invoked (by rw [runDispatch, happ, hauth, hdecode])
          ⟨⟨app, happ⟩, claims, hauth⟩ hprompted hdeclared

/-! ### A small setting -/

namespace Sample

def bytes (s : String) : Bytes := s.toList.map fun c => c.toNat.toUInt8

def vendors : Vendors where
  gemini := fun model tier _ => MockProvider.create model tier
  openAI := fun model tier _ => MockProvider.create model tier
  anthropic := fun model tier _ => MockProvider.create model tier

/-- `NoopAppCheckVerifier`. -/
def anyApp : AppCheckVerifier := fun _ => .ok ⟨py "dev-bypass", py "dev-bypass"⟩

end Sample

end ModelDispatcher.Pipeline
