import ModelDispatcher.Machines

/-!
The links of the fallback chain for one model invocation: perimeter, credentials, quota and
the invocation itself with key rotation, retries and rate-limit failover.
-/

namespace ModelDispatcher.Handlers

open Lib.Text Lib.Binary64 Lib.Floats DataTypes Exceptions Config Providers Quota Security Machines

inductive HandlerOutcome
  /-- `CONTINUE`: hand the context to the next link. -/
  | proceed
  | success
  | fallback
  | stop
  deriving DecidableEq

/-- The part of the context the handlers only read; the executor alone drops candidates. -/
structure InvocationContext where
  request : CompletionRequest
  tenant : TenantContext
  candidates : List ModelProvider

abbrev FallbackHandler := InvocationContext → Run HandlerOutcome

/-! ### Failure classes -/

def isRetryable (c : ErrorClass) : Bool := c = .transient
def isFallbackWorthy (c : ErrorClass) : Bool := c = .rateLimit || c = .quota

/-! ### Perimeter and credentials -/

def perimeterHandler (settings : SecuritySettings) : FallbackHandler := fun c => do
  let result := PerimeterValidator.validate settings c.request c.tenant
  emit (.validated c.request c.tenant result)
  orRaise result
  return .proceed

def credentialHandler : FallbackHandler := fun c =>
  match c.candidates with
  | [] => return .fallback
  | provider :: _ => do
    let result := CredentialResolver.resolveCandidates c.tenant provider
    emit (.resolved provider result)
    let credentials ← orRaise (result.mapError .library)
    updateScratch fun x => { x with credentials := credentials }
    return .proceed

/-! ### Quota -/

namespace OnboardingResolver

/-- The Stage-2 handoff for a tenant that has hit its wall. -/
def escalate (tenant : TenantContext) (provider : PyStr) (rateWindow : Bool) : HandoffResponse :=
  KeyWizardHandoff.build provider (py "quota_exceeded") rateWindow
    (some (py (if tenant.isZeroSetup then
      "Free usage limit reached. Add your own API key to continue."
    else "Quota exceeded. Add or upgrade your API key to continue.")))

end OnboardingResolver

/-- A denied reservation: stay zero-setup if a free candidate is left, else hand off. -/
def onDeny (c : InvocationContext) (provider : ModelProvider) (rest : List ModelProvider)
    (decision : QuotaDecision) : Run HandlerOutcome :=
  let cheaperFreeRemaining := rest.any (·.tier = .free)
  if c.tenant.isZeroSetup && cheaperFreeRemaining then return .fallback
  else
    let rateWindow :=
      decision.breachedWindow = some .requestsPerMin || decision.breachedWindow = some .tokensPerMin
    throw (.library (.quotaExceededError
      (OnboardingResolver.escalate c.tenant provider.name rateWindow)))

def softLimitWarning (decision : QuotaDecision) : PyStr :=
  py "quota soft limit approaching for " ++
    (decision.breachedWindow.map WindowKey.name).getD (py "None")

/-- A granted reservation is kept for the commit, with a warning near the limit. -/
def noteReservation (decision : QuotaDecision) (x : Scratch) : Scratch :=
  { x with
    warnings :=
      if decision.outcome = .softLimit then x.warnings ++ [softLimitWarning decision]
      else x.warnings
    reservation := some decision }

/-- `manager.reserve(tenant, estimate, provider)`. -/
def reserve (w : World) (tenant : TenantContext) (estimate : ℤ) (provider : ModelProvider) :
    Run (Except BuiltinError QuotaDecision) := do
  let s ← get
  let result ← onQuota (QuotaManager.reserve w.monotonic tenant estimate provider.name)
  emit (.reserved provider estimate s.quota result)
  return result

/-- `manager.commit(tenant, reservation, usage)`. -/
def commit (w : World) (tenant : TenantContext) (decision : QuotaDecision) (usage : Usage) :
    Run Unit := do
  emit (.committed tenant decision usage)
  let _ ← onQuota (QuotaManager.commit w.monotonic tenant decision usage)

def quotaHandler (w : World) : FallbackHandler := fun c =>
  match c.candidates with
  | [] => return .fallback
  | provider :: rest => do
    let result ← reserve w c.tenant (provider.estimateTokens c.request) provider
    let decision ← orRaise (result.mapError .builtin)
    if decision.outcome = .deny then onDeny c provider rest decision
    else
      updateScratch (noteReservation decision)
      return .proceed

/-! ### Invocation -/

structure ModelInvocationHandler where
  maxAttempts : ℤ := 3
  backoffBase : PyFloat := ofRat (1 / 20)
  backoffCap : PyFloat := ofRat 2
  rateLimitMaxAttempts : ℤ := 3
  rateLimitMaxWait : PyFloat := ofRat 120

/-- One pooled key of the current candidate, as the loops of the handler see it. -/
structure KeySlot where
  provider : ModelProvider
  credential : Option Credential
  index : ℕ
  hasMoreCredentials : Bool
  hasMoreProviders : Bool

def KeySlot.apiKey (k : KeySlot) : Option PyStr := k.credential.bind Credential.rawKey

/-- How one attempt leaves the attempt loop. -/
inductive Attempted
  | again
  | nextKey
  | done (outcome : HandlerOutcome)

namespace ModelInvocationHandler

variable (h : ModelInvocationHandler) (w : World)

def recordAttempt (r : AttemptRecord) : Run Unit := do
  emit (.recorded r)
  updateScratch fun x => { x with attempts := x.attempts ++ [r] }

/-- `provider.complete(request, api_key=...)`. -/
def complete (c : InvocationContext) (k : KeySlot) (attempt : ℕ) : Run CallResult := do
  let s ← get
  let result := w.complete s.log k.provider c.request k.apiKey
  emit (.called ⟨k.provider, c.request, k.apiKey, k.credential, k.index, attempt⟩ result)
  return result

/-- Record success and reconcile the reservation. -/
def onSuccess (c : InvocationContext) (k : KeySlot) (response : CompletionResponse) :
    Run HandlerOutcome := do
  recordAttempt
    { providerName := k.provider.name, credentialRef := k.credential.map (·.secretRef) }
  updateScratch fun x => { x with response := some response }
  let s ← get
  match s.scratch.reservation with
  | none => return .success
  | some d =>
    commit w c.tenant d response.usage
    return .success

def terminalError (providerName : PyStr) (errorClass : ErrorClass) (exc : VendorError) :
    ModelDispatcherError :=
  if errorClass = .auth then
    .authenticationError [.text (providerName ++ py ": " ++ exc.text)]
  else
    .base [.text (providerName ++ py " failed (" ++ errorClass.value ++ py "): " ++ exc.text)]
      502 (py "provider_" ++ errorClass.value)

/-- The failure waits on the vendor's hint: a rate limit with nowhere better to go. -/
def consultsHint (k : KeySlot) (errorClass : ErrorClass) (attempt : ℕ) : Bool :=
  errorClass = .rateLimit && !k.hasMoreCredentials && !k.hasMoreProviders &&
    attempt < h.rateLimitMaxAttempts

/-- The verdict on a failure that is not retried: move on, or stop. -/
def giveUp (k : KeySlot) (errorClass : ErrorClass) (exc : VendorError) :
    Run (Option HandlerOutcome) := do
  if isFallbackWorthy errorClass || isRetryable errorClass then return some .fallback
  else if errorClass = .auth && k.hasMoreCredentials then return some .fallback
  else
    updateScratch fun x =>
      { x with error := some (terminalError k.provider.name errorClass exc) }
    return some .stop

/-- Classify a failure: `none` retries the same key, otherwise the outcome. -/
def onError (k : KeySlot) (exc : VendorError) (attempt : ℕ) : Run (Option HandlerOutcome) := do
  let errorClass := k.provider.classifyError exc
  recordAttempt
    { providerName := k.provider.name, errorClass := some errorClass, detail := some exc.text,
      credentialRef := k.credential.map (·.secretRef) }
  if isRetryable errorClass && attempt < h.maxAttempts then return none
  else if h.consultsHint k errorClass attempt then
    emit (.hinted k.provider exc)
    let hint ← orRaise ((k.provider.retryAfterSeconds exc).mapError .builtin)
    match hint with
    | none => return none
    | some x => if x.le h.rateLimitMaxWait then return none else giveUp k errorClass exc
  else giveUp k errorClass exc

/-- The delay before the next retry: the vendor's hint and a second, else exponential. -/
def backoffDelay (attempt : ℕ) (provider : ModelProvider) (exc : VendorError) :
    Except BuiltinError PyFloat := do
  match ← provider.retryAfterSeconds exc with
  | some hint => return (hint.add (ofRat 1)).min h.rateLimitMaxWait
  | none => match Double.twoPow (attempt - 1) with
    | some p => return (h.backoffBase.mul p).min h.backoffCap
    | none => .error .overflowError

/-- `time.sleep(delay)`. -/
def sleep (delay : PyFloat) : Except PyException Unit :=
  match sleepCheck delay with
  | .sleeps => .ok ()
  | .valueError => .error (.builtin .valueError)
  | .overflowError => .error (.builtin .overflowError)

/-- `time.sleep(self._backoff_delay(attempt, provider, exc))`. -/
def backoff (k : KeySlot) (exc : VendorError) (attempt : ℕ) : Run Unit := do
  let delay := h.backoffDelay attempt k.provider exc
  emit (.backedOff k.provider attempt exc delay)
  let d ← orRaise (delay.mapError .builtin)
  orRaise (sleep d)

/-- One attempt with one key. -/
def attemptOnce (c : InvocationContext) (k : KeySlot) (attempt : ℕ) : Run Attempted := do
  match ← complete w c k attempt with
  | .returned response => return .done (← onSuccess w c k response)
  | .raisedLibrary e => throw (.library e)
  | .raised exc =>
    match ← h.onError k exc attempt with
    | none =>
      h.backoff k exc attempt
      return .again
    | some .fallback => return if k.hasMoreCredentials then .nextKey else .done .fallback
    | some outcome => return .done outcome

/-- The attempts left with one key, from an attempt number on; `none` moves to the next key. -/
def attemptLoop (c : InvocationContext) (k : KeySlot) : ℕ → ℕ → Run (Option HandlerOutcome)
  | 0, _ => return none
  | n + 1, attempt => do
    match ← h.attemptOnce w c k attempt with
    | .again => attemptLoop c k n (attempt + 1)
    | .nextKey => return none
    | .done outcome => return some outcome

/-- The keys left, from an index on. -/
def keyLoop (c : InvocationContext) (provider : ModelProvider) (hasMoreProviders : Bool) :
    List (Option Credential) → ℕ → Run HandlerOutcome
  | [], _ => return .fallback
  | credential :: rest, index => do
    match ← h.attemptLoop w c ⟨provider, credential, index, !rest.isEmpty, hasMoreProviders⟩
        h.maxAttempts.toNat 1 with
    | some outcome => return outcome
    | none => keyLoop c provider hasMoreProviders rest (index + 1)

/-- `list(context.credentials) or [None]`. -/
def keysOf (credentials : List Credential) : List (Option Credential) :=
  if credentials = [] then [none] else credentials.map some

def handle : FallbackHandler := fun c =>
  match c.candidates with
  | [] => return .fallback
  | provider :: rest => do
    let s ← get
    h.keyLoop w c provider (!rest.isEmpty) (keysOf s.scratch.credentials) 0

end ModelInvocationHandler

end ModelDispatcher.Handlers
