import ModelDispatcher.TenantIsolation

/-!
The perimeter of the web template as it is deployed: the Firebase verifiers for the app and for the
user, chosen by the environment, in front of the pipeline.

The Firebase SDK is a parameter, as it answers while a request is handled; keys rotate and tokens
expire, so every request comes with its own. What initialises the SDK is outside the `try` of the
verifiers, so an exception of it escapes the pipeline.
-/

namespace ModelDispatcher.Guards

open Lib Lib.Text Lib.Json Lib.Dicts Lib.Logged DataTypes Exceptions Config Providers Quota Machines
open Byok Turns Pipeline Identity TenantIsolation

/-! ### What the verifiers look at -/

/-- `bool(v)` and `str(v)` of a claim. -/
structure Conversions where
  truthy : JSONValue → Bool
  str : JSONValue → PyStr
  truthy_null : truthy .null = false
  truthy_str : ∀ s, truthy (.str s) = decide (s ≠ [])
  str_str : ∀ s, str (.str s) = s
  str_ne_nil : ∀ v, truthy v → str v ≠ []

/-- The Firebase SDK, as it answers at some time: the outcome of `ensure_default_app`, and the
claims of a token or the text of the exception. -/
structure FirebaseSdk where
  ensureDefaultApp : Except PyException Unit
  verifyToken : PyStr → Except PyStr JSONObject
  verifyIdToken : PyStr → Except PyStr JSONObject

/-- A verifier returns claims, raises its declared error, or lets another exception through. -/
abbrev Verifier (δ γ : Type) := Option PyStr → Except PyException (Except δ γ)

/-- `claims.get(key)`. -/
def claim (claims : JSONObject) (key : String) : JSONValue := (getKey claims (py key)).getD .null

/-- `value.partition(" ")` without the separator. -/
def partitionSpace (s : PyStr) : PyStr × PyStr :=
  (s.takeWhile (· ≠ .scalar ' '), (s.dropWhile (· ≠ .scalar ' ')).drop 1)

section

variable (lower : PyStr → PyStr) (conv : Conversions) (sdk : FirebaseSdk)

/-! ### The app -/

def FirebaseAppCheckVerifier.verify : Verifier AppCheckError AppCheckClaims := fun token =>
  if truthy token then do
    sdk.ensureDefaultApp
    match sdk.verifyToken (token.getD []) with
    | .error exc => return .error ⟨py "invalid App Check token: " ++ exc⟩
    | .ok claims =>
      let named : JSONValue :=
        if conv.truthy (claim claims "app_id") then claim claims "app_id"
        else if conv.truthy (claim claims "sub") then claim claims "sub"
        else .str []
      let appId := conv.str named
      if appId = [] then return .error ⟨py "App Check token carried no app_id"⟩
      else return .ok ⟨appId, ((getKey claims (py "sub")).map conv.str).getD appId⟩
  else return .error ⟨py "missing App Check token"⟩

def NoopAppCheckVerifier.verify : Verifier AppCheckError AppCheckClaims := fun _ =>
  return .ok ⟨py "dev-bypass", py "dev-bypass"⟩

/-- A mode variable, as it is compared. -/
def modeOf (env : Environ) (name : PyStr) : PyStr :=
  lower (strip ((env name).getD (py "enforce")))

def appCheckMode : PyStr := py "MD_APP_CHECK_MODE"

def buildVerifier (env : Environ) : Verifier AppCheckError AppCheckClaims :=
  if modeOf lower env appCheckMode = py "disabled" then NoopAppCheckVerifier.verify
  else FirebaseAppCheckVerifier.verify conv sdk

/-! ### The user -/

def extractBearerToken (header : Option PyStr) : Except AuthError PyStr :=
  if truthy header then
    let (scheme, token) := partitionSpace (header.getD [])
    if lower scheme ≠ py "bearer" ∨ token = [] then
      .error ⟨py "Authorization header must be a Bearer token"⟩
    else .ok token
  else .error ⟨py "missing Authorization header"⟩

def FirebaseAuthVerifier.verify : Verifier AuthError AuthClaims := fun header =>
  match extractBearerToken lower header with
  | .error e => return .error e
  | .ok token => do
    sdk.ensureDefaultApp
    match sdk.verifyIdToken token with
    | .error exc => return .error ⟨py "invalid ID token: " ++ exc⟩
    | .ok decoded =>
      let uid := claim decoded "uid"
      if conv.truthy uid then return .ok ⟨some (conv.str uid)⟩
      else return .error ⟨py "ID token carried no uid"⟩

def NoopAuthVerifier.verify : Verifier AuthError AuthClaims := fun _ => return .ok ⟨none⟩

def authMode : PyStr := py "MD_AUTH_MODE"

def buildAuthVerifier (env : Environ) : Verifier AuthError AuthClaims :=
  if modeOf lower env authMode = py "disabled" then NoopAuthVerifier.verify
  else FirebaseAuthVerifier.verify lower conv sdk

end

/-! ### The pipeline behind the verifiers -/

/-- A request, and the outside while it is handled. -/
structure Request where
  appCheckToken : Option PyStr
  authorizationHeader : Option PyStr
  rawBody : Bytes
  sdk : FirebaseSdk
  clock : ℕ → ℚ
  behaviour : Behaviour

section

variable (lower : PyStr → PyStr) (conv : Conversions) (env : Environ)

/-- The verdict of both guards, in their order: the first one that does not pass decides. -/
def guarded (a : Request) : Except PyException (Except (ℕ × JSONObject) AuthClaims) := do
  match ← buildVerifier lower conv a.sdk env a.appCheckToken with
  | .error _ => return .error (403, [(py "error", .str (py "app_check_failed"))])
  | .ok _ => match ← buildAuthVerifier lower conv a.sdk env a.authorizationHeader with
    | .error _ => return .error (401, [(py "error", .str (py "unauthenticated"))])
    | .ok claims => return .ok claims

variable (c : Collaborators)

/-- The rest of `run_dispatch`, for claims that passed the guards. -/
def runVerified (a : Request) (claims : AuthClaims) : Run (ℕ × JSONObject) :=
  match decodeRequest c.loads a.rawBody with
  | .error detail =>
    return (400, [(py "error", .str (py "bad_request")), (py "detail", .str detail)])
  | .ok (request, declared) =>
    invoke { c with world := worldOf a.clock a.behaviour } request
      (c.tenantFactory (tenantId claims declared))

/-- `run_dispatch` with the verifiers of the environment. -/
def runGuarded (a : Request) : Run (ℕ × JSONObject) := do
  match ← orRaise (guarded lower conv env a) with
  | .error response => return response
  | .ok claims => runVerified c a claims

/-- Handle one request over the shared store. -/
def serve (st : InMemoryQuotaStore) (a : Request) : Answered × InMemoryQuotaStore :=
  let r := (runGuarded lower conv env c a).run { quota := { store := st } }
  (⟨answer r, callsIn (finalState r).log⟩, (finalState r).quota.store)

/-- The user both guards let through. -/
def identity (a : Request) : Option TenantId :=
  match guarded lower conv env a with
  | .ok (.ok claims) => claims.uid
  | _ => none

end

/-! ### Who is let through -/

/-- Firebase vouches for the app and for the user of a request, each by the token it carries. -/
structure Vouched (lower : PyStr → PyStr) (conv : Conversions) (a : Request) (uid : TenantId) :
    Prop where
  app : ∃ token claims, a.appCheckToken = some token ∧ a.sdk.verifyToken token = .ok claims
  user : ∃ scheme token decoded, a.authorizationHeader = some (scheme ++ .scalar ' ' :: token) ∧
    lower scheme = py "bearer" ∧ a.sdk.verifyIdToken token = .ok decoded ∧
    conv.truthy (claim decoded "uid") ∧ uid = conv.str (claim decoded "uid")

section

variable {lower : PyStr → PyStr} {conv : Conversions} {sdk : FirebaseSdk}

lemma bind_eq_ok {ε α β : Type} {x : Except ε α} {f : α → Except ε β} {b : β}
    (h : x >>= f = .ok b) : ∃ a, x = .ok a ∧ f a = .ok b := by
  cases x with
  | error e => cases h
  | ok a => exact ⟨a, rfl, h⟩

lemma eq_some_of_truthy {s : Option PyStr} (h : truthy s) : s = some (s.getD []) := by
  cases s with
  | none => cases h
  | some s => rfl

/-- The app verifier passes only a token that the SDK accepts. -/
lemma appCheck_passes {token : Option PyStr} {claims : AppCheckClaims}
    (h : FirebaseAppCheckVerifier.verify conv sdk token = .ok (.ok claims)) :
    ∃ t accepted, token = some t ∧ sdk.verifyToken t = .ok accepted := by
  unfold FirebaseAppCheckVerifier.verify at h
  split_ifs at h with htoken
  · obtain ⟨-, -, h⟩ := bind_eq_ok h
    cases hverify : sdk.verifyToken (token.getD []) with
    | error exc => rw [hverify] at h; cases h
    | ok accepted => exact ⟨_, accepted, eq_some_of_truthy htoken, hverify⟩
  · cases h

/-- A header with a token is its scheme, a space and the token. -/
lemma extractBearerToken_ok {header : Option PyStr} {token : PyStr}
    (h : extractBearerToken lower header = .ok token) :
    ∃ scheme, header = some (scheme ++ .scalar ' ' :: token) ∧ lower scheme = py "bearer" := by
  unfold extractBearerToken at h
  split_ifs at h with hheader
  rw [eq_some_of_truthy hheader]
  generalize header.getD [] = value at h
  dsimp only [partitionSpace] at h
  split_ifs at h with hbad
  obtain ⟨hscheme, htoken⟩ := not_or.mp hbad
  cases h
  refine ⟨value.takeWhile (· ≠ .scalar ' '), ?_, not_not.mp hscheme⟩
  have hparts := List.takeWhile_append_dropWhile (p := (· ≠ PyChar.scalar ' ')) (l := value)
  cases hrest : value.dropWhile (· ≠ .scalar ' ') with
  | nil =>
    rw [hrest] at htoken
    exact absurd rfl htoken
  | cons c rest =>
    -- what stops the scheme is a space
    have hc : c = .scalar ' ' := by
      have hhead := List.head?_dropWhile_not (· ≠ PyChar.scalar ' ') value
      rw [hrest] at hhead
      simpa using hhead
    rw [hrest, hc] at hparts
    rw [List.drop_one, List.tail_cons, hparts]

/-- The user verifier passes only a bearer token that the SDK accepts, with a `uid`. -/
lemma auth_passes {header : Option PyStr} {claims : AuthClaims}
    (h : FirebaseAuthVerifier.verify lower conv sdk header = .ok (.ok claims)) :
    ∃ scheme token decoded, header = some (scheme ++ .scalar ' ' :: token) ∧
      lower scheme = py "bearer" ∧ sdk.verifyIdToken token = .ok decoded ∧
      conv.truthy (claim decoded "uid") ∧
      claims.uid = some (conv.str (claim decoded "uid")) := by
  unfold FirebaseAuthVerifier.verify at h
  cases htoken : extractBearerToken lower header with
  | error e => rw [htoken] at h; cases h
  | ok token =>
    rw [htoken] at h
    obtain ⟨-, -, h⟩ := bind_eq_ok h
    obtain ⟨scheme, hheader, hscheme⟩ := extractBearerToken_ok htoken
    cases hverify : sdk.verifyIdToken token with
    | error exc => rw [hverify] at h; cases h
    | ok decoded =>
      rw [hverify] at h
      dsimp only at h
      split_ifs at h with huid
      · cases h
        exact ⟨scheme, token, decoded, hheader, hscheme, hverify, huid, rfl⟩
      · cases h

/-- The environment does not switch the guards off. -/
structure Enforced (lower : PyStr → PyStr) (env : Environ) : Prop where
  app : modeOf lower env appCheckMode ≠ py "disabled"
  user : modeOf lower env authMode ≠ py "disabled"

variable {env : Environ} {a : Request}

/-- The guards pass only a user Firebase vouches for. -/
lemma vouched_of_guarded (henv : Enforced lower env) {claims : AuthClaims}
    (h : guarded lower conv env a = .ok (.ok claims)) :
    ∃ uid, claims.uid = some uid ∧ uid ≠ [] ∧ Vouched lower conv a uid := by
  unfold guarded buildVerifier buildAuthVerifier at h
  rw [if_neg henv.app, if_neg henv.user] at h
  obtain ⟨app, happ, h⟩ := bind_eq_ok h
  cases app with
  | error e => cases h
  | ok appClaims =>
    obtain ⟨user, huser, h⟩ := bind_eq_ok h
    cases user with
    | error e => cases h
    | ok claims' =>
      cases h
      obtain ⟨t, accepted, ht, hverify⟩ := appCheck_passes happ
      obtain ⟨scheme, token, decoded, hheader, hscheme, hid, htruthy, huid⟩ := auth_passes huser
      exact ⟨_, huid, conv.str_ne_nil _ htruthy,
        ⟨⟨t, accepted, ht, hverify⟩, scheme, token, decoded, hheader, hscheme, hid, htruthy, rfl⟩⟩

lemma identity_of_guarded {claims : AuthClaims}
    (h : guarded lower conv env a = .ok (.ok claims)) :
    identity lower conv env a = claims.uid := by
  unfold identity
  rw [h]

/-- What a request without a user is answered. -/
inductive Refused : Except PyException (ℕ × JSONObject) → Prop
  | app : Refused (.ok (403, [(py "error", .str (py "app_check_failed"))]))
  | user : Refused (.ok (401, [(py "error", .str (py "unauthenticated"))]))
  | raised (e : PyException) : Refused (.error e)

variable {c : Collaborators} {st : InMemoryQuotaStore}

/-- A request no user is vouched for does nothing. -/
lemma serve_refused (henv : Enforced lower env) (h : identity lower conv env a = none) :
    ∃ response, serve lower conv env c st a = (⟨response, []⟩, st) ∧ Refused response := by
  unfold serve runGuarded
  cases hguarded : guarded lower conv env a with
  | error e => exact ⟨.error e, rfl, .raised e⟩
  | ok verdict =>
    cases verdict with
    | ok claims =>
      obtain ⟨uid, huid, -⟩ := vouched_of_guarded henv hguarded
      rw [identity_of_guarded hguarded, huid] at h
      cases h
    | error response =>
      refine ⟨.ok response, rfl, ?_⟩
      unfold guarded at hguarded
      obtain ⟨app, -, hguarded⟩ := bind_eq_ok hguarded
      cases app with
      | error e => cases hguarded; exact .app
      | ok appClaims =>
        obtain ⟨user, -, hguarded⟩ := bind_eq_ok hguarded
        cases user with
        | error e => cases hguarded; exact .user
        | ok claims => cases hguarded

/-- Where neither guard lets another exception through, this is the pipeline with their verdicts. -/
theorem runGuarded_eq_runDispatch {app : Except AppCheckError AppCheckClaims}
    {user : Except AuthError AuthClaims}
    (happ : buildVerifier lower conv a.sdk env a.appCheckToken = .ok app)
    (huser : buildAuthVerifier lower conv a.sdk env a.authorizationHeader = .ok user) :
    runGuarded lower conv env c a =
      runDispatch
        { c with
          verifier := fun _ => app
          authVerifier := fun _ => user
          world := worldOf a.clock a.behaviour }
        a.appCheckToken a.authorizationHeader a.rawBody := by
  unfold runGuarded guarded runDispatch
  rw [happ, huser]
  cases app with
  | error e => rfl
  | ok appClaims =>
    cases user with
    | error e => rfl
    | ok claims => rfl

/-- Every call a request leads to is for a user it is vouched for. -/
lemma vouched_of_call (henv : Enforced lower env)
    (hfactory : ∀ tid, (c.tenantFactory tid).tenantId = tid) {x : Call × CallResult}
    (hx : x ∈ (serve lower conv env c st a).1.calls) :
    Vouched lower conv a x.1.request.tenant := by
  unfold serve runGuarded at hx
  cases hguarded : guarded lower conv env a with
  | error e => rw [hguarded] at hx; cases hx
  | ok verdict =>
    rw [hguarded] at hx
    cases verdict with
    | error response => cases hx
    | ok claims =>
      obtain ⟨uid, huid, hne, hvouched⟩ := vouched_of_guarded henv hguarded
      change x ∈ callsIn (finalState ((runVerified c a claims).run _)).log at hx
      unfold runVerified at hx
      cases hdecode : decodeRequest c.loads a.rawBody with
      | error detail =>
        rw [hdecode] at hx
        cases hx
      | ok v =>
        obtain ⟨request, declared⟩ := v
        rw [hdecode] at hx
        have htenant := tenant_of_call hx
        have hsame : tenantId claims declared = uid := by
          have hclaims : claims = ⟨some uid⟩ := congrArg AuthClaims.mk huid
          rw [hclaims]
          exact tenantId_verified hne declared
        rw [htenant, hfactory, hsame]
        exact hvouched

end

/-- **Only who is vouched for counts.** Unless the environment switches a guard off, over every run
of requests, whatever Firebase answers at the time of each: every provider call is for a user whose
token the request carries and Firebase accepts, from an app that is attested; a request without
one is refused, calls no provider, and might as well not have been sent. -/
theorem only_vouched_requests_count (lower : PyStr → PyStr) (conv : Conversions) (env : Environ)
    (c : Collaborators) (st : InMemoryQuotaStore) (requests : List Request)
    (henv : Enforced lower env) (hfactory : ∀ tid, (c.tenantFactory tid).tenantId = tid) :
    (∀ x ∈ Isolation.answers (serve lower conv env c) st requests,
      (∀ call ∈ x.2.calls, Vouched lower conv x.1 call.1.request.tenant) ∧
        (identity lower conv env x.1 = none → x.2.calls = [] ∧ Refused x.2.response)) ∧
    (Isolation.answers (serve lower conv env c) st requests).filter
        (fun x => (identity lower conv env x.1).isSome) =
      Isolation.answers (serve lower conv env c) st
        (requests.filter fun a => (identity lower conv env a).isSome) ∧
    Isolation.final (serve lower conv env c) st requests =
      Isolation.final (serve lower conv env c) st
        (requests.filter fun a => (identity lower conv env a).isSome) := by
  have hisolates : Isolation.Isolates (serve lower conv env c)
      (fun a => (identity lower conv env a).isSome) Eq := by
    refine ⟨fun _ hst => ?_, fun hother hst => ?_⟩
    · rw [hst]
      exact ⟨rfl, rfl⟩
    · obtain ⟨response, hserve, -⟩ := serve_refused henv (Option.not_isSome_iff_eq_none.mp hother)
      rw [hserve]
      exact hst
  refine ⟨?_, by simpa using hisolates.answers_filter rfl requests⟩
  intro x hx
  obtain ⟨st', hanswer⟩ := Isolation.mem_answers _ hx
  rw [hanswer]
  refine ⟨fun call hcall => vouched_of_call henv hfactory hcall, fun hnone => ?_⟩
  obtain ⟨response, hserve, hrefused⟩ := serve_refused henv hnone
  rw [hserve]
  exact ⟨rfl, hrefused⟩

namespace Sample

open Pipeline.Sample Identity.Sample

/-- `bool` and `str`; of a number or a container the text is left out. -/
def conv : Conversions where
  truthy
    | .null => false
    | .bool b => b
    | .int n => n ≠ 0
    | .float _ => true
    | .str s => s ≠ []
    | .list items => ¬ items.isEmpty
    | .dict fields => ¬ fields.isEmpty
  str
    | .null => py "None"
    | .bool b => if b then py "True" else py "False"
    | .str s => s
    | _ => py "..."
  truthy_null := rfl
  truthy_str _ := rfl
  str_str _ := rfl
  str_ne_nil v h := by
    cases v with
    | bool b => cases b <;> simp [py]
    | str s => simpa using h
    | _ => simp [py]

/-- Firebase knows one app and one user. -/
def sdk : FirebaseSdk where
  ensureDefaultApp := .ok ()
  verifyToken t :=
    if t = py "app" then .ok [(py "app_id", .str (py "1:web"))] else .error (py "bad token")
  verifyIdToken t :=
    if t = py "id" then .ok [(py "uid", .str (py "user-1"))] else .error (py "expired")

def request (header : Option PyStr) : Request where
  appCheckToken := some (py "app")
  authorizationHeader := header
  rawBody := spoofed
  sdk := sdk
  clock := fun _ => 0
  behaviour := answering

/-- A bearer token that is good, one that is not, and none. -/
def requests : List Request :=
  [request (some (py "bearer id")), request (some (py "bearer old")), request none]

end Sample

/-- Only the first of three requests calls a provider, and it does so for its user. -/
theorem two_of_three_refused :
    (∀ x ∈ Isolation.answers (serve id Sample.conv (fun _ => none) TenantIsolation.Sample.server)
        {} Sample.requests, ∀ call ∈ x.2.calls,
      Vouched id Sample.conv x.1 call.1.request.tenant) ∧
    (Isolation.answers (serve id Sample.conv (fun _ => none) TenantIsolation.Sample.server) {}
      Sample.requests).map (fun x => x.2.calls.map fun call => call.1.request.tenant) =
        [[py "user-1"], [], []] :=
  ⟨fun x hx => ((only_vouched_requests_count id Sample.conv (fun _ => none)
    TenantIsolation.Sample.server {} Sample.requests ⟨by decide, by decide⟩
    (fun _ => rfl)).1 x hx).1, by decide +kernel⟩

end ModelDispatcher.Guards
