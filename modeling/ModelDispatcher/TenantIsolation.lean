import ModelDispatcher.Identity
import ModelDispatcher.Lib.Isolation

/-!
Tenants of one server do not interfere: over any run of requests against the shared quota store,
what a tenant's requests are answered, and which provider calls they lead to, is what it is when
the requests of all other callers never arrive.

The store is all that one request leaves to the next. From stores with the same counters for a
tenant a dispatch of that tenant runs in lockstep, and a dispatch of another tenant leaves the
tenant's counters alone.
-/

namespace ModelDispatcher.TenantIsolation

open Lib Lib.Text Lib.Json Lib.Dicts Lib.Logged Lib.Lockstep DataTypes Exceptions Config Providers
open Quota Security Routing Machines Handlers ModelInvocationHandler Chain Orchestration Gateway
open Components Turns Delivery Byok Wiring Pipeline Identity

/-! ### The server -/

/-- One request as it reaches the server: its headers and body, the verifiers as they are at that
time, and the outside while it is handled. -/
structure Arrival where
  appCheckToken : Option PyStr
  authorizationHeader : Option PyStr
  rawBody : Bytes
  verifier : AppCheckVerifier
  authVerifier : AuthVerifier
  clock : ℕ → ℚ
  behaviour : Behaviour

/-- The collaborators a request is handled with. -/
def Arrival.collaborators (a : Arrival) (c : Collaborators) : Collaborators :=
  { c with
    verifier := a.verifier
    authVerifier := a.authVerifier
    world := worldOf a.clock a.behaviour }

/-- The response to a request, and the provider calls it led to. -/
structure Answered where
  response : Except PyException (ℕ × JSONObject)
  calls : List (Call × CallResult)

/-- Handle one request over the shared store. -/
def step (c : Collaborators) (st : InMemoryQuotaStore) (a : Arrival) :
    Answered × InMemoryQuotaStore :=
  let r := served (a.collaborators c) a.appCheckToken a.authorizationHeader a.rawBody
    { store := st }
  (⟨answer r, callsIn (finalState r).log⟩, (finalState r).quota.store)

/-- The tenant a request is dispatched for, when it gets past the guards and the parser. -/
def Arrival.tenant (loads : JsonLoads) (a : Arrival) : Option TenantId :=
  match a.verifier a.appCheckToken, a.authVerifier a.authorizationHeader,
      decodeRequest loads a.rawBody with
  | .ok _, .ok claims, .ok (_, declared) => some (tenantId claims declared)
  | _, _, _ => none

/-! ### What a tenant sees -/

/-- The counters of a tenant are the same in two stores. -/
def SameCounters (uid : TenantId) (st st' : InMemoryQuotaStore) : Prop :=
  ∀ window, st.counts.get? (uid, window) = st'.counts.get? (uid, window)

/-- Two runs a tenant cannot tell apart: only counters of other tenants, and events no provider
sees, differ. -/
structure Shares (uid : TenantId) (s t : Machine) : Prop where
  scratch : s.scratch = t.scratch
  ticks : s.quota.ticks = t.quota.ticks
  calls : callsIn s.log = callsIn t.log
  counters : SameCounters uid s.quota.store t.quota.store

variable {uid : TenantId} {clock : ℕ → ℚ} {behaviour : Behaviour}

section

variable {st st' : InMemoryQuotaStore}

lemma SameCounters.countIn (h : SameCounters uid st st') (p : ℤ) (window : WindowKey) :
    st.countIn p uid window = st'.countIn p uid window := by
  unfold InMemoryQuotaStore.countIn
  rw [h window]

lemma SameCounters.incr (h : SameCounters uid st st') (now : ℚ) (window : WindowKey) (n : ℤ) :
    SameCounters uid (st.incr now uid window n) (st'.incr now uid window n) := by
  intro window'
  unfold InMemoryQuotaStore.incr
  dsimp only
  rw [h.countIn]
  by_cases hwindow : window' = window
  · subst hwindow
    rw [PyDict.get?_set_self, PyDict.get?_set_self]
  · rw [PyDict.get?_set_of_ne _ (by simpa using hwindow),
      PyDict.get?_set_of_ne _ (by simpa using hwindow)]
    exact h window'

end

/-- Two quota states a tenant cannot tell apart. -/
structure SharesQuota (uid : TenantId) (q q' : QuotaState) : Prop where
  ticks : q.ticks = q'.ticks
  counters : SameCounters uid q.store q'.store

section

variable {tenant : TenantContext} {st st' : InMemoryQuotaStore}

lemma SameCounters.charge (h : SameCounters uid st st') (n : ℕ) (estimate : ℤ) :
    SameCounters uid (QuotaManager.charge clock st n uid estimate)
      (QuotaManager.charge clock st' n uid estimate) :=
  ((h.incr _ _ _).incr _ _ _).incr _ _ _

lemma SameCounters.checks (h : SameCounters tenant.tenantId st st') (n : ℕ) (estimate : ℤ) :
    QuotaManager.checks clock st n tenant estimate =
      QuotaManager.checks clock st' n tenant estimate := by
  unfold QuotaManager.checks
  congr 1
  funext w
  exact h.countIn _ w

/-- A reservation looks at its tenant's counters only. -/
lemma steady_reserve (htenant : tenant.tenantId = uid) (estimate : ℤ) (name : PyStr) :
    Steady (SharesQuota uid) (QuotaManager.reserve clock tenant estimate name) := by
  subst htenant
  intro q q' h
  unfold InStep
  rw [QuotaManager.reserve_run, QuotaManager.reserve_run, h.counters.checks, h.ticks]
  have hcharged : SameCounters tenant.tenantId
      (QuotaManager.charge clock q.store (q'.ticks + 3) tenant.tenantId estimate)
      (QuotaManager.charge clock q'.store (q'.ticks + 3) tenant.tenantId estimate) :=
    h.counters.charge _ estimate
  generalize judge tenant.quota.softLimitRatio _ _ _ = verdict
  rcases verdict with e | ⟨o, b⟩
  · exact .raised _ ⟨rfl, h.counters⟩
  · cases o with
    | deny => exact .returned _ ⟨rfl, h.counters⟩
    | allow => exact .returned _ ⟨rfl, hcharged⟩
    | softLimit => exact .returned _ ⟨rfl, hcharged⟩

lemma steady_commit (htenant : tenant.tenantId = uid) (d : QuotaDecision) (u : Usage) :
    Steady (SharesQuota uid) (QuotaManager.commit clock tenant d u) := by
  subst htenant
  intro q q' h
  unfold InStep
  rw [QuotaManager.commit_run, QuotaManager.commit_run, h.ticks]
  split_ifs
  · exact .returned _ h
  · exact .returned _ ⟨rfl, (h.counters.incr _ _ _).incr _ _ _⟩

end

/-! ### A dispatch of the tenant -/

/-- From states the tenant cannot tell apart the program does the same. -/
abbrev Private {α : Type} (uid : TenantId) (x : Run α) : Prop := Steady (Shares uid) x

section

variable {s t : Machine}

lemma inStep_emit {e e' : Event} (hcalls : callsIn [e] = callsIn [e'])
    (h : Shares uid s t) : InStep (Shares uid) (emit e) (emit e') s t :=
  inStep_modify
    { h with calls := by rw [callsIn_append, callsIn_append, h.calls, hcalls] }

/-- A quota operation on the two states hands back the same. -/
lemma inStep_onQuota {α : Type} {x : QuotaM α} (hx : Steady (SharesQuota uid) x)
    (h : Shares uid s t) : InStep (Shares uid) (onQuota x) (onQuota x) s t := by
  have hmatched : Matched (SharesQuota uid) (x.run s.quota) (x.run t.quota) :=
    hx _ _ ⟨h.ticks, h.counters⟩
  unfold InStep onQuota
  change Matched _ (EStateM.Result.ok _ _) (EStateM.Result.ok _ _)
  rw [hmatched.answer_eq]
  have hquota := hmatched.finalState
  exact .returned _ ⟨h.scratch, hquota.ticks, h.calls, hquota.counters⟩

end

lemma private_emit (e : Event) : Private uid (emit e) :=
  fun _ _ h => inStep_emit rfl h

lemma private_compositional : Compositional fun _ x => Private uid x where
  pure := steady_pure
  throw := steady_throw
  bind := steady_bind
  emit e _ := private_emit e
  update f := steady_modify fun _ _ h => { h with scratch := congrArg f h.scratch }
  read hsame hf := steady_get fun s t h => by
    rw [hsame s t h.scratch]
    exact hf t s t h

section

variable {tenant : TenantContext} {c : InvocationContext}

lemma private_reserve (htenant : tenant.tenantId = uid) (estimate : ℤ) (p : ModelProvider) :
    Private uid (Handlers.reserve (worldOf clock behaviour) tenant estimate p) := by
  refine steady_get fun s t h => ?_
  refine inStep_bind (inStep_onQuota (steady_reserve htenant estimate p.name) h) ?_
  intro result s' t' h'
  -- the recorded quota states differ, which no provider sees
  exact inStep_bind (inStep_emit rfl h') fun _ _ _ h => inStep_pure _ h

lemma private_commit (htenant : tenant.tenantId = uid) (d : QuotaDecision) (u : Usage) :
    Private uid (Handlers.commit (worldOf clock behaviour) tenant d u) :=
  steady_bind (private_emit _) fun _ =>
    steady_bind (fun _ _ h => inStep_onQuota (steady_commit htenant d u) h) fun _ =>
      steady_pure _

lemma private_complete (k : KeySlot) (attempt : ℕ) :
    Private uid (complete (worldOf clock behaviour) c k attempt) := by
  refine steady_get fun s t h => ?_
  have hsame : (worldOf clock behaviour).complete s.log =
      (worldOf clock behaviour).complete t.log := congrArg behaviour h.calls
  dsimp only
  rw [hsame]
  exact steady_bind (private_emit _) (fun _ => steady_pure _) s t h

lemma private_backoff (handler : ModelInvocationHandler) (k : KeySlot) (exc : VendorError)
    (attempt : ℕ) : Private uid (handler.backoff k exc attempt) :=
  steady_bind (private_emit _) fun _ => steady_bind (private_compositional.orRaise _) fun _ =>
    private_compositional.orRaise _

end

section

variable {tenant : TenantContext} {g : ModelGateway} {c : Collaborators}

/-- With no tool registered, a tool call is answered without a look at anything. -/
lemma private_runToolCalls (calls : List ToolCall) (st : ConversationState) :
    Private uid (AgentLoop.runToolCalls {} calls st) := by
  induction calls generalizing st with
  | nil => exact steady_pure _
  | cons call rest ih =>
    refine steady_get fun s t h => ?_
    have hsame : ToolExecutor.execute {} s.log call = ToolExecutor.execute {} t.log call := rfl
    dsimp only
    rw [hsame]
    exact steady_bind (private_compositional.append st _) ih s t h

lemma private_dispatch (htenant : tenant.tenantId = uid) (request : CompletionRequest) :
    Private uid (g.dispatch (worldOf clock behaviour) request tenant none) := by
  refine steady_bind (private_compositional.prepare g request tenant) fun candidates => ?_
  refine private_compositional.run (steady_pure false) (fun st => ?_) private_runToolCalls _ _ _
  refine private_compositional.dispatchTurn (fun c hc link hlink => ?_) candidates st
  subst hc
  simp only [buildChain, List.mem_cons, List.not_mem_nil, or_false] at hlink
  rcases hlink with rfl | rfl | rfl | rfl
  · exact private_compositional.perimeterHandler _
  · exact private_compositional.credentialHandler
  · exact private_compositional.quotaHandler (private_reserve htenant)
  · exact private_compositional.handle _ (private_commit htenant) private_complete
      (private_backoff _)

/-- Catching the library's errors keeps the runs in step. -/
lemma steady_catchLibrary {α : Type} {R : Machine → Machine → Prop} {x : Run α}
    (hx : Steady R x) : Steady R (catchLibrary x) := by
  intro s t h
  have hs := catchLibrary_cases x s
  have ht := catchLibrary_cases x t
  have hmatched : Matched R (x.run s) (x.run t) := hx s t h
  unfold InStep
  generalize x.run s = r at hs hmatched
  generalize x.run t = r' at ht hmatched
  generalize (catchLibrary x).run s = u at hs ⊢
  generalize (catchLibrary x).run t = u' at ht ⊢
  cases hmatched with
  | returned a h =>
    cases hs
    cases ht
    exact .returned _ h
  | raised e h =>
    cases hs with
    | caught e =>
      cases ht with
      | caught => exact .returned _ h
      | escaped _ he => cases he
    | escaped _ he =>
      cases ht with
      | caught => cases he
      | escaped => exact .raised e h

lemma private_invoke (hworld : c.world = worldOf clock behaviour)
    (htenant : tenant.tenantId = uid) (request : CompletionRequest) :
    Private uid (invoke c request tenant) := by
  unfold invoke
  rw [hworld]
  refine steady_bind (steady_catchLibrary (private_dispatch htenant request)) fun outcome => ?_
  cases outcome with
  | error e => exact steady_pure _
  | ok result => exact steady_pure _

end

/-! ### One request -/

section

variable {c : Collaborators} {a : Arrival}

/-- A request without a tenant is turned away before the store is looked at. -/
lemma runDispatch_of_none (h : a.tenant c.loads = none) :
    ∃ response, runDispatch (a.collaborators c) a.appCheckToken a.authorizationHeader a.rawBody =
      pure response := by
  unfold Arrival.tenant at h
  unfold runDispatch
  cases happ : a.verifier a.appCheckToken with
  | error e => exact ⟨_, by simp only [Arrival.collaborators, happ]; rfl⟩
  | ok app =>
    cases hauth : a.authVerifier a.authorizationHeader with
    | error e => exact ⟨_, by simp only [Arrival.collaborators, happ, hauth]; rfl⟩
    | ok claims =>
      cases hdecode : decodeRequest c.loads a.rawBody with
      | error detail => exact ⟨_, by simp only [Arrival.collaborators, happ, hauth, hdecode]; rfl⟩
      | ok v => simp [happ, hauth, hdecode] at h

/-- A request with a tenant is dispatched for it. -/
lemma runDispatch_of_some {tid : TenantId} (h : a.tenant c.loads = some tid) :
    ∃ prompt declared,
      runDispatch (a.collaborators c) a.appCheckToken a.authorizationHeader a.rawBody =
        invoke (a.collaborators c) (userRequest prompt declared) (c.tenantFactory tid) := by
  unfold Arrival.tenant at h
  split at h
  · rename_i app claims request declared happ hauth hdecode
    cases h
    obtain ⟨prompt, -, rfl, -⟩ := prompted_of_decodeRequest hdecode
    refine ⟨prompt, declared, ?_⟩
    unfold runDispatch
    simp only [Arrival.collaborators, happ, hauth, hdecode]
  · cases h

/-- A request of another caller leaves the tenant's counters alone. -/
lemma counters_of_others {st st' : InMemoryQuotaStore}
    (hfactory : ∀ tid, (c.tenantFactory tid).tenantId = tid)
    (hother : a.tenant c.loads ≠ some uid) (h : SameCounters uid st st') :
    SameCounters uid (step c st a).2 st' := by
  intro window
  rw [← h window]
  unfold step served
  cases htenant : a.tenant c.loads with
  | none =>
    obtain ⟨response, hrun⟩ := runDispatch_of_none htenant
    rw [hrun]
    rfl
  | some tid =>
    obtain ⟨prompt, declared, hrun⟩ := runDispatch_of_some htenant
    have hne : uid ≠ tid := by
      rintro rfl
      exact hother htenant
    have hstart : Alike tid st { quota := { store := st } } { quota := { store := st } } :=
      ⟨rfl, rfl, rfl, fun _ _ _ => rfl⟩
    have halike : InStep (Alike tid st)
        (invoke (a.collaborators c) (userRequest prompt declared) (c.tenantFactory tid))
        (invoke (a.collaborators c) (userRequest prompt declared) (c.tenantFactory tid)) _ _ :=
      inStep_invoke rfl (hfactory tid) rfl rfl hstart
    rw [hrun]
    exact (Matched.finalState halike).others uid hne window

/-- A request of the tenant does the same on stores that share the tenant's counters. -/
lemma step_of_own {st st' : InMemoryQuotaStore}
    (hfactory : ∀ tid, (c.tenantFactory tid).tenantId = tid)
    (hmine : a.tenant c.loads = some uid) (h : SameCounters uid st st') :
    (step c st a).1 = (step c st' a).1 ∧ SameCounters uid (step c st a).2 (step c st' a).2 := by
  obtain ⟨prompt, declared, hrun⟩ := runDispatch_of_some hmine
  have hmatched : Matched (Shares uid)
      (served (a.collaborators c) a.appCheckToken a.authorizationHeader a.rawBody { store := st })
      (served (a.collaborators c) a.appCheckToken a.authorizationHeader a.rawBody
        { store := st' }) := by
    unfold served
    rw [hrun]
    exact private_invoke rfl (hfactory uid) _ _ _ ⟨rfl, rfl, rfl, h⟩
  have hfinal := hmatched.finalState
  refine ⟨?_, hfinal.counters⟩
  unfold step
  dsimp only
  rw [hmatched.answer_eq, hfinal.calls]

end

lemma isolates (c : Collaborators) (hfactory : ∀ tid, (c.tenantFactory tid).tenantId = tid)
    (uid : TenantId) :
    Isolation.Isolates (step c) (fun a => a.tenant c.loads = some uid) (SameCounters uid) where
  own := step_of_own hfactory
  others := counters_of_others hfactory

/-- **Tenants do not interfere.** Over every run of requests of any callers, starting from stores
with the same counters for a tenant, the responses to the tenant's requests, and the provider
calls these lead to, are those of the run in which only the tenant's requests arrive; the
tenant's counters end up the same too. -/
theorem tenants_do_not_interfere (c : Collaborators) (uid : TenantId)
    (st st' : InMemoryQuotaStore) (arrivals : List Arrival)
    (hfactory : ∀ tid, (c.tenantFactory tid).tenantId = tid) (hsame : SameCounters uid st st') :
    (Isolation.answers (step c) st arrivals).filter (fun x => x.1.tenant c.loads = some uid) =
        Isolation.answers (step c) st'
          (arrivals.filter fun a => a.tenant c.loads = some uid) ∧
      SameCounters uid (Isolation.final (step c) st arrivals)
        (Isolation.final (step c) st'
          (arrivals.filter fun a => a.tenant c.loads = some uid)) :=
  (isolates c hfactory uid).answers_filter hsame arrivals

namespace Sample

open Pipeline.Sample Identity.Sample

/-- A request of a verified user. -/
def arrival (uid : String) : Arrival where
  appCheckToken := none
  authorizationHeader := none
  rawBody := undeclared
  verifier := anyApp
  authVerifier := fun _ => .ok ⟨some (py uid)⟩
  clock := fun _ => 0
  behaviour := answering

/-- The default server over the mock providers. -/
def server : Collaborators :=
  defaults id vendors (fun _ => none) loads id anyApp verified (worldOf (fun _ => 0) answering)

/-- Two requests of one user, with one of another in between. -/
def traffic : List Arrival := [arrival "user-1", arrival "user-2", arrival "user-1"]

end Sample

/-- The other user's request might as well not have been made. -/
theorem traffic_isolated :
    (Isolation.answers (step Sample.server) {} Sample.traffic).filter
        (fun x => x.1.tenant Sample.server.loads = some (py "user-1")) =
      Isolation.answers (step Sample.server) {}
        (Sample.traffic.filter fun a => a.tenant Sample.server.loads = some (py "user-1")) ∧
    (Sample.traffic.filter fun a =>
      a.tenant Sample.server.loads = some (py "user-1")).length = 2 :=
  ⟨(tenants_do_not_interfere Sample.server (py "user-1") {} {} Sample.traffic (fun _ => rfl)
    fun _ => rfl).1, by decide⟩

end ModelDispatcher.TenantIsolation
