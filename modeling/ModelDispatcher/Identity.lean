import ModelDispatcher.Components
import ModelDispatcher.Delivery
import ModelDispatcher.Lib.Lockstep
import ModelDispatcher.Pipeline

/-!
A verified identity cannot be overridden: two dispatches whose bodies differ only in the tenant
they declare cannot be told apart, and neither touches the counters of another tenant.

The declared tenant stays in the request that is validated and routed. What is run from there is
one program for both bodies; from states that differ only in events no provider sees, it does the
same.
-/

namespace ModelDispatcher.Identity

open Lib.Text Lib.Json Lib.Dicts Lib.Floats Lib.Logged Lib.Lockstep DataTypes Exceptions Config
open Providers Quota Security Routing Machines Handlers ModelInvocationHandler Chain Orchestration
open Gateway Components Turns Refinement Dispatches Delivery Byok Wiring Pipeline

/-- The answers of the providers, by the calls made so far. -/
abbrev Behaviour :=
  List (Call × CallResult) → ModelProvider → CompletionRequest → Option PyStr → CallResult

/-- The outside of providers that see only the calls. -/
def worldOf (clock : ℕ → ℚ) (behaviour : Behaviour) : World where
  monotonic := clock
  complete := fun log => behaviour (callsIn log)

/-! ### What two runs share -/

/-- The counters of every tenant but one are as in another store. -/
def OthersKept (uid : TenantId) (st₀ st : InMemoryQuotaStore) : Prop :=
  ∀ tid ≠ uid, ∀ window, st.counts.get? (tid, window) = st₀.counts.get? (tid, window)

/-- The two runs cannot be told apart but by events no provider sees, and the quota state they
share has only the counters of one tenant changed. -/
structure Alike (uid : TenantId) (st₀ : InMemoryQuotaStore) (s t : Machine) : Prop where
  scratch : s.scratch = t.scratch
  quota : s.quota = t.quota
  calls : callsIn s.log = callsIn t.log
  others : OthersKept uid st₀ s.quota.store

variable {uid : TenantId} {st₀ : InMemoryQuotaStore} {clock : ℕ → ℚ} {behaviour : Behaviour}

section

variable {q : QuotaState}

lemma OthersKept.incr {st : InMemoryQuotaStore} (h : OthersKept uid st₀ st) (now : ℚ)
    (window : WindowKey) (n : ℤ) : OthersKept uid st₀ (st.incr now uid window n) := by
  intro tid htid window'
  rw [← h tid htid window']
  exact PyDict.get?_set_of_ne _ (by simp [htid]) _

/-- A reservation of a tenant changes no other tenant's counters. -/
lemma OthersKept.reserve {tenant : TenantContext} (htenant : tenant.tenantId = uid)
    (estimate : ℤ) (name : PyStr) (h : OthersKept uid st₀ q.store) :
    OthersKept uid st₀
      (finalState ((QuotaManager.reserve clock tenant estimate name).run q)).store := by
  have hcases := QuotaManager.reserve_cases clock q tenant estimate name
  generalize (QuotaManager.reserve clock tenant estimate name).run q = r at hcases
  cases hcases with
  | denied => exact h
  | granted =>
    rw [htenant]
    exact ((h.incr _ _ _).incr _ _ _).incr _ _ _
  | raised => exact h

lemma OthersKept.commit {tenant : TenantContext} (htenant : tenant.tenantId = uid)
    (d : QuotaDecision) (u : Usage) (h : OthersKept uid st₀ q.store) :
    OthersKept uid st₀ (finalState ((QuotaManager.commit clock tenant d u).run q)).store := by
  rw [QuotaManager.commit_run]
  split_ifs
  · exact h
  · rw [htenant]
    exact (h.incr _ _ _).incr _ _ _

end

/-! ### Steps -/

/-- From states that are alike the program does the same. -/
abbrev Blind {α : Type} (uid : TenantId) (st₀ : InMemoryQuotaStore) (x : Run α) : Prop :=
  Steady (Alike uid st₀) x

section

variable {s t : Machine}

lemma Alike.log {es fs : List Event} (h : Alike uid st₀ s t) (hcalls : callsIn es = callsIn fs) :
    Alike uid st₀ { s with log := s.log ++ es } { t with log := t.log ++ fs } where
  scratch := h.scratch
  quota := h.quota
  calls := by rw [callsIn_append, callsIn_append, h.calls, hcalls]
  others := h.others

/-- Events with the same calls look alike. -/
lemma inStep_emit {e e' : Event} (hcalls : callsIn [e] = callsIn [e'])
    (h : Alike uid st₀ s t) : InStep (Alike uid st₀) (emit e) (emit e') s t :=
  inStep_modify (h.log hcalls)

end

lemma blind_emit (e : Event) : Blind uid st₀ (emit e) :=
  fun _ _ h => inStep_emit rfl h

lemma blind_updateScratch (f : Scratch → Scratch) : Blind uid st₀ (updateScratch f) :=
  steady_modify fun _ _ h => { h with scratch := congrArg f h.scratch }

lemma blind_compositional : Compositional fun _ x => Blind uid st₀ x where
  pure := steady_pure
  throw := steady_throw
  bind := steady_bind
  emit e _ := blind_emit e
  update := blind_updateScratch
  read hsame hf := steady_get fun s t h => by
    rw [hsame s t h.scratch]
    exact hf t s t h

/-- A quota operation that keeps the counters of the others. -/
lemma blind_onQuota {α : Type} {x : QuotaM α}
    (hx : ∀ q, OthersKept uid st₀ q.store → OthersKept uid st₀ (finalState (x.run q)).store) :
    Blind uid st₀ (onQuota x) := by
  intro s t h
  unfold InStep onQuota
  change Matched _ (EStateM.Result.ok _ _) (EStateM.Result.ok _ _)
  rw [← h.quota]
  exact .returned _ ⟨h.scratch, rfl, h.calls, hx _ h.others⟩

section

variable {tenant : TenantContext} {c : InvocationContext}

lemma blind_reserve (htenant : tenant.tenantId = uid) (estimate : ℤ) (p : ModelProvider) :
    Blind uid st₀ (reserve (worldOf clock behaviour) tenant estimate p) := by
  refine steady_get fun s t h => ?_
  rw [h.quota]
  refine steady_bind (blind_onQuota fun q => OthersKept.reserve htenant estimate p.name) ?_ s t h
  exact fun _ => steady_bind (blind_emit _) fun _ => steady_pure _

lemma blind_commit (htenant : tenant.tenantId = uid) (d : QuotaDecision) (u : Usage) :
    Blind uid st₀ (commit (worldOf clock behaviour) tenant d u) :=
  steady_bind (blind_emit _) fun _ =>
    steady_bind (blind_onQuota fun _ => OthersKept.commit htenant d u) fun _ => steady_pure _

/-- A provider sees the calls, and they are the same. -/
lemma blind_complete (k : KeySlot) (attempt : ℕ) :
    Blind uid st₀ (complete (worldOf clock behaviour) c k attempt) := by
  refine steady_get fun s t h => ?_
  have hsame : (worldOf clock behaviour).complete s.log =
      (worldOf clock behaviour).complete t.log := congrArg behaviour h.calls
  dsimp only
  rw [hsame]
  exact steady_bind (blind_emit _) (fun _ => steady_pure _) s t h

lemma blind_backoff (handler : ModelInvocationHandler) (k : KeySlot) (exc : VendorError)
    (attempt : ℕ) : Blind uid st₀ (handler.backoff k exc attempt) :=
  steady_bind (blind_emit _) fun _ => steady_bind (blind_compositional.orRaise _) fun _ =>
    blind_compositional.orRaise _

/-- Every handler of a gateway's chain, on every context of the tenant. -/
lemma blind_buildChain (settings : GatewaySettings) (htenant : c.tenant.tenantId = uid) :
    ∀ link ∈ buildChain (worldOf clock behaviour) settings, Blind uid st₀ (link c) := by
  intro link hlink
  simp only [buildChain, List.mem_cons, List.not_mem_nil, or_false] at hlink
  rcases hlink with rfl | rfl | rfl | rfl
  · exact blind_compositional.perimeterHandler _
  · exact blind_compositional.credentialHandler
  · exact blind_compositional.quotaHandler (blind_reserve htenant)
  · exact blind_compositional.handle _ (blind_commit htenant) blind_complete (blind_backoff _)

end

/-! ### The agent loop -/

section

variable {tenant : TenantContext} {settings : GatewaySettings}

/-- With no tool registered, a tool call is answered without a look at anything. -/
lemma blind_runToolCalls (calls : List ToolCall) (st : ConversationState) :
    Blind uid st₀ (AgentLoop.runToolCalls {} calls st) := by
  induction calls generalizing st with
  | nil => exact steady_pure _
  | cons call rest ih =>
    refine steady_get fun s t h => ?_
    have hsame : ToolExecutor.execute {} s.log call = ToolExecutor.execute {} t.log call := rfl
    dsimp only
    rw [hsame]
    exact steady_bind (blind_compositional.append st _) ih s t h

lemma blind_run (htenant : tenant.tenantId = uid) (candidates : List ModelProvider) (n : ℕ)
    (st : ConversationState) (steps : List StepResult) :
    Blind uid st₀ (AgentLoop.run (worldOf clock behaviour)
      (buildChain (worldOf clock behaviour) settings) tenant {} candidates none n st steps) := by
  refine blind_compositional.run (steady_pure false) (fun st => ?_) blind_runToolCalls n st steps
  refine blind_compositional.dispatchTurn ?_ candidates st
  rintro c rfl
  exact blind_buildChain settings htenant

end

/-! ### Two requests for one tenant -/

section

variable {s t : Machine} {tenant : TenantContext} {g : ModelGateway}
variable {prompt : PyStr} {declared declared' : TenantId}

/-- The declared tenant is not validated, and not routed on. -/
lemma inStep_prepare
    (hscorer : g.scorer (userRequest prompt declared) = g.scorer (userRequest prompt declared'))
    (h : Alike uid st₀ s t) :
    InStep (Alike uid st₀) (g.prepare (userRequest prompt declared) tenant)
      (g.prepare (userRequest prompt declared') tenant) s t := by
  have hvalidate : PerimeterValidator.validate g.settings.security (userRequest prompt declared)
      tenant = PerimeterValidator.validate g.settings.security (userRequest prompt declared')
      tenant := rfl
  have hroute : ∀ complexity, g.router.route (userRequest prompt declared) complexity =
      g.router.route (userRequest prompt declared') complexity := fun _ => rfl
  unfold ModelGateway.prepare
  rw [hvalidate, hscorer]
  simp only [hroute]
  refine inStep_bind (inStep_emit rfl h) fun _ => ?_
  refine steady_bind (blind_compositional.orRaise _) fun _ => ?_
  exact steady_bind (blind_emit _) fun _ => blind_compositional.orRaise _

lemma inStep_dispatch (htenant : tenant.tenantId = uid)
    (hscorer : g.scorer (userRequest prompt declared) = g.scorer (userRequest prompt declared'))
    (h : Alike uid st₀ s t) :
    InStep (Alike uid st₀)
      (g.dispatch (worldOf clock behaviour) (userRequest prompt declared) tenant none)
      (g.dispatch (worldOf clock behaviour) (userRequest prompt declared') tenant none) s t := by
  refine inStep_bind (inStep_prepare hscorer h) fun candidates s t h => ?_
  -- the conversation starts from the tenant of the context, not from the declared one
  exact blind_run htenant candidates _ _ _ s t h

lemma inStep_catchLibrary {α : Type} {x y : Run α}
    (h : InStep (Alike uid st₀) x y s t) :
    InStep (Alike uid st₀) (catchLibrary x) (catchLibrary y) s t := by
  have hx := catchLibrary_cases x s
  have hy := catchLibrary_cases y t
  unfold InStep at h ⊢
  generalize x.run s = r at h hx
  generalize y.run t = r' at h hy
  generalize (catchLibrary x).run s = u at hx ⊢
  generalize (catchLibrary y).run t = u' at hy ⊢
  cases h with
  | returned a h =>
    cases hx
    cases hy
    exact .returned _ h
  | raised e h =>
    cases hx with
    | caught e =>
      cases hy with
      | caught => exact .returned _ h
      | escaped _ he => cases he
    | escaped _ he =>
      cases hy with
      | caught => cases he
      | escaped => exact .raised e h

end

/-! ### Two bodies -/

section

variable {c : Collaborators} {s : Machine}

/-- Mapping the outcome adds nothing to the log. -/
lemma finalState_invoke (request : CompletionRequest) (tenant : TenantContext) :
    finalState ((invoke c request tenant).run s) =
      finalState ((c.gatewayFactory.dispatch c.world request tenant none).run s) := by
  unfold invoke
  rw [EStateM.run_bind]
  have hcaught := catchLibrary_cases
    (c.gatewayFactory.dispatch c.world request tenant none) s
  generalize (c.gatewayFactory.dispatch c.world request tenant none).run s = r at hcaught ⊢
  generalize (catchLibrary _).run s = r' at hcaught ⊢
  cases hcaught with
  | returned => rfl
  | caught => rfl
  | escaped => rfl

/-- Every call of a dispatch carries the tenant it is made for. -/
lemma tenant_of_call {q : QuotaState} {request : CompletionRequest} {tenant : TenantContext}
    {x : Call × CallResult}
    (hx : x ∈ callsIn (finalState ((invoke c request tenant).run { quota := q })).log) :
    x.1.request.tenant = tenant.tenantId := by
  rw [finalState_invoke] at hx
  obtain ⟨pre, post, hlog⟩ := List.append_of_mem (mem_callsIn.mp hx)
  obtain ⟨-, hreq⟩ := @delivered_dispatch c.world c.gatewayFactory request tenant none q
    pre _ post hlog x.1 x.2 rfl
  rw [hreq]
  rfl

lemma inStep_invoke {t : Machine} {tenant : TenantContext} {prompt : PyStr}
    {declared declared' : TenantId} (hworld : c.world = worldOf clock behaviour)
    (htenant : tenant.tenantId = uid)
    (htriage : c.triage (userRequest prompt declared) = c.triage (userRequest prompt declared'))
    (hscorer : c.gatewayFactory.scorer (userRequest prompt declared) =
      c.gatewayFactory.scorer (userRequest prompt declared'))
    (h : Alike uid st₀ s t) :
    InStep (Alike uid st₀) (invoke c (userRequest prompt declared) tenant)
      (invoke c (userRequest prompt declared') tenant) s t := by
  unfold invoke
  rw [htriage, hworld]
  refine inStep_bind (inStep_catchLibrary (inStep_dispatch htenant hscorer h)) ?_
  intro outcome s t h
  cases outcome with
  | error e => exact inStep_pure _ h
  | ok result => exact inStep_pure _ h

/-- Two bodies that differ at most in the declared tenant are both refused, with the same text,
or decode to requests that differ at most in it. -/
lemma decodeRequest_pair {loads : JsonLoads} {rawBody rawBody' : Bytes}
    {payload payload' : JSONObject} (hbody : loads (orEmptyObject rawBody) = .ok (.dict payload))
    (hbody' : loads (orEmptyObject rawBody') = .ok (.dict payload'))
    (hagree : ∀ key ≠ py "tenant_id", getKey payload key = getKey payload' key) :
    (∃ detail, decodeRequest loads rawBody = .error detail ∧
      decodeRequest loads rawBody' = .error detail) ∨
    ∃ prompt declared declared',
      decodeRequest loads rawBody = .ok (userRequest prompt declared, declared) ∧
      decodeRequest loads rawBody' = .ok (userRequest prompt declared', declared') := by
  have hprompt := hagree (py "prompt") (by decide)
  unfold decodeRequest parseDispatchRequest
  rw [hbody, hbody']
  dsimp only
  rw [hprompt]
  split
  · rename_i prompt _
    by_cases hblank : strip prompt = []
    · exact .inl ⟨_, by rw [if_pos hblank], by rw [if_pos hblank]⟩
    · exact .inr ⟨prompt, _, _, by rw [if_neg hblank], by rw [if_neg hblank]⟩
  · exact .inl ⟨_, rfl, rfl⟩

lemma tenantId_verified (huid : uid ≠ []) (declared : TenantId) :
    tenantId ⟨some uid⟩ declared = uid := by
  simp [tenantId, truthy, huid]

/-- Both dispatches are turned away alike, or both are invoked for the verified tenant. -/
lemma runDispatch_pair {appCheckToken authorizationHeader : Option PyStr}
    {rawBody rawBody' : Bytes} {payload payload' : JSONObject} (huid : uid ≠ [])
    (hauth : c.authVerifier authorizationHeader = .ok ⟨some uid⟩)
    (hbody : c.loads (orEmptyObject rawBody) = .ok (.dict payload))
    (hbody' : c.loads (orEmptyObject rawBody') = .ok (.dict payload'))
    (hagree : ∀ key ≠ py "tenant_id", getKey payload key = getKey payload' key) :
    (∃ response, runDispatch c appCheckToken authorizationHeader rawBody = pure response ∧
      runDispatch c appCheckToken authorizationHeader rawBody' = pure response) ∨
    ∃ prompt declared declared',
      runDispatch c appCheckToken authorizationHeader rawBody =
        invoke c (userRequest prompt declared) (c.tenantFactory uid) ∧
      runDispatch c appCheckToken authorizationHeader rawBody' =
        invoke c (userRequest prompt declared') (c.tenantFactory uid) := by
  unfold runDispatch
  cases c.verifier appCheckToken with
  | error e => exact .inl ⟨_, rfl, rfl⟩
  | ok app =>
    rw [hauth]
    rcases decodeRequest_pair hbody hbody' hagree with
      ⟨detail, h, h'⟩ | ⟨prompt, declared, declared', h, h'⟩
    · rw [h, h']
      exact .inl ⟨_, rfl, rfl⟩
    · have htenant : ∀ declared, invoke c (userRequest prompt declared)
          (c.tenantFactory (tenantId ⟨some uid⟩ declared)) =
          invoke c (userRequest prompt declared) (c.tenantFactory uid) := by
        intro declared
        rw [tenantId_verified huid]
      rw [h, h']
      exact .inr ⟨prompt, declared, declared', htenant declared, htenant declared'⟩

end

/-- **A verified identity cannot be overridden.** Two dispatches for one verified user, over the
same store, clock and providers, whose bodies differ at most in the tenant they declare, have the
same outcome, leave the same store and make the same calls. Each call carries the verified user
as its tenant, and no other tenant's counters change. -/
theorem verified_identity_decides (lower : PyStr → PyStr) (vendors : Vendors) (env : Environ)
    (loads : JsonLoads) (repr : PyStr → PyStr) (verifier : AppCheckVerifier)
    (authVerifier : AuthVerifier) (clock : ℕ → ℚ) (behaviour : Behaviour)
    (appCheckToken authorizationHeader : Option PyStr) (rawBody rawBody' : Bytes)
    (payload payload' : JSONObject) (uid : PyStr) (q : QuotaState) (huid : uid ≠ [])
    (hauth : authVerifier authorizationHeader = .ok ⟨some uid⟩)
    (hbody : loads (orEmptyObject rawBody) = .ok (.dict payload))
    (hbody' : loads (orEmptyObject rawBody') = .ok (.dict payload'))
    (hagree : ∀ key ≠ py "tenant_id", getKey payload key = getKey payload' key) :
    let c := defaults lower vendors env loads repr verifier authVerifier (worldOf clock behaviour)
    let r := served c appCheckToken authorizationHeader rawBody q
    let r' := served c appCheckToken authorizationHeader rawBody' q
    answer r = answer r' ∧
    (finalState r).quota = (finalState r').quota ∧
    callsIn (finalState r).log = callsIn (finalState r').log ∧
    (∀ x ∈ callsIn (finalState r).log, x.1.request.tenant = uid) ∧
    ∀ tid ≠ uid, ∀ window, (finalState r).quota.store.counts.get? (tid, window) =
      q.store.counts.get? (tid, window) := by
  intro c r r'
  have hstart : Alike uid q.store { quota := q } { quota := q } := ⟨rfl, rfl, rfl, fun _ _ _ => rfl⟩
  have hpair := @runDispatch_pair uid c appCheckToken authorizationHeader rawBody rawBody'
    payload payload' huid hauth hbody hbody' hagree
  have hmatched : Matched (Alike uid q.store) r r' := by
    rcases hpair with ⟨response, h, h'⟩ | ⟨prompt, declared, declared', h, h'⟩
    · unfold r r' served
      rw [h, h']
      exact inStep_pure response hstart
    · unfold r r' served
      rw [h, h']
      exact inStep_invoke rfl rfl rfl rfl hstart
  have htenants : ∀ x ∈ callsIn (finalState r).log, x.1.request.tenant = uid := by
    rcases hpair with ⟨response, h, -⟩ | ⟨prompt, declared, declared', h, -⟩
    · unfold r served
      rw [h]
      intro x hx
      cases hx
    · unfold r served
      rw [h]
      exact fun x hx => tenant_of_call hx
  have halike := hmatched.finalState
  exact ⟨hmatched.answer_eq, halike.quota, halike.calls, htenants, halike.others⟩

namespace Sample

open Pipeline.Sample

def undeclared : Bytes := bytes "\x7b\"prompt\":\"hi\"\x7d"

/-- The same prompt, with a tenant id that is not the user's. -/
def spoofed : Bytes := bytes "\x7b\"prompt\":\"hi\",\"tenant_id\":\"victim\"\x7d"

def plainPayload : JSONObject := [(py "prompt", .str (py "hi"))]

def spoofedPayload : JSONObject := plainPayload ++ [(py "tenant_id", .str (py "victim"))]

/-- `json.loads` on the two bodies. -/
def loads : JsonLoads := fun raw =>
  if raw = undeclared then .ok (.dict plainPayload)
  else if raw = spoofed then .ok (.dict spoofedPayload)
  else .error (py "Expecting value: line 1 column 1 (char 0)")

/-- Every caller is verified to be one user. -/
def verified : AuthVerifier := fun _ => .ok ⟨some (py "user-1")⟩

def answering : Behaviour := fun _ p request _ =>
  .returned (MockProvider.complete (py "Done.") p request)

/-- A dispatch of a body to the mock providers. -/
abbrev run (rawBody : Bytes) : EStateM.Result PyException Machine (ℕ × JSONObject) :=
  served (defaults id vendors (fun _ => none) loads id anyApp verified
    (worldOf (fun _ => 0) answering)) none none rawBody {}

end Sample

/-- A spoofed tenant id changes nothing, and the one call is for the verified user. -/
theorem spoofed_tenant_ignored :
    answer (Sample.run Sample.spoofed) = answer (Sample.run Sample.undeclared) ∧
      (callsIn (finalState (Sample.run Sample.spoofed)).log).length = 1 ∧
      ∀ x ∈ callsIn (finalState (Sample.run Sample.spoofed)).log,
        x.1.request.tenant = py "user-1" := by
  have hagree : ∀ key ≠ py "tenant_id",
      getKey Sample.spoofedPayload key = getKey Sample.plainPayload key := by
    intro key hkey
    have hlast : ¬ py "tenant_id" = key := fun h => hkey h.symm
    simp [getKey, Sample.spoofedPayload, Sample.plainPayload, List.find?_cons, hlast]
  have hidentity := verified_identity_decides id Pipeline.Sample.vendors (fun _ => none)
    Sample.loads id Pipeline.Sample.anyApp Sample.verified (fun _ => 0) Sample.answering none none
    Sample.spoofed Sample.undeclared Sample.spoofedPayload Sample.plainPayload (py "user-1") {}
    (by decide) rfl (by rfl) (by rfl) hagree
  have hcall : (callsIn (finalState (Sample.run Sample.spoofed)).log).length = 1 := by
    decide +kernel
  obtain ⟨hanswer, -, -, htenants, -⟩ := hidentity
  exact ⟨hanswer, hcall, htenants⟩

end ModelDispatcher.Identity
