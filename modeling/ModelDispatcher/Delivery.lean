import ModelDispatcher.Dispatches
import ModelDispatcher.Mediation

/-!
What reaches the providers: over a whole dispatch, which providers are called and with which
requests.

Only routed providers are called, each with the caller's messages and the ones appended so far,
the effective tools and the tenant. What the router does not check is therefore not checked at
all, and what the rebuilt request leaves out is lost.
-/

namespace ModelDispatcher.Delivery

open Lib.Text Lib.Logged DataTypes Exceptions Config Providers Quota Security Routing Machines
open Handlers Chain Orchestration Gateway Turns Refinement Mediation Dispatches

/-! ### Calls and appended messages -/

/-- The messages appended among some events. -/
def appendedIn (es : List Event) : List Message :=
  es.filterMap fun
    | .appended m => some m
    | _ => none

@[simp] lemma appendedIn_append (es fs : List Event) :
    appendedIn (es ++ fs) = appendedIn es ++ appendedIn fs := List.filterMap_append

@[simp] lemma appendedIn_map (ms : List Message) : appendedIn (ms.map .appended) = ms := by
  induction ms with
  | nil => rfl
  | cons m ms ih => simp [appendedIn]

/-- A call is for a routed candidate, with the request extended by what was appended. -/
def Delivered (candidates : List ModelProvider) (request : CompletionRequest)
    (pre : List Event) (e : Event) : Prop :=
  ∀ call result, e = .called call result →
    call.provider ∈ candidates ∧ call.request = extend request (appendedIn pre)

@[simp] lemma extend_nil (request : CompletionRequest) : extend request [] = request := by
  simp [extend]

lemma extend_extend (request : CompletionRequest) (ms ns : List Message) :
    extend (extend request ms) ns = extend request (ms ++ ns) := by
  simp [extend]

def isAppend : Event → Bool
  | .appended _ => true
  | _ => false

lemma appendedIn_eq_nil {es : List Event} (h : ∀ e ∈ es, isAppend e = false) :
    appendedIn es = [] := by
  refine List.filterMap_eq_nil_iff.mpr fun e he => ?_
  have := h e he
  cases e <;> simp_all [isAppend]

/-- A turn appends nothing. -/
lemma not_append_of_turnLog {T : Turn} {candidates : List ModelProvider} {es : List Event}
    {out : Ended} (h : TurnLog T candidates es out) : ∀ e ∈ es, isAppend e = false := by
  refine h.closed (R := fun es => ∀ e ∈ es, isAppend e = false) (by simp) ?_ ?_ ?_
  · exact fun hes hfs e he => (List.mem_append.mp he).elim (hes e) (hfs e)
  · intro k a es out hlog
    cases hlog with
    | served => simp [isAppend]
    | library => simp [isAppend]
    | failed _ h =>
      have hes := h.forall (P := fun e => isAppend e = false) rfl fun _ => rfl
      simpa [isAppend] using hes
  · intro e he
    cases e <;> simp_all [Event.isCheck, isAppend]

lemma delivered_turn {w : World} {settings : GatewaySettings} {tenant : TenantContext}
    {candidates : List ModelProvider} {request : CompletionRequest} {es : List Event}
    {out : Ended} (h : TurnLog (turnOf w settings request tenant) candidates es out) :
    Along (Delivered candidates request) es := by
  refine along_of_forall (not_append_of_turnLog h) fun pre hpre => ?_
  rw [show Delivered candidates request pre = fun e => ∀ call result, e = .called call result →
    call.provider ∈ candidates ∧ call.request = request by
      funext e; simp [Delivered, appendedIn_eq_nil hpre]]
  refine h.forall (by simp) fun p hp es out hpass e he call result hcall => ?_
  subst hcall
  obtain ⟨rfl, hreq, -⟩ := admitted_of_passLog hpass he
  exact ⟨hp, hreq⟩

/-- Messages are not calls. -/
lemma delivered_messages (candidates : List ModelProvider) (request : CompletionRequest)
    (ms : List Message) (P : List Event) :
    Along (fun pre => Delivered candidates request (P ++ pre)) (ms.map .appended) := by
  intro pre e post h call result he
  subst he
  have hmem : Event.called call result ∈ ms.map .appended := by rw [h]; simp
  simp at hmem

lemma delivered_loop {w : World} {settings : GatewaySettings} {tenant : TenantContext}
    {candidates : List ModelProvider} {n : ℕ} {request : CompletionRequest} {es : List Event}
    {out : Option PyException} (h : LoopLog w settings tenant candidates n request es out) :
    Along (Delivered candidates request) es := by
  induction h with
  | stopped => exact along_nil
  | raised h => exact delivered_turn h
  | @completed n request es response h =>
    exact along_append (delivered_turn h)
      (delivered_messages candidates request [response.message] es)
  | @followed n request es fs response out results h _ ih =>
    refine along_append (along_append (delivered_turn h)
      (delivered_messages candidates request (response.message :: results) es)) ?_
    -- the rest of the run starts from the request extended by this turn's messages
    intro pre e post hpre call result he
    obtain ⟨hp, hreq⟩ := ih pre e post hpre call result he
    refine ⟨hp, ?_⟩
    rw [hreq, extend_extend, appendedIn_append, appendedIn_append, appendedIn_map,
      appendedIn_eq_nil (not_append_of_turnLog h), List.nil_append]

/-- The providers a request is routed to. -/
def routed (g : ModelGateway) (request : CompletionRequest) : List ModelProvider :=
  match g.router.route request (g.scorer request) with
  | .ok candidates => candidates
  | .error _ => []

section

variable {w : World} {g : ModelGateway} {request : CompletionRequest} {tenant : TenantContext}
variable {tools : Option ToolRegistry} {q : QuotaState}

/-- Every call of a dispatch is for a routed provider, with the first request and the messages
appended so far. -/
lemma delivered_dispatch :
    Along (Delivered (routed g request) (firstRequest request tenant tools))
      (finalState (dispatched w g request tenant tools q)).log := by
  obtain ⟨out, hlog, -⟩ := dispatched_log w g request tenant tools q
  generalize (finalState (dispatched w g request tenant tools q)).log = log at hlog
  have hchecks : ∀ (es : List Event), (∀ e ∈ es, ∀ call result, e ≠ .called call result) →
      Along (Delivered (routed g request) (firstRequest request tenant tools)) es := by
    rintro es hes pre e post rfl call result rfl
    exact absurd rfl (hes _ (by simp) call result)
  cases hlog with
  | rejected => exact hchecks _ (by simp)
  | unrouted => exact hchecks _ (by simp)
  | @looped candidates es out hv hr h =>
    have hcandidates : routed g request = candidates := by rw [routed, hr]
    have hes := delivered_loop h
    rw [← hcandidates] at hes
    change Along _ ([Event.validated request tenant (.ok ()),
      Event.routed (g.scorer request) (.ok candidates)] ++ es)
    refine along_append (hchecks _ (by simp)) ?_
    intro pre e post hpre call result he
    exact hes pre e post hpre call result he

/-! ### The request a provider receives -/

/-- The caller's request, with what the run appended, the effective tools and the tenant. -/
def faithful (request : CompletionRequest) (tenant : TenantContext) (tools : Option ToolRegistry)
    (pre : List Event) : CompletionRequest :=
  { request with
    messages := request.messages ++ appendedIn pre
    tools := ModelGateway.effectiveTools request tools
    tenant := tenant.tenantId }

/-- A request whose generation settings are all left at their defaults. -/
structure Plain (request : CompletionRequest) : Prop where
  maxTokens : request.maxTokens = none
  temperature : request.temperature = none
  tierHint : request.tierHint = none
  metadata : request.metadata = []

/-- Rebuilding a request from the conversation keeps it exactly when it is plain. -/
lemma extend_firstRequest_eq_faithful (pre : List Event) :
    extend (firstRequest request tenant tools) (appendedIn pre) =
      faithful request tenant tools pre ↔ Plain request := by
  have hsent : extend (firstRequest request tenant tools) (appendedIn pre) =
      { messages := request.messages ++ appendedIn pre, tenant := tenant.tenantId,
        tools := ModelGateway.effectiveTools request tools } := rfl
  rw [hsent, faithful]
  constructor
  · intro h
    injection h with _ _ _ hhint hmax htemp hmeta
    exact ⟨hmax.symm, htemp.symm, hhint.symm, hmeta.symm⟩
  · rintro ⟨hmax, htemp, hhint, hmeta⟩
    rw [hmax, htemp, hhint, hmeta]

end

namespace Sample

/-- A gateway over one provider, every task trivial. -/
def gateway (settings : GatewaySettings) (p : ModelProvider) : ModelGateway where
  settings := settings
  providers := ({} : ProviderRegistry).register p
  scorer := fun _ => .trivial

/-- The calls of a dispatch to one provider that answers at once. -/
abbrev calls (settings : GatewaySettings) (p : ModelProvider) (request : CompletionRequest)
    (tenant : TenantContext) (tools : Option ToolRegistry) : List (Call × CallResult) :=
  callsIn (finalState
    (dispatched (Refinement.Sample.world "" 0) (gateway settings p) request tenant tools {})).log

/-- The settings whose allowlist has one provider. -/
def allowing (name : String) : GatewaySettings :=
  { security := { allowedProviders := [py name] } }

/-- A registry with one tool. -/
def registry : ToolRegistry :=
  ({} : ToolRegistry).register { spec := ⟨py "clock", py "the time", []⟩ }

/-- The dispatches of the samples below reach their provider. -/
lemma calls_made :
    calls {} (Sample.provider "p" .free) Sample.request Sample.tenant none ≠ [] ∧
    calls {} (Sample.provider "p" .free) { Sample.request with maxTokens := some 5 }
      Sample.tenant none ≠ [] ∧
    calls {} (Sample.provider "p" .free) Sample.request { Sample.tenant with maxTier := .free }
      none ≠ [] ∧
    calls (allowing "p") (Sample.provider "p" .free) Sample.request Sample.tenant none ≠ [] ∧
    calls {} { Sample.provider "p" .free with capabilities := .tools }
      { Sample.request with tools := registry.specs } Sample.tenant (some registry) ≠ [] := by
  decide +kernel

end Sample

/-- **Request fidelity.** A call of a dispatch carries the caller's request exactly when the
caller set no token limit, no temperature, no tier hint and no metadata. -/
theorem call_faithful_iff_plain (w : World) (g : ModelGateway) (request : CompletionRequest)
    (tenant : TenantContext) (tools : Option ToolRegistry) (q : QuotaState)
    (pre post : List Event) (call : Call) (result : CallResult)
    (h : (finalState (dispatched w g request tenant tools q)).log =
      pre ++ .called call result :: post) :
    call.request = faithful request tenant tools pre ↔ Plain request := by
  obtain ⟨-, hreq⟩ := delivered_dispatch pre _ post h call result rfl
  rw [hreq]
  exact extend_firstRequest_eq_faithful pre

/-- A token limit does not reach the provider. -/
theorem tokenLimit_lost : ¬ ∀ (w : World) (g : ModelGateway) (request : CompletionRequest)
    (tenant : TenantContext) (tools : Option ToolRegistry) (q : QuotaState)
    (pre post : List Event) (call : Call) (result : CallResult),
    (finalState (dispatched w g request tenant tools q)).log =
      pre ++ .called call result :: post →
    call.request = faithful request tenant tools pre := by
  intro h
  obtain ⟨-, hcalls, -⟩ := Sample.calls_made
  obtain ⟨⟨call, result⟩, hcall⟩ := List.exists_mem_of_ne_nil _ hcalls
  obtain ⟨pre, post, hlog⟩ := List.append_of_mem (mem_callsIn.mp hcall)
  have hreq := h _ _ _ _ _ _ pre post call result hlog
  rw [(delivered_dispatch pre _ post hlog call result rfl).2] at hreq
  exact absurd ((extend_firstRequest_eq_faithful pre).mp hreq).maxTokens (by simp)

/-- A plain request reaches the provider as it is. -/
theorem plain_call_faithful :
    ∃ x ∈ Sample.calls {} (Sample.provider "p" .free) Sample.request Sample.tenant none,
      ∃ pre, x.1.request = faithful Sample.request Sample.tenant none pre := by
  obtain ⟨hcalls, -⟩ := Sample.calls_made
  obtain ⟨⟨call, result⟩, hcall⟩ := List.exists_mem_of_ne_nil _ hcalls
  obtain ⟨pre, post, hlog⟩ := List.append_of_mem (mem_callsIn.mp hcall)
  exact ⟨_, hcall, pre, (call_faithful_iff_plain _ _ _ _ _ _ pre post call result hlog).mpr
    ⟨rfl, rfl, rfl, rfl⟩⟩

/-! ### The providers a dispatch calls -/

section

variable {w : World} {g : ModelGateway} {request : CompletionRequest} {tenant : TenantContext}
variable {tools : Option ToolRegistry} {q : QuotaState}

lemma call_delivered {x : Call × CallResult}
    (h : x ∈ callsIn (finalState (dispatched w g request tenant tools q)).log) :
    x.1.provider ∈ routed g request ∧
      x.1.request.tools = ModelGateway.effectiveTools request tools := by
  obtain ⟨pre, post, hlog⟩ := List.append_of_mem (mem_callsIn.mp h)
  obtain ⟨hp, hreq⟩ := delivered_dispatch pre _ post hlog x.1 x.2 rfl
  exact ⟨hp, by rw [hreq]; rfl⟩

/-- A request that names tools is routed to providers that take them. -/
lemma routed_supports {p : ModelProvider} (hp : p ∈ routed g request)
    (htools : request.tools ≠ []) : p.Supports ProviderCapability.tools := by
  unfold routed at hp
  split at hp
  · rename_i candidates hroute
    have h := ModelRouter.route_supports hroute hp
    rwa [requiredCapabilities, if_pos htools] at h
  · simp at hp

end

/-- **Tier ceiling.** When no provider the router selects is above the tenant's ceiling, no
provider above it is called in any run. -/
theorem calls_within_ceiling (w : World) (g : ModelGateway) (request : CompletionRequest)
    (tenant : TenantContext) (tools : Option ToolRegistry) (q : QuotaState)
    (h : ∀ p ∈ routed g request, p.tier ≤ tenant.maxTier) :
    ∀ x ∈ callsIn (finalState (dispatched w g request tenant tools q)).log,
      x.1.provider.tier ≤ tenant.maxTier := by
  intro x hx
  obtain ⟨hrouted, -⟩ := call_delivered hx
  exact h _ hrouted

/-- A tenant with a free ceiling is served by a premium provider. -/
theorem premium_called_for_free : ¬ ∀ (w : World) (g : ModelGateway)
    (request : CompletionRequest) (tenant : TenantContext) (tools : Option ToolRegistry)
    (q : QuotaState),
    ∀ x ∈ callsIn (finalState (dispatched w g request tenant tools q)).log,
      x.1.provider.tier ≤ tenant.maxTier := by
  intro h
  have hcalls := h (Sample.world "" 0) (Sample.gateway {} (Sample.provider "p" .premium))
    Sample.request { Sample.tenant with maxTier := .free } none {}
  revert hcalls
  decide +kernel

/-- A free provider under a free ceiling. -/
theorem free_within_free_ceiling :
    ∃ x ∈ Sample.calls {} (Sample.provider "p" .free) Sample.request
      { Sample.tenant with maxTier := .free } none,
      x.1.provider.tier ≤ .free := by
  obtain ⟨-, -, hcalls, -⟩ := Sample.calls_made
  obtain ⟨x, hx⟩ := List.exists_mem_of_ne_nil _ hcalls
  exact ⟨x, hx, calls_within_ceiling _ _ _ { Sample.tenant with maxTier := .free } _ _
    (by decide) x hx⟩

/-- **Egress allowlist.** When every provider the router selects is on the allowlist, no other
provider is called in any run. -/
theorem calls_on_allowlist (w : World) (g : ModelGateway) (request : CompletionRequest)
    (tenant : TenantContext) (tools : Option ToolRegistry) (q : QuotaState)
    (h : ∀ p ∈ routed g request, p.name ∈ g.settings.security.allowedProviders) :
    ∀ x ∈ callsIn (finalState (dispatched w g request tenant tools q)).log,
      x.1.provider.name ∈ g.settings.security.allowedProviders := by
  intro x hx
  obtain ⟨hrouted, -⟩ := call_delivered hx
  exact h _ hrouted

/-- A provider that is not on the allowlist is called for a tenant that forces none. -/
theorem unlisted_provider_called : ¬ ∀ (w : World) (g : ModelGateway)
    (request : CompletionRequest) (tenant : TenantContext) (tools : Option ToolRegistry)
    (q : QuotaState), g.settings.security.allowedProviders ≠ [] →
    ∀ x ∈ callsIn (finalState (dispatched w g request tenant tools q)).log,
      x.1.provider.name ∈ g.settings.security.allowedProviders := by
  intro h
  have hcalls := h (Sample.world "" 0)
    (Sample.gateway (Sample.allowing "approved") (Sample.provider "p" .free)) Sample.request
    Sample.tenant none {} (by decide)
  revert hcalls
  decide +kernel

/-- A provider on the allowlist. -/
theorem listed_provider_called :
    ∃ x ∈ Sample.calls (Sample.allowing "p") (Sample.provider "p" .free) Sample.request
      Sample.tenant none,
      x.1.provider.name ∈ [py "p"] := by
  obtain ⟨-, -, -, hcalls, -⟩ := Sample.calls_made
  obtain ⟨x, hx⟩ := List.exists_mem_of_ne_nil _ hcalls
  exact ⟨x, hx, calls_on_allowlist _ (Sample.gateway (Sample.allowing "p")
    (Sample.provider "p" .free)) _ _ _ _ (by decide) x hx⟩

/-- **Tool capability.** When the request itself names tools, or none are sent, or every
provider the router selects takes tools, a call that sends tools is for a provider that takes
them. -/
theorem tools_sent_to_capable (w : World) (g : ModelGateway) (request : CompletionRequest)
    (tenant : TenantContext) (tools : Option ToolRegistry) (q : QuotaState)
    (h : request.tools ≠ [] ∨ ModelGateway.effectiveTools request tools = [] ∨
      ∀ p ∈ routed g request, p.Supports ProviderCapability.tools) :
    ∀ x ∈ callsIn (finalState (dispatched w g request tenant tools q)).log,
      x.1.request.tools ≠ [] → x.1.provider.Supports ProviderCapability.tools := by
  intro x hx htools
  obtain ⟨hrouted, hsent⟩ := call_delivered hx
  rcases h with hnamed | hnone | hall
  · exact routed_supports hrouted hnamed
  · exact absurd (hsent.trans hnone) htools
  · exact hall _ hrouted

/-- The tools of a registry are sent to a provider that takes none. -/
theorem tools_sent_to_incapable : ¬ ∀ (w : World) (g : ModelGateway)
    (request : CompletionRequest) (tenant : TenantContext) (tools : Option ToolRegistry)
    (q : QuotaState),
    ∀ x ∈ callsIn (finalState (dispatched w g request tenant tools q)).log,
      x.1.request.tools ≠ [] → x.1.provider.Supports ProviderCapability.tools := by
  intro h
  have hcalls : ∃ x ∈ Sample.calls {} (Sample.provider "p" .free) Sample.request Sample.tenant
      (some Sample.registry),
      ¬ x.1.provider.Supports ProviderCapability.tools := by
    decide +kernel
  obtain ⟨x, hx, hincapable⟩ := hcalls
  refine hincapable (h _ _ _ _ _ _ x hx ?_)
  rw [(call_delivered hx).2]
  exact List.cons_ne_nil _ _

/-- A request that names its tools is sent to a provider that takes them. -/
theorem named_tools_sent_to_capable :
    ∃ x ∈ Sample.calls {} { Sample.provider "p" .free with capabilities := .tools }
      { Sample.request with tools := Sample.registry.specs } Sample.tenant
      (some Sample.registry),
      x.1.provider.Supports ProviderCapability.tools := by
  obtain ⟨-, -, -, -, hcalls⟩ := Sample.calls_made
  obtain ⟨x, hx⟩ := List.exists_mem_of_ne_nil _ hcalls
  refine ⟨x, hx, tools_sent_to_capable _ _ { Sample.request with tools := Sample.registry.specs }
    _ _ _ (.inl (List.cons_ne_nil _ _)) x hx ?_⟩
  rw [(call_delivered hx).2]
  exact List.cons_ne_nil _ _

end ModelDispatcher.Delivery
