import ModelDispatcher.Escapes
import ModelDispatcher.Pipeline

/-!
When the dispatch pipeline answers: over mock providers it returns a status and a body unless
the prompt of an accepted request cannot be measured in UTF-8.

The mocks answer every call and never ask for a tool, so a dispatch has one turn, and what is
left to go wrong is the perimeter, before and in that turn.
-/

namespace ModelDispatcher.Totality

open Lib.Text Lib.Json Lib.Logged DataTypes Exceptions RetryHints Config Providers Quota Security
open Routing Machines Handlers Chain Orchestration Gateway Turns Refinement Mediation Dispatches
open Escapes Byok Wiring Pipeline

/-! ### Providers that answer -/

/-- Every call returns a response, and none asks for a tool. -/
def Obliging (w : World) : Prop := ∀ log p request apiKey, ∃ response,
  w.complete log p request apiKey = .returned response ∧ response.message.toolCalls = []

lemma obliging_mockWorld (vendors : Vendors) (clock : ℕ → ℚ) :
    Obliging (mockWorld vendors clock) :=
  fun _ _ _ _ => ⟨_, rfl, rfl⟩

section

variable {w : World} {settings : GatewaySettings} {request : CompletionRequest}
variable {tenant : TenantContext} {candidates : List ModelProvider}

/-- An attempt is served at once. -/
lemma attemptLog_obliging {T : Turn} (hw : Obliging T.world) {k : Key} {attempt : ℕ}
    {es : List Event} {out : AttemptEnded} (h : AttemptLog T k attempt es out) :
    ∃ response, response.message.toolCalls = [] ∧
      es = [.called (callOf T k attempt) (.returned response), .recorded (successRecord k),
        .committed T.tenant k.reservation response.usage] := by
  have hanswer : ∀ {result}, Answers T k result →
      ∃ response, result = .returned response ∧ response.message.toolCalls = [] := by
    rintro result ⟨log, rfl⟩
    exact hw log k.provider T.request k.apiKey
  cases h with
  | served hres =>
    obtain ⟨_, heq, htools⟩ := hanswer hres
    cases heq
    exact ⟨_, htools, rfl⟩
  | library hres =>
    obtain ⟨_, heq, -⟩ := hanswer hres
    cases heq
  | failed hres =>
    obtain ⟨_, heq, -⟩ := hanswer hres
    cases heq

/-- The caps are small enough for a float. -/
def ModestCaps (quota : TenantQuota) : Prop :=
  ∀ window, |(QuotaManager.capOf quota window : ℚ)| < Lib.Binary64.overflowBound

lemma not_capOverflows_of_modest {checks : List (WindowKey × ℤ × ℤ)}
    (h : ∀ c ∈ checks, |(c.2.2 : ℚ)| < Lib.Binary64.overflowBound) : ¬ CapOverflows checks := by
  induction checks with
  | nil => simp [CapOverflows]
  | cons c rest ih =>
    obtain ⟨window, prospective, cap⟩ := c
    have hcap := h (window, prospective, cap) (by simp)
    have hrest := ih fun c hc => h c (List.mem_cons_of_mem _ hc)
    simp [CapOverflows, hrest, not_le.mpr hcap]

lemma not_capOverflows_checks (hcaps : ModestCaps tenant.quota) (clock : ℕ → ℚ)
    (st : InMemoryQuotaStore) (n : ℕ) (estimate : ℤ) :
    ¬ CapOverflows (QuotaManager.checks clock st n tenant estimate) := by
  refine not_capOverflows_of_modest fun c hc => ?_
  obtain ⟨window, -, rfl⟩ := List.mem_map.mp hc
  exact hcaps window

/-- What an event of a turn over obliging providers is like. -/
def Tame (w : World) (settings : GatewaySettings) (tenant : TenantContext) (e : Event) : Prop :=
  ¬ Fault w settings tenant e ∧
    ∀ call response, e = .called call (.returned response) → response.message.toolCalls = []

lemma tame_of_passLog (hw : Obliging w) (hcaps : ModestCaps tenant.quota)
    (hv : ¬ PerimeterValidator.PerimeterFault settings.security request tenant)
    {p : ModelProvider} {es : List Event} {out : Ended}
    (h : PassLog (turnOf w settings request tenant) p es out) :
    ∀ e ∈ es, Tame w settings tenant e := by
  have hcap := @not_capOverflows_checks tenant hcaps w.monotonic
  have hadmitted : ∀ {creds q d},
      ∀ e ∈ admitted (turnOf w settings request tenant) p creds q d, Tame w settings tenant e := by
    simp [admitted, Tame, Fault, turnOf, hv, hcap]
  cases h with
  | rejected => simp [Tame, Fault, turnOf, hv]
  | unresolved => simp [Tame, Fault, turnOf, hv]
  | unjudged => simp [Tame, Fault, turnOf, hv, hcap]
  | deniedNext => exact hadmitted
  | deniedStop => exact hadmitted
  | invoked _ _ _ _ hkeys =>
    intro e he
    rcases List.mem_append.mp he with he | he
    · exact hadmitted e he
    · refine hkeys.forall (P := Tame w settings tenant) ?_ e he
      intro credential _ j a es out _ _ hattempt
      obtain ⟨response, htools, rfl⟩ := attemptLog_obliging hw hattempt
      simp [Tame, Fault, htools]

lemma tame_of_turnLog (hw : Obliging w) (hcaps : ModestCaps tenant.quota)
    (hv : ¬ PerimeterValidator.PerimeterFault settings.security request tenant)
    {es : List Event} {out : Ended}
    (h : TurnLog (turnOf w settings request tenant) candidates es out) :
    ∀ e ∈ es, Tame w settings tenant e := by
  refine h.forall (by simp [Tame, Fault]) fun p _ es out hpass => ?_
  exact tame_of_passLog hw hcaps hv hpass

/-- The response a turn serves is the answer to one of its calls. -/
lemma served_mem_of_turnLog {T : Turn} {es : List Event} {response : CompletionResponse}
    (h : TurnLog T candidates es (.served response)) :
    ∃ call, .called call (.returned response) ∈ es := by
  obtain ⟨p, before, body, rfl, -, creds, q, d, mid, call, record, rfl, -⟩ :=
    commits_of_turnLog h
  exact ⟨call, by simp⟩

/-! ### One turn, and the dispatch -/

/-- Whatever is raised is an exception of the library. -/
def Contained {α : Type} (r : EStateM.Result PyException Machine α) : Prop :=
  ∀ e t, r = .error e t → ¬ Foreign e

lemma contained_ok {α : Type} (a : α) (t : Machine) : Contained (.ok a t) := by
  intro e u h
  cases h

lemma contained_error_iff {α : Type} {e : PyException} {t : Machine} :
    Contained (.error e t : EStateM.Result PyException Machine α) ↔ ¬ Foreign e := by
  constructor
  · exact fun h => h e t rfl
  · intro h e' u heq
    cases heq
    exact h

variable {s : Machine}

lemma contained_dispatchTurn (hw : Obliging w) (hcaps : ModestCaps tenant.quota)
    (hinherit : ∀ p ∈ candidates, p.retryAfterSeconds = extractRetryAfterSeconds)
    (st : ConversationState)
    (hv : ¬ PerimeterValidator.PerimeterFault settings.security st.toRequest tenant) :
    Emits Machine.log (AgentLoop.dispatchTurn (buildChain w settings) tenant candidates st) s
      fun _ r => Contained r ∧
        ∀ response t, r = .ok response t → response.message.toolCalls = [] := by
  refine (emits_dispatchTurn st).mono ?_
  rintro es r ⟨out, hturn, hends⟩
  have htame := tame_of_turnLog hw hcaps hv hturn
  have hfaultless : ¬ Faulty w settings tenant es := fun ⟨e, he, hfault⟩ => (htame e he).1 hfault
  rw [faulty_turnLog_iff hinherit hturn] at hfaultless
  cases hends with
  | served response t =>
    refine ⟨contained_ok _ _, fun response' u h => ?_⟩
    cases h
    obtain ⟨call, hcall⟩ := served_mem_of_turnLog hturn
    exact (htame _ hcall).2 call response rfl
  | raised e t =>
    refine ⟨contained_error_iff.mpr hfaultless, fun response u h => ?_⟩
    cases h

/-- The agent loop ends with its first turn. -/
lemma contained_run (hw : Obliging w) (hcaps : ModestCaps tenant.quota)
    (hinherit : ∀ p ∈ candidates, p.retryAfterSeconds = extractRetryAfterSeconds)
    (registry : ToolRegistry) (n : ℕ) (st : ConversationState) (steps : List StepResult)
    (hv : ¬ PerimeterValidator.PerimeterFault settings.security st.toRequest tenant) :
    Emits Machine.log (AgentLoop.run w (buildChain w settings) tenant registry candidates none n
      st steps) s fun _ r => Contained r := by
  cases n with
  | zero => exact emits_pure (contained_ok _ _)
  | succ n =>
    refine emits_bind_returns (emits_pastDeadline none) ?_
    rintro es b t rfl
    cases b with
    | true => exact emits_pure (contained_ok _ _)
    | false =>
      refine emits_bind (contained_dispatchTurn hw hcaps hinherit st hv) ?_ ?_
      · rintro es response u ⟨-, htools⟩
        refine emits_get (emits_bind_returns (emits_absorb st response) ?_)
        rintro fs st₁ v -
        -- no tool was asked for, so there is no second turn
        have hnone : ¬ response.message.toolCalls ≠ [] := not_not.mpr (htools response u rfl)
        dsimp only
        rw [if_neg hnone]
        exact emits_pure (contained_ok _ _)
      · rintro es e u ⟨hcontained, -⟩
        exact contained_error_iff.mpr (contained_error_iff.mp hcontained)

/-- A request the perimeter fails on makes the dispatch raise the same. -/
lemma not_contained_dispatch {g : ModelGateway} {tools : Option ToolRegistry}
    (hv : PerimeterValidator.PerimeterFault g.settings.security request tenant) :
    ¬ Contained ((g.dispatch w request tenant tools).run s) := by
  obtain ⟨es, -, out, hlog, hends⟩ := @emits_dispatch w tenant s g request tools
  cases hlog with
  | @rejected e h =>
    generalize (g.dispatch w request tenant tools).run s = r at hends ⊢
    cases hends
    exact fun hcontained => contained_error_iff.mp hcontained ((perimeterFault_iff h).mp hv)
  | unrouted h => exact absurd hv (not_perimeterFault h)
  | looped h => exact absurd hv (not_perimeterFault h)

/-- **One dispatch over obliging providers.** It raises only exceptions of the library exactly
when the perimeter does on its request. -/
theorem contained_dispatch_iff {g : ModelGateway} (hw : Obliging w)
    (hcaps : ModestCaps tenant.quota)
    (hfloor : ∀ c, g.settings.routing.complexityFloor.get? c ≠ none)
    (hinherit : ∀ p ∈ g.providers.all, p.retryAfterSeconds = extractRetryAfterSeconds) :
    Contained ((g.dispatch w request tenant none).run s) ↔
      ¬ PerimeterValidator.PerimeterFault g.settings.security request tenant := by
  refine ⟨fun hcontained hv => not_contained_dispatch hv hcontained, fun hv => ?_⟩
  have hrun : Emits Machine.log (g.dispatch w request tenant none) s fun _ r => Contained r := by
    refine emits_bind (emits_prepare g request) ?_ ?_
    · intro es candidates t h
      cases h with
      | routed _ hr =>
        have hcandidates : ∀ p ∈ candidates, p.retryAfterSeconds = extractRetryAfterSeconds :=
          fun p hp => hinherit p (ModelRouter.route_registered hr hp)
        -- the perimeter reads the same messages and tools off the first turn's request
        exact contained_run hw hcaps hcandidates _ _ _ _ hv
    · intro es e t h
      cases h with
      | rejected h => exact contained_error_iff.mpr (mt (perimeterFault_iff h).mpr hv)
      | unrouted _ h => exact absurd (route_error_iff.mp ⟨_, h⟩) (hfloor _)
  obtain ⟨es, -, hcontained⟩ := hrun
  exact hcontained

end

/-! ### The perimeter on a prompt -/

/-- The size of the prompt in UTF-8 exists and can be printed. -/
def Measurable (prompt : PyStr) : Prop := ∃ bytes, utf8Len prompt = some bytes ∧
  (strInt bytes).isSome

lemma estimatePayloadBytes_userRequest (prompt : PyStr) (tenant : TenantId) :
    PerimeterValidator.estimatePayloadBytes (userRequest prompt tenant) = encodedLen prompt := by
  have hmessage : PerimeterValidator.messageBytes { role := .user, content := some prompt } =
      encodedLen prompt := by
    unfold PerimeterValidator.messageBytes
    cases h : encodedLen prompt <;> simp [h, bind, Except.bind, pure, Except.pure]
  simp only [PerimeterValidator.estimatePayloadBytes, userRequest, sumOf, hmessage]
  cases encodedLen prompt <;> simp [bind, Except.bind, pure, Except.pure]

lemma strInt_isSome_of_le {n : ℕ} (h : n ≤ 1000000) : (strInt n).isSome := by
  have hdigits : 1000000 < 10 ^ maxStrDigits := by decide +kernel
  have hlt : (n : ℤ).natAbs < 10 ^ maxStrDigits := by
    rw [Int.natAbs_natCast]
    exact Nat.lt_of_le_of_lt h hdigits
  rw [strInt, if_pos hlt]
  rfl

lemma perimeterFault_userRequest_iff {prompt : PyStr} {declared : TenantId}
    {tenant : TenantContext} (htenant : tenant.tenantId ≠ []) :
    PerimeterValidator.PerimeterFault {} (userRequest prompt declared) tenant ↔
      ¬ Measurable prompt := by
  have hsize := estimatePayloadBytes_userRequest prompt declared
  have hmeasured := @PerimeterValidator.estimatePayloadBytes_ok_iff (userRequest prompt declared)
  rw [hsize] at hmeasured
  have hmessages : (userRequest prompt declared).messages ≠ [] := List.cons_ne_nil _ _
  unfold PerimeterValidator.PerimeterFault Measurable
  rw [hsize]
  cases hlen : utf8Len prompt with
  | none =>
    have hunmeasurable : PerimeterValidator.Unmeasurable (userRequest prompt declared) := by
      simpa [encodedLen, hlen] using hmeasured
    simp [htenant, hmessages, hunmeasurable]
  | some bytes =>
    have hok : ¬ PerimeterValidator.Unmeasurable (userRequest prompt declared) := by
      simpa [encodedLen, hlen] using hmeasured
    have hlimit : strInt 1000000 ≠ none := by decide +kernel
    have hsmall : strInt bytes = none → 1000000 < bytes := fun hnone => by
      by_contra hle
      simpa [hnone] using strInt_isSome_of_le (not_lt.mp hle)
    simp only [encodedLen, hlen, hok, false_or, hlimit, or_false]
    constructor
    · rintro ⟨-, -, n, hn, -, hnone⟩ ⟨m, hm, hprints⟩
      cases hn
      cases hm
      simp [hnone] at hprints
    · intro hprints
      have hnone : strInt bytes = none := by simpa using fun h => hprints ⟨bytes, rfl, h⟩
      exact ⟨by simp [htenant], hmessages, bytes, rfl, by exact_mod_cast hsmall hnone, hnone⟩

/-! ### The pipeline -/

/-- Dispatching a decoded request answers exactly when the dispatch is contained. -/
lemma invoke_ok_iff {c : Collaborators} {request : CompletionRequest} {tenant : TenantContext}
    {s : Machine} :
    (∃ response, answer ((invoke c request tenant).run s) = .ok response) ↔
      Contained ((c.gatewayFactory.dispatch c.world request tenant none).run s) := by
  unfold invoke
  rw [EStateM.run_bind]
  have hcaught := catchLibrary_cases
    (c.gatewayFactory.dispatch c.world request tenant none) s
  generalize (c.gatewayFactory.dispatch c.world request tenant none).run s = r at hcaught ⊢
  generalize (catchLibrary _).run s = r' at hcaught ⊢
  cases hcaught with
  | returned result t => exact ⟨fun _ => contained_ok _ _, fun _ => ⟨_, rfl⟩⟩
  | caught e t =>
    rw [contained_error_iff]
    exact ⟨fun _ => not_foreign_library e, fun _ => ⟨_, rfl⟩⟩
  | escaped t he =>
    rw [contained_error_iff]
    simp [Foreign, he]

section

variable (lower : PyStr → PyStr) (vendors : Vendors) (env : Environ) (loads : JsonLoads)
variable (repr : PyStr → PyStr) (verifier : AppCheckVerifier) (authVerifier : AuthVerifier)
variable (clock : ℕ → ℚ)

/-- The default collaborators, over the mock providers. -/
def mocked : Collaborators :=
  defaults lower vendors env loads repr verifier authVerifier (mockWorld vendors clock)

lemma modestCaps_defaultQuota : ModestCaps defaultQuota := by
  intro window
  cases window <;> decide +kernel

lemma defaultFloor (c : TaskComplexity) :
    ({} : GatewaySettings).routing.complexityFloor.get? c ≠ none := by
  cases c <;> decide

variable {lower vendors env loads repr verifier authVerifier clock}

/-- A decoded request is answered unless its prompt cannot be measured. -/
lemma invoke_mocked_iff (hkeyless : Keyless vendors env) {prompt : PyStr} {declared tid : TenantId}
    (htid : tid ≠ []) {s : Machine} :
    (∃ response, answer ((invoke
        (mocked lower vendors env loads repr verifier authVerifier clock)
        (userRequest prompt declared) (buildTenant tid)).run s) = .ok response) ↔
      Measurable prompt := by
  have hinherit : ∀ p ∈ (registerProviders vendors env {}).all,
      p.retryAfterSeconds = extractRetryAfterSeconds := by
    intro p hp
    obtain ⟨slot, -, rfl⟩ := mem_registerProviders vendors env hkeyless hp
    rfl
  have hdispatch := @contained_dispatch_iff (mockWorld vendors clock)
    (userRequest prompt declared) (buildTenant tid) s (buildGateway lower vendors env)
    (obliging_mockWorld vendors clock) modestCaps_defaultQuota defaultFloor hinherit
  rw [invoke_ok_iff]
  refine hdispatch.trans ?_
  have hfault := @perimeterFault_userRequest_iff prompt declared (buildTenant tid) htid
  exact (not_congr hfault).trans not_not

end

/-- **When the pipeline answers.** Over keyless mock providers a dispatch returns a status and a
body, whatever the store holds, exactly when the caller is turned away by a guard, or the body
is, or its prompt can be measured in UTF-8. -/
theorem served_iff_measurable (lower : PyStr → PyStr) (vendors : Vendors) (env : Environ)
    (loads : JsonLoads) (repr : PyStr → PyStr) (verifier : AppCheckVerifier)
    (authVerifier : AuthVerifier) (clock : ℕ → ℚ)
    (appCheckToken authorizationHeader : Option PyStr) (rawBody : Bytes) (q : QuotaState)
    (hkeyless : Keyless vendors env) :
    let c := mocked lower vendors env loads repr verifier authVerifier clock
    (∃ response, answer (served c appCheckToken authorizationHeader rawBody q) = .ok response) ↔
      (Guarded c appCheckToken authorizationHeader →
        ∀ prompt, Prompted loads rawBody prompt → Measurable prompt) := by
  intro c
  unfold served
  cases runDispatch_cases c appCheckToken authorizationHeader rawBody with
  | turnedAway hrun hnone =>
    rw [hrun]
    refine ⟨fun _ hguarded prompt hprompt => ?_, fun _ => ⟨_, rfl⟩⟩
    exact absurd hprompt (hnone hguarded prompt)
  | invoked hrun hguarded hprompted hdeclared =>
    rw [hrun]
    refine (invoke_mocked_iff hkeyless (tenantId_ne_nil _ hdeclared)).trans ?_
    constructor
    · intro hmeasurable _ prompt' hprompt'
      rwa [hprompted.unique hprompt'] at hmeasurable
    · exact fun h => h hguarded _ hprompted

/-! ### An escaped lone surrogate -/

namespace Sample

open Pipeline.Sample

/-- A prompt of one escaped code point, a lone surrogate. -/
def surrogateBody : Bytes := bytes "\x7b\"prompt\":\"\\ud800\"\x7d"

def plainBody : Bytes := bytes "\x7b\"prompt\":\"hi\"\x7d"

/-- `json.loads` on the two bodies. -/
def loads : JsonLoads := fun raw =>
  if raw = surrogateBody then .ok (.dict [(py "prompt", .str [.surrogate 0])])
  else if raw = plainBody then .ok (.dict [(py "prompt", .str (py "hi"))])
  else .error (py "Expecting value: line 1 column 1 (char 0)")

/-- `NoopAuthVerifier`. -/
def anyUser : AuthVerifier := fun _ => .ok ⟨none⟩

lemma keyless : Keyless vendors fun _ => none := fun _ _ => rfl

end Sample

/-- A lone surrogate in the prompt makes the pipeline raise. -/
theorem surrogate_prompt_raises : ¬ ∀ (lower : PyStr → PyStr) (vendors : Vendors) (env : Environ)
    (loads : JsonLoads) (repr : PyStr → PyStr) (verifier : AppCheckVerifier)
    (authVerifier : AuthVerifier) (clock : ℕ → ℚ)
    (appCheckToken authorizationHeader : Option PyStr) (rawBody : Bytes) (q : QuotaState),
    Keyless vendors env →
    ∃ response, answer (served (mocked lower vendors env loads repr verifier authVerifier clock)
      appCheckToken authorizationHeader rawBody q) = .ok response := by
  intro h
  obtain ⟨response, hr⟩ := h id Sample.vendors (fun _ => none) Sample.loads id Sample.anyApp
    Sample.anyUser (fun _ => 0) none none Sample.surrogateBody {} Sample.keyless
  have hraises : (answer (served (mocked id Sample.vendors (fun _ => none) Sample.loads id
      Sample.anyApp Sample.anyUser fun _ => 0) none none Sample.surrogateBody {})).isOk =
      false := by
    decide +kernel
  rw [hr] at hraises
  cases hraises

/-- A plain prompt is answered. -/
theorem plain_prompt_answered :
    ∃ response, answer (served (mocked id Sample.vendors (fun _ => none) Sample.loads id
      Sample.anyApp Sample.anyUser fun _ => 0) none none Sample.plainBody {}) = .ok response := by
  refine (served_iff_measurable id Sample.vendors (fun _ => none) Sample.loads id Sample.anyApp
    Sample.anyUser (fun _ => 0) none none Sample.plainBody {} Sample.keyless).mpr ?_
  rintro - prompt ⟨payload, hloads, hprompt, -⟩
  have hbody : Sample.loads (orEmptyObject Sample.plainBody) =
      .ok (.dict [(py "prompt", .str (py "hi"))]) := rfl
  rw [hbody] at hloads
  cases hloads
  have hprompt' : some (JSONValue.str (py "hi")) = some (.str prompt) := hprompt
  cases hprompt'
  exact ⟨2, rfl, by decide +kernel⟩

end ModelDispatcher.Totality
