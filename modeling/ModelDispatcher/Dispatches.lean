import ModelDispatcher.Gateway
import ModelDispatcher.Refinement

/-!
What a dispatch leaves in the log: the checks at the edge, the routing, and one turn of the
fallback chain after the other, with the messages appended between them.
-/

namespace ModelDispatcher.Dispatches

open Lib.Text Lib.Floats Lib.Logged DataTypes Exceptions Config Providers Quota Security Routing
open Machines Handlers Chain Orchestration Gateway Turns Refinement

/-- The request of the turn after some messages were appended. -/
def extend (request : CompletionRequest) (ms : List Message) : CompletionRequest :=
  { request with messages := request.messages ++ ms }

section

variable (w : World) (settings : GatewaySettings) (tenant : TenantContext)
variable (candidates : List ModelProvider)

/-- The turns left of an agent run, from the request of the next one on; the run returns, or
raises an exception. -/
inductive LoopLog : ℕ → CompletionRequest → List Event → Option PyException → Prop
  | stopped (n : ℕ) (request : CompletionRequest) : LoopLog n request [] none
  | raised {n : ℕ} {request : CompletionRequest} {es : List Event} {e : PyException}
      (h : TurnLog (turnOf w settings request tenant) candidates es (.raised e)) :
      LoopLog (n + 1) request es (some e)
  | completed {n : ℕ} {request : CompletionRequest} {es : List Event}
      {response : CompletionResponse}
      (h : TurnLog (turnOf w settings request tenant) candidates es (.served response)) :
      LoopLog (n + 1) request (es ++ [.appended response.message]) none
  | followed {n : ℕ} {request : CompletionRequest} {es fs : List Event}
      {response : CompletionResponse} {out : Option PyException} (results : List Message)
      (h : TurnLog (turnOf w settings request tenant) candidates es (.served response))
      (hrest : LoopLog n (extend request (response.message :: results)) fs out) :
      LoopLog (n + 1) request
        (es ++ (response.message :: results).map .appended ++ fs) out

end

/-- The tools given to the model, with the caller's messages: the request of the first turn. -/
def firstRequest (request : CompletionRequest) (tenant : TenantContext)
    (tools : Option ToolRegistry) : CompletionRequest :=
  (ModelGateway.initialState request tenant tools).toRequest

/-- A whole dispatch. -/
inductive DispatchLog (w : World) (g : ModelGateway) (request : CompletionRequest)
    (tenant : TenantContext) (tools : Option ToolRegistry) :
    List Event → Option PyException → Prop
  | rejected {e : PyException}
      (h : PerimeterValidator.validate g.settings.security request tenant = .error e) :
      DispatchLog w g request tenant tools [.validated request tenant (.error e)] (some e)
  | unrouted {e : BuiltinError}
      (hv : PerimeterValidator.validate g.settings.security request tenant = .ok ())
      (h : g.router.route request (g.scorer request) = .error e) :
      DispatchLog w g request tenant tools
        [.validated request tenant (.ok ()), .routed (g.scorer request) (.error e)]
        (some (.builtin e))
  | looped {candidates : List ModelProvider} {es : List Event} {out : Option PyException}
      (hv : PerimeterValidator.validate g.settings.security request tenant = .ok ())
      (hr : g.router.route request (g.scorer request) = .ok candidates)
      (h : LoopLog w g.settings tenant candidates g.settings.maxIterations.toNat
        (firstRequest request tenant tools) es out) :
      DispatchLog w g request tenant tools
        (.validated request tenant (.ok ()) ::
          .routed (g.scorer request) (.ok candidates) :: es) out

/-! ### The agent loop refines the grammar -/

section

variable {w : World} {settings : GatewaySettings} {tenant : TenantContext}
variable {candidates : List ModelProvider} {s : Machine}

/-- The exception a run raised, if any. -/
inductive RunEnds {α : Type} : EStateM.Result PyException Machine α → Option PyException → Prop
  | returned (a : α) (t : Machine) : RunEnds (.ok a t) none
  | raised (e : PyException) (t : Machine) : RunEnds (.error e t) (some e)

lemma emits_dispatchTurn (st : ConversationState) :
    Emits Machine.log (AgentLoop.dispatchTurn (buildChain w settings) tenant candidates st) s
      fun es r => ∃ out, TurnLog (turnOf w settings st.toRequest tenant) candidates es out ∧
        TurnEnds r out :=
  emits_step rfl (List.append_nil _).symm (Emits.mono
    (logs_execute (T := turnOf w settings st.toRequest tenant) candidates) fun _ _ h => h.2)

lemma emits_append (st : ConversationState) (m : Message) :
    Emits Machine.log (AgentLoop.append st m) s
      (Returns fun es st' => es = [.appended m] ∧ st' = st.append m) :=
  emits_step rfl rfl (emits_pure ⟨_, _, rfl, rfl, rfl⟩)

lemma emits_absorb (st : ConversationState) (response : CompletionResponse) :
    Emits Machine.log (AgentLoop.absorb st response) s (Returns fun es st' =>
      es = [.appended response.message] ∧
        st'.toRequest = extend st.toRequest [response.message]) := by
  refine emits_bind_returns (emits_append st response.message) ?_
  rintro es st' t ⟨rfl, rfl⟩
  exact emits_pure ⟨_, _, rfl, rfl, rfl⟩

lemma emits_runToolCalls (registry : ToolRegistry) (calls : List ToolCall)
    (st : ConversationState) :
    Emits Machine.log (AgentLoop.runToolCalls registry calls st) s (Returns fun es st' =>
      ∃ ms, es = ms.map .appended ∧ st'.toRequest = extend st.toRequest ms) := by
  induction calls generalizing st s with
  | nil => exact emits_pure ⟨st, s, rfl, [], rfl, by simp [extend]⟩
  | cons call rest ih =>
    refine emits_get (emits_bind_returns (emits_append st _) ?_)
    rintro es st₁ t ⟨rfl, rfl⟩
    refine Emits.mono (ih _) ?_
    rintro fs r ⟨st₂, u, rfl, ms, rfl, hreq⟩
    refine ⟨st₂, u, rfl, _ :: ms, rfl, ?_⟩
    rw [hreq]
    simp [extend, ConversationState.toRequest, ConversationState.append]

lemma emits_pastDeadline (deadline : Option PyFloat) :
    Emits Machine.log (AgentLoop.pastDeadline w deadline) s (Returns fun es _ => es = []) := by
  cases deadline with
  | none => exact emits_pure ⟨_, _, rfl, rfl⟩
  | some d => exact ⟨[], (List.append_nil _).symm, _, _, rfl, rfl⟩

lemma emits_run (registry : ToolRegistry) (deadline : Option PyFloat) (n : ℕ)
    (st : ConversationState) (steps : List StepResult) :
    Emits Machine.log (AgentLoop.run w (buildChain w settings) tenant registry candidates
      deadline n st steps) s fun es r =>
        ∃ out, LoopLog w settings tenant candidates n st.toRequest es out ∧ RunEnds r out := by
  induction n generalizing st steps s with
  | zero => exact emits_pure ⟨_, .stopped _ _, .returned _ _⟩
  | succ n ih =>
    refine emits_bind_returns (emits_pastDeadline deadline) ?_
    rintro es b t rfl
    cases b with
    | true => exact emits_pure ⟨_, .stopped _ _, .returned _ _⟩
    | false =>
      refine emits_bind (emits_dispatchTurn st) ?_ ?_
      · rintro es response t ⟨out, hturn, hends⟩
        cases hends
        refine emits_get (emits_bind_returns (emits_absorb st response) ?_)
        rintro fs st₁ u ⟨rfl, hreq⟩
        dsimp only
        split_ifs with hcalls
        · -- the model asked for tools: their results join the transcript
          refine emits_bind_returns (emits_runToolCalls registry _ st₁) ?_
          rintro gs st₂ v ⟨ms, rfl, hreq'⟩
          refine Emits.mono (ih st₂ _) ?_
          rintro hs r ⟨out, hloop, hends⟩
          refine ⟨out, ?_, hends⟩
          have hnext : st₂.toRequest = extend st.toRequest (response.message :: ms) := by
            rw [hreq', hreq]
            simp [extend]
          rw [hnext] at hloop
          simpa using LoopLog.followed ms hturn hloop
        · exact emits_pure ⟨_, by simpa using LoopLog.completed hturn, .returned _ _⟩
      · rintro es e t ⟨out, hturn, hends⟩
        cases hends
        exact ⟨_, .raised hturn, .raised _ _⟩

/-- The preparation of a request: turned down at the edge, not routed, or routed. -/
inductive Prepared (g : ModelGateway) (request : CompletionRequest) (tenant : TenantContext) :
    List Event → EStateM.Result PyException Machine (List ModelProvider) → Prop
  | rejected {e : PyException} {t : Machine}
      (h : PerimeterValidator.validate g.settings.security request tenant = .error e) :
      Prepared g request tenant [.validated request tenant (.error e)] (.error e t)
  | unrouted {e : BuiltinError} {t : Machine}
      (hv : PerimeterValidator.validate g.settings.security request tenant = .ok ())
      (h : g.router.route request (g.scorer request) = .error e) :
      Prepared g request tenant
        [.validated request tenant (.ok ()), .routed (g.scorer request) (.error e)]
        (.error (.builtin e) t)
  | routed {candidates : List ModelProvider} {t : Machine}
      (hv : PerimeterValidator.validate g.settings.security request tenant = .ok ())
      (h : g.router.route request (g.scorer request) = .ok candidates) :
      Prepared g request tenant
        [.validated request tenant (.ok ()), .routed (g.scorer request) (.ok candidates)]
        (.ok candidates t)

lemma emits_prepare (g : ModelGateway) (request : CompletionRequest) :
    Emits Machine.log (g.prepare request tenant) s (Prepared g request tenant) := by
  unfold ModelGateway.prepare
  refine emits_step rfl rfl ?_
  cases hv : PerimeterValidator.validate g.settings.security request tenant with
  | error e => exact emits_throw (.rejected hv)
  | ok u =>
    refine emits_step rfl (List.append_nil _).symm (emits_step rfl rfl ?_)
    cases hr : g.router.route request (g.scorer request) with
    | error e => exact emits_throw (.unrouted hv hr)
    | ok candidates => exact emits_pure (.routed hv hr)

lemma emits_dispatch (g : ModelGateway) (request : CompletionRequest)
    (tools : Option ToolRegistry) :
    Emits Machine.log (g.dispatch w request tenant tools) s fun es r =>
      ∃ out, DispatchLog w g request tenant tools es out ∧ RunEnds r out := by
  refine emits_bind (emits_prepare g request) ?_ ?_
  · intro es candidates t h
    cases h with
    | routed hv hr =>
      refine Emits.mono (emits_run (tools.getD {}) none _ _ _) ?_
      rintro fs r ⟨out, hloop, hends⟩
      exact ⟨out, .looped hv hr hloop, hends⟩
  · intro es e t h
    cases h with
    | rejected hv => exact ⟨_, .rejected hv, .raised _ _⟩
    | unrouted hv hr => exact ⟨_, .unrouted hv hr, .raised _ _⟩

end

/-- A dispatch on a fresh log, over a quota state. -/
def dispatched (w : World) (g : ModelGateway) (request : CompletionRequest)
    (tenant : TenantContext) (tools : Option ToolRegistry) (q : QuotaState) :
    EStateM.Result PyException Machine RunResult :=
  (g.dispatch w request tenant tools).run { quota := q }

/-- **A dispatch refines its grammar.** -/
theorem dispatched_log (w : World) (g : ModelGateway) (request : CompletionRequest)
    (tenant : TenantContext) (tools : Option ToolRegistry) (q : QuotaState) :
    ∃ out, DispatchLog w g request tenant tools
        (finalState (dispatched w g request tenant tools q)).log out ∧
      RunEnds (dispatched w g request tenant tools q) out := by
  obtain ⟨es, hlog, out, hdispatch, hends⟩ :=
    @emits_dispatch w tenant { quota := q } g request tools
  have hlog : (finalState (dispatched w g request tenant tools q)).log = es := hlog
  rw [hlog]
  exact ⟨out, hdispatch, hends⟩

end ModelDispatcher.Dispatches
