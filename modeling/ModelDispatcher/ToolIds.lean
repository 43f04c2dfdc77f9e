import ModelDispatcher.Delivery
import ModelDispatcher.Gemini
import ModelDispatcher.Transcript

/-!
The ids of the tool calls in a transcript. The Gemini adapter makes them up from positions in one
response, so two turns may use the same ones; the ids of a run are distinct exactly when no
made-up id is already in the request it answers.
-/

namespace ModelDispatcher.ToolIds

open Lib.Text Lib.Floats Lib.Logged DataTypes Exceptions Config Providers Quota Security Machines
open Handlers Chain Orchestration Turns Refinement Dispatches Delivery Gemini

/-- The ids of the tool calls of some messages. -/
def toolIds (ms : List Message) : List PyStr := ms.flatMap fun m => m.toolCalls.map (·.id)

/-- What the adapters answer, by the vendors' documentation: Gemini sends no ids, and the ids
that the others send are new. -/
structure Adapters (w : World) (IsGemini : ModelProvider → Prop) : Prop where
  gemini : ∀ log p request key response, IsGemini p →
    w.complete log p request key = .returned response →
      ∃ r, Unnumbered r ∧ response = toResponse p r
  fresh : ∀ log p request key response, ¬ IsGemini p →
    w.complete log p request key = .returned response →
      (toolIds [response.message]).Nodup ∧
        ∀ id ∈ toolIds [response.message], id ∉ toolIds request.messages

/-- A response of Gemini's with a function call at a position whose made-up id is already taken
in the request. -/
def Reuses (IsGemini : ModelProvider → Prop) (p : ModelProvider) (request : CompletionRequest)
    (response : CompletionResponse) : Prop :=
  IsGemini p ∧ ∃ r, Unnumbered r ∧ response = toResponse p r ∧
    ∃ i ∈ positions r, syntheticId i ∈ toolIds request.messages

/-- The event is an answer that reuses an id. -/
def ReusesId (IsGemini : ModelProvider → Prop) : Event → Prop
  | .called call (.returned response) => Reuses IsGemini call.provider call.request response
  | _ => False

/-! ### One answer -/

section

variable {w : World} {IsGemini : ModelProvider → Prop}

lemma toolIds_append (ms ns : List Message) : toolIds (ms ++ ns) = toolIds ms ++ toolIds ns :=
  List.flatMap_append

lemma toolIds_singleton (m : Message) : toolIds [m] = m.toolCalls.map (·.id) := by
  simp [toolIds]

lemma toolIds_eq_nil {ms : List Message} (h : ∀ m ∈ ms, m.toolCalls = []) : toolIds ms = [] := by
  refine List.flatMap_eq_nil_iff.mpr fun m hm => ?_
  rw [h m hm, List.map_nil]

/-- An answer keeps the ids distinct unless it reuses one. -/
lemma nodup_answer (hw : Adapters w IsGemini) {log : List Event} {p : ModelProvider}
    {request : CompletionRequest} {key : Option PyStr} {response : CompletionResponse}
    (hanswer : w.complete log p request key = .returned response)
    (h0 : (toolIds request.messages).Nodup) :
    (toolIds (request.messages ++ [response.message])).Nodup ↔
      ¬ Reuses IsGemini p request response := by
  rw [toolIds_append, List.nodup_append]
  by_cases hp : IsGemini p
  · obtain ⟨r, hr, rfl⟩ := hw.gemini log p request key response hp hanswer
    have hids : toolIds [(toResponse p r).message] = (positions r).map syntheticId := by
      rw [toolIds_singleton, ids_toResponse hr]
    have hnodup : ((positions r).map syntheticId).Nodup :=
      (nodup_positions r).map syntheticId_injective
    rw [hids]
    constructor
    · rintro ⟨-, -, hnew⟩ ⟨-, r', hr', hresponse, i, hi, htaken⟩
      have hsame : (positions r).map syntheticId = (positions r').map syntheticId := by
        rw [← ids_toResponse hr p, hresponse, ids_toResponse hr' p]
      refine hnew _ htaken (syntheticId i) ?_ rfl
      rw [hsame]
      exact List.mem_map_of_mem hi
    · intro hreuses
      refine ⟨h0, hnodup, ?_⟩
      rintro id hid id' hid' rfl
      obtain ⟨i, hi, rfl⟩ := List.mem_map.mp hid'
      exact hreuses ⟨hp, r, hr, rfl, i, hi, hid⟩
  · obtain ⟨hnodup, hnew⟩ := hw.fresh log p request key response hp hanswer
    refine iff_of_true ⟨h0, hnodup, ?_⟩ fun h => hp h.1
    rintro id hid id' hid' rfl
    exact hnew id hid' hid

end

/-! ### One turn -/

/-- The answered calls among some events. -/
def returnsIn (es : List Event) : List (Call × CompletionResponse) :=
  es.filterMap fun
    | .called call (.returned response) => some (call, response)
    | _ => none

lemma returnsIn_append (es fs : List Event) :
    returnsIn (es ++ fs) = returnsIn es ++ returnsIn fs := List.filterMap_append

/-- Nothing was answered, or the turn ended with the one answer to its request. -/
inductive Returned (T : Turn) : List (Call × CompletionResponse) → Ended → Prop
  | none {out : Ended} (h : ∀ response, out ≠ .served response) : Returned T [] out
  | one {call : Call} {response : CompletionResponse} {log : List Event}
      (hrequest : call.request = T.request)
      (hanswer : T.world.complete log call.provider T.request call.apiKey = .returned response) :
      Returned T [(call, response)] (.served response)

section

variable {T : Turn}

lemma Returned.prepend {es fs : List Event} {out : Ended} (h : Returned T (returnsIn es) .failed)
    (h' : Returned T (returnsIn fs) out) : Returned T (returnsIn (es ++ fs)) out := by
  rw [returnsIn_append]
  generalize returnsIn es = rs at h
  cases h
  exact h'

lemma returnsIn_afterFailure {p : ModelProvider} {exc : VendorError} {attempt : ℕ}
    {es : List Event} {out : AttemptEnded} (h : AfterFailure T p exc attempt es out) :
    returnsIn es = [] :=
  List.filterMap_eq_nil_iff.mpr (h.forall rfl fun _ => rfl)

lemma returned_keyLog {k : Key} {n attempt : ℕ} {es : List Event} {out : Ended}
    (h : KeyLog T k n attempt es out) : Returned T (returnsIn es) out := by
  induction h with
  | spent => exact .none (by simp)
  | @again n attempt es fs out h _ ih =>
    have hes : returnsIn es = [] := by
      generalize hout : AttemptEnded.again = o at h
      cases h with
      | served => cases hout
      | library => cases hout
      | failed _ h =>
        have hes := returnsIn_afterFailure h
        exact hes
    rw [returnsIn_append, hes]
    exact ih
  | @ended n attempt es out h =>
    generalize hout : AttemptEnded.ended out = o at h
    cases h with
    | @served response hres =>
      cases hout
      obtain ⟨log, hanswer⟩ := hres
      exact .one rfl hanswer
    | library => cases hout; exact .none (by simp)
    | @failed exc es _ hres h =>
      subst hout
      have hes := returnsIn_afterFailure h
      change Returned T (returnsIn es) out
      rw [hes]
      refine .none fun response hserved => ?_
      rcases h.not_served with rfl | ⟨e, rfl⟩ <;> cases hserved

lemma returned_keysLog {p : ModelProvider} {d : QuotaDecision} {keys : List (Option Credential)}
    {index : ℕ} {es : List Event} {out : Ended} (h : KeysLog T p d keys index es out) :
    Returned T (returnsIn es) out := by
  induction h with
  | exhausted => exact .none (by simp)
  | next h _ ih => exact (returned_keyLog h).prepend ih
  | ended h => exact returned_keyLog h

lemma returned_passLog {p : ModelProvider} {es : List Event} {out : Ended}
    (h : PassLog T p es out) : Returned T (returnsIn es) out := by
  cases h with
  | rejected => exact .none (by simp)
  | unresolved => exact .none (by simp)
  | unjudged => exact .none (by simp)
  | deniedNext => exact .none (by simp)
  | deniedStop => exact .none (by simp)
  | invoked _ _ _ _ hkeys =>
    have hreturned := returned_keysLog hkeys
    exact hreturned

lemma returned_turnLog {candidates : List ModelProvider} {es : List Event} {out : Ended}
    (h : TurnLog T candidates es out) : Returned T (returnsIn es) out := by
  induction h with
  | exhausted => exact .none (by simp)
  | next h _ ih =>
    have hreturned := returned_passLog h
    exact Returned.prepend hreturned ih
  | ended h =>
    have hreturned := returned_passLog h
    exact hreturned

end

/-- The answers among some events tell whether one of them reuses an id. -/
lemma reuses_iff_returnsIn {IsGemini : ModelProvider → Prop} {es : List Event} :
    (∃ e ∈ es, ReusesId IsGemini e) ↔
      ∃ x ∈ returnsIn es, Reuses IsGemini x.1.provider x.1.request x.2 := by
  constructor
  · rintro ⟨e, he, h⟩
    unfold ReusesId at h
    split at h
    · next call response => exact ⟨(call, response), List.mem_filterMap.mpr ⟨_, he, rfl⟩, h⟩
    · exact h.elim
  · rintro ⟨x, hx, h⟩
    obtain ⟨e, he, hsome⟩ := List.mem_filterMap.mp hx
    split at hsome
    · cases hsome
      exact ⟨_, he, h⟩
    · cases hsome

section

variable {w : World} {IsGemini : ModelProvider → Prop} {settings : GatewaySettings}
variable {tenant : TenantContext} {candidates : List ModelProvider}

/-- Some event reuses an id. -/
def Clashes (IsGemini : ModelProvider → Prop) (es : List Event) : Prop :=
  ∃ e ∈ es, ReusesId IsGemini e

lemma clashes_append {es fs : List Event} :
    Clashes IsGemini (es ++ fs) ↔ Clashes IsGemini es ∨ Clashes IsGemini fs := by
  simp only [Clashes, List.mem_append, or_and_right, exists_or]

lemma not_clashes_appended (ms : List Message) : ¬ Clashes IsGemini (ms.map .appended) := by
  rintro ⟨e, he, h⟩
  obtain ⟨m, -, rfl⟩ := List.mem_map.mp he
  exact h

/-- A turn that raises answers nothing. -/
lemma not_clashes_raised {request : CompletionRequest} {es : List Event} {e : PyException}
    (h : TurnLog (turnOf w settings request tenant) candidates es (.raised e)) :
    ¬ Clashes IsGemini es := by
  have hreturned := returned_turnLog h
  rw [Clashes, reuses_iff_returnsIn]
  generalize returnsIn es = rs at hreturned
  cases hreturned
  simp

/-- The answer of a turn keeps the ids distinct unless the turn clashes. -/
lemma nodup_turn (hw : Adapters w IsGemini) {request : CompletionRequest} {es : List Event}
    {response : CompletionResponse}
    (h : TurnLog (turnOf w settings request tenant) candidates es (.served response))
    (h0 : (toolIds request.messages).Nodup) :
    (toolIds (request.messages ++ [response.message])).Nodup ↔ ¬ Clashes IsGemini es := by
  have hreturned := returned_turnLog h
  rw [Clashes, reuses_iff_returnsIn]
  generalize returnsIn es = rs at hreturned
  cases hreturned with
  | none h => exact absurd rfl (h response)
  | @one call _ log hrequest hanswer =>
    have hiff := nodup_answer hw hanswer h0
    simp only [List.mem_singleton, exists_eq_left, hrequest]
    exact hiff

/-! ### A run -/

/-- The transcript is the first messages with those appended, and its ids are distinct unless an
answer reused one. -/
structure Accounts (IsGemini : ModelProvider → Prop) (st : ConversationState) (es : List Event)
    (r : EStateM.Result PyException Machine RunResult) : Prop where
  transcript : ∀ result, answer r = .ok result →
    result.transcript = st.messages ++ appendedIn es
  ids : (toolIds st.messages).Nodup →
    ((toolIds (st.messages ++ appendedIn es)).Nodup ↔ ¬ Clashes IsGemini es)

lemma accounts_finalize (st : ConversationState) (steps : List StepResult) (reason : StopReason)
    (s : Machine) :
    Accounts IsGemini st [] (.ok (AgentLoop.finalize st steps reason) s) where
  transcript result h := by
    cases h
    exact (List.append_nil _).symm
  ids h0 := iff_of_true (by simpa [appendedIn] using h0) (by simp [Clashes])

/-- The rest of a run after a turn and the results of its tools. -/
lemma Accounts.prepend (hw : Adapters w IsGemini) {st st' : ConversationState}
    {response : CompletionResponse} {results : List Message} {es fs : List Event}
    {r : EStateM.Result PyException Machine RunResult}
    (h : TurnLog (turnOf w settings st.toRequest tenant) candidates es (.served response))
    (hresults : ∀ m ∈ results, m.toolCalls = [])
    (hst : st'.messages = st.messages ++ (response.message :: results))
    (hrest : Accounts IsGemini st' fs r) :
    Accounts IsGemini st (es ++ (response.message :: results).map .appended ++ fs) r where
  transcript result hr := by
    rw [hrest.transcript result hr, hst, appendedIn_append, appendedIn_append, appendedIn_map,
      appendedIn_eq_nil (not_append_of_turnLog h), List.nil_append, List.append_assoc]
  ids h0 := by
    have hturn := nodup_turn hw h h0
    have hids : toolIds st'.messages = toolIds (st.messages ++ [response.message]) := by
      rw [hst, List.append_cons, toolIds_append, toolIds_eq_nil hresults, List.append_nil]
    rw [appendedIn_append, appendedIn_append, appendedIn_map,
      appendedIn_eq_nil (not_append_of_turnLog h), List.nil_append, ← List.append_assoc, ← hst,
      clashes_append, clashes_append, or_iff_left (not_clashes_appended _)]
    by_cases hclash : Clashes IsGemini es
    · -- the turn has clashed: its ids stay in the transcript
      refine iff_of_false (fun hnodup => ?_) fun h => h (.inl hclash)
      rw [toolIds_append, hids] at hnodup
      exact hturn.mp (hnodup.sublist (List.sublist_append_left _ _)) hclash
    · rw [or_iff_right hclash]
      exact hrest.ids (hids ▸ hturn.mpr hclash)

/-- The results of a turn's tools: messages without tool calls. -/
lemma emits_results (registry : ToolRegistry) (calls : List ToolCall) (st : ConversationState)
    (s : Machine) :
    Emits Machine.log (AgentLoop.runToolCalls registry calls st) s (Returns fun es st' =>
      ∃ ms, es = ms.map .appended ∧ st'.messages = st.messages ++ ms ∧
        ∀ m ∈ ms, m.toolCalls = []) := by
  refine ((emits_runToolCalls registry calls st).and_yields
    (Transcript.yields_runToolCalls registry calls st)).mono ?_
  rintro es r ⟨⟨st', t, rfl, ms, rfl, hreq⟩, hresults⟩
  obtain ⟨-, results, -, hmessages⟩ := hresults st' rfl
  have hst' : st'.messages = st.messages ++ ms := congrArg CompletionRequest.messages hreq
  refine ⟨st', t, rfl, ms, rfl, hst', ?_⟩
  rw [hst'] at hmessages
  rw [List.append_cancel_left hmessages]
  intro m hm
  obtain ⟨result, -, rfl⟩ := List.mem_map.mp hm
  rfl

lemma emits_accounts (hw : Adapters w IsGemini) (registry : ToolRegistry)
    (deadline : Option PyFloat) (n : ℕ) (st : ConversationState) (steps : List StepResult)
    (s : Machine) :
    Emits Machine.log (AgentLoop.run w (buildChain w settings) tenant registry candidates
      deadline n st steps) s (Accounts IsGemini st) := by
  induction n generalizing st steps s with
  | zero => exact emits_pure (accounts_finalize st steps _ _)
  | succ n ih =>
    refine emits_bind_returns (emits_pastDeadline deadline) ?_
    rintro es late t rfl
    cases late with
    | true => exact emits_pure (accounts_finalize st steps _ _)
    | false =>
      refine emits_bind (emits_dispatchTurn st) ?_ ?_
      · rintro es response t ⟨out, hturn, hends⟩
        cases hends
        refine emits_get (emits_bind_returns (emits_absorb st response) ?_)
        rintro fs st₁ u ⟨rfl, hreq⟩
        have hst₁ : st₁.messages = st.messages ++ [response.message] :=
          congrArg CompletionRequest.messages hreq
        dsimp only
        split_ifs with hcalls
        · refine emits_bind_returns (emits_results registry _ st₁ u) ?_
          rintro gs st₂ v ⟨ms, rfl, hst₂, hms⟩
          refine (ih st₂ _ v).mono fun fs r hrest => ?_
          have haccounts := hrest.prepend hw hturn hms (by rw [hst₂, hst₁, List.append_assoc]; rfl)
          simpa using haccounts
        · have hnone : ∀ m ∈ ([] : List Message), m.toolCalls = [] := by simp
          have haccounts := Accounts.prepend hw hturn hnone hst₁ (accounts_finalize st₁
            (steps ++ [⟨response.message, response.usage, t.scratch.attempts⟩]) .completed u)
          exact emits_pure (by simpa using haccounts)
      · rintro es e t ⟨out, hturn, hends⟩
        cases hends
        refine ⟨fun result h => absurd h (by simp), fun h0 => ?_⟩
        rw [List.nil_append, appendedIn_eq_nil (not_append_of_turnLog hturn), List.append_nil]
        exact iff_of_true h0 (not_clashes_raised hturn)

end

/-- The transcript of a run on a fresh log; of one that raised, the conversation so far. -/
def transcriptOf (st : ConversationState) :
    EStateM.Result PyException Machine RunResult → List Message
  | .ok result _ => result.transcript
  | .error _ t => st.messages ++ appendedIn t.log

/-- **Tool-call ids.** With adapters as documented, the ids in the transcript of a run are
distinct exactly when no answer of Gemini's has a function call at a position whose made-up id
was already in the request. -/
theorem toolIds_nodup_iff (w : World) (settings : GatewaySettings) (tenant : TenantContext)
    (registry : ToolRegistry) (candidates : List ModelProvider) (deadline : Option PyFloat)
    (n : ℕ) (st : ConversationState) (q : QuotaState) (IsGemini : ModelProvider → Prop)
    (hw : Adapters w IsGemini) (h0 : (toolIds st.messages).Nodup) :
    let ran := (AgentLoop.run w (buildChain w settings) tenant registry candidates deadline n st
      []).run { quota := q }
    (toolIds (transcriptOf st ran)).Nodup ↔ ∀ e ∈ (finalState ran).log, ¬ ReusesId IsGemini e := by
  intro ran
  obtain ⟨es, hlog, haccounts⟩ := emits_accounts hw registry deadline n st [] { quota := q }
  have hlog : (finalState ran).log = es := hlog
  have htranscript : transcriptOf st ran = st.messages ++ appendedIn es := by
    cases hran : ran with
    | ok result t => exact haccounts.transcript result (by rw [← answer_ok result t, ← hran])
    | error e t => rw [← hlog, hran]; rfl
  rw [htranscript, haccounts.ids h0, hlog, Clashes]
  push Not
  rfl

namespace Sample

open Refinement.Sample (tenant provider)

/-- Gemini asks for a tool until the conversation is long enough. -/
def answer (long : ℕ) (request : CompletionRequest) : GenerateContentResponse :=
  { candidates := [⟨some (some [if request.messages.length < long then
      { functionCall := some { name := py "clock" } } else { text := some (py "done") }])⟩] }

def world (long : ℕ) : World where
  monotonic _ := 0
  complete _ p request _ := .returned (toResponse p (answer long request))

lemma adapters (long : ℕ) : Adapters (world long) fun _ => True where
  gemini log p request key response _ h := by
    cases h
    refine ⟨_, ?_, rfl⟩
    unfold answer
    split_ifs
    · rintro x hx
      rw [List.mem_singleton.mp hx]
      rfl
    · intro x hx
      cases hx
  fresh log p request key response h := absurd trivial h

abbrev ran (long : ℕ) : EStateM.Result PyException Machine RunResult :=
  (AgentLoop.run (world long) (buildChain (world long) {}) tenant {} [provider "p" .free] none 5
    Transcript.Sample.state []).run {}

end Sample

/-- Two tool turns of Gemini's use the same id. -/
theorem second_turn_reuses_id : ¬ ∀ (w : World) (settings : GatewaySettings)
    (tenant : TenantContext) (registry : ToolRegistry) (candidates : List ModelProvider)
    (deadline : Option PyFloat) (n : ℕ) (st : ConversationState) (q : QuotaState)
    (IsGemini : ModelProvider → Prop), Adapters w IsGemini → (toolIds st.messages).Nodup →
    (toolIds (transcriptOf st ((AgentLoop.run w (buildChain w settings) tenant registry candidates
      deadline n st []).run { quota := q }))).Nodup := by
  intro h
  have hnodup : (toolIds (transcriptOf Transcript.Sample.state (Sample.ran 4))).Nodup :=
    h _ _ _ _ _ _ _ _ {} _ (Sample.adapters 4) (by decide)
  revert hnodup
  decide +kernel

/-- One tool turn of Gemini's. -/
theorem first_turn_reuses_none : (toolIds (transcriptOf Transcript.Sample.state
      (Sample.ran 2))).length = 1 ∧
    ∀ e ∈ (finalState (Sample.ran 2)).log, ¬ ReusesId (fun _ => True) e := by
  have hids : (toolIds (transcriptOf Transcript.Sample.state (Sample.ran 2))).length = 1 := by
    decide +kernel
  refine ⟨hids, (toolIds_nodup_iff _ _ _ _ _ _ _ _ {} _ (Sample.adapters 2) (by decide)).mp ?_⟩
  decide +kernel

end ModelDispatcher.ToolIds
