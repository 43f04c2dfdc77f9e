import ModelDispatcher.ToolIds
import ModelDispatcher.VendorRequests

/-!
Over a whole dispatch, the three vendors are asked the same: each request that reaches a provider,
on whichever turn and after whichever failures, says one conversation in all three translations.
So it does not matter to the conversation at which of them a failover ends.
-/

namespace ModelDispatcher.SameConversation

open Lib.Text Lib.Floats Lib.Json Lib.Logged DataTypes Exceptions Config Providers Machines Chain
open Orchestration Gateway Transcript GeminiRequest Replay VendorRequests Turns Refinement
open Dispatches Delivery ToolIds

/-- A transcript as the agent loop keeps it. -/
structure Speakable (loads : PyStr → Option JSONObject) (ms : List Message) : Prop where
  formed : ∀ m ∈ ms, Formed m
  inverts : ∀ m ∈ ms, Inverts loads m
  shaped : Shaped [] ms

/-- An answer of a model: an assistant message whose calls have distinct ids and arguments that
encode. -/
structure Answers (loads : PyStr → Option JSONObject) (m : Message) : Prop where
  answering : Answering m
  inverts : Inverts loads m

section

variable {loads : PyStr → Option JSONObject} {ms : List Message}

lemma formed_toolMessage (result : ToolResult) : Formed (toolMessage result) :=
  ⟨fun _ => ⟨result, rfl⟩, fun h => by cases h⟩

lemma Answers.formed {m : Message} (h : Answers loads m) : Formed m := by
  have hrole : m.role = .assistant := h.answering.1
  constructor
  · intro htool
    rw [hrole] at htool
    cases htool
  · intro hsystem
    rw [hrole] at hsystem
    cases hsystem

/-- A round of the loop keeps a transcript speakable. -/
lemma Speakable.round (h : Speakable loads ms) {r : Round}
    (hanswer : Answers loads r.step.message) :
    Speakable loads (ms ++ r.messages) := by
  have hmessages : ∀ m ∈ r.messages, m = r.step.message ∨ ∃ result, m = toolMessage result := by
    intro m hm
    rcases List.mem_cons.mp hm with rfl | hm
    · exact .inl rfl
    · obtain ⟨result, -, rfl⟩ := List.mem_map.mp hm
      exact .inr ⟨result, rfl⟩
  refine ⟨fun m hm => ?_, fun m hm => ?_, ?_⟩
  · rcases List.mem_append.mp hm with hm | hm
    · exact h.formed m hm
    · rcases hmessages m hm with rfl | ⟨result, rfl⟩
      · exact hanswer.formed
      · exact formed_toolMessage result
  · rcases List.mem_append.mp hm with hm | hm
    · exact h.inverts m hm
    · rcases hmessages m hm with rfl | ⟨result, rfl⟩
      · exact hanswer.inverts
      · exact fun call hcall => by cases hcall
  · refine h.shaped.append fun next => ?_
    rw [← List.append_nil r.messages]
    exact shaped_round hanswer.answering fun _ => .nil

end

section

variable {loads : PyStr → Option JSONObject} {w : World} {settings : GatewaySettings}
variable {tenant : TenantContext} {candidates : List ModelProvider}

/-- What the vendors answer, as the adapters hand it on. -/
def WorldAnswers (loads : PyStr → Option JSONObject) (w : World) : Prop :=
  ∀ log p request key response, w.complete log p request key = .returned response →
    Answers loads response.message

/-- Every call among some events is made with a speakable transcript. -/
def CallsSpeak (loads : PyStr → Option JSONObject) (es : List Event) : Prop :=
  ∀ x ∈ callsIn es, Speakable loads x.1.request.messages

lemma CallsSpeak.append {es fs : List Event} (h : CallsSpeak loads es)
    (h' : CallsSpeak loads fs) : CallsSpeak loads (es ++ fs) := by
  intro x hx
  rw [callsIn_append] at hx
  exact (List.mem_append.mp hx).elim (h x) (h' x)

lemma callsSpeak_of_none {es : List Event} (h : ∀ e ∈ es, ∀ call result, e ≠ .called call result) :
    CallsSpeak loads es := by
  intro x hx
  rw [callsIn_eq_nil h] at hx
  cases hx

/-- All calls of a turn are made with the transcript it starts from. -/
lemma callsSpeak_turn {request : CompletionRequest} {es : List Event} {out : Ended}
    (h : TurnLog (turnOf w settings request tenant) candidates es out)
    (hspeak : Speakable loads request.messages) : CallsSpeak loads es := by
  intro x hx
  obtain ⟨pre, post, hsplit⟩ := List.append_of_mem (mem_callsIn.mp hx)
  obtain ⟨-, hrequest⟩ := delivered_turn h pre _ post hsplit x.1 x.2 rfl
  have hnone : appendedIn pre = [] :=
    appendedIn_eq_nil fun e he => not_append_of_turnLog h e (by rw [hsplit]; simp [he])
  rw [hrequest, hnone, extend_nil]
  exact hspeak

lemma answers_of_turn (hw : WorldAnswers loads w) {request : CompletionRequest} {es : List Event}
    {response : CompletionResponse}
    (h : TurnLog (turnOf w settings request tenant) candidates es (.served response)) :
    Answers loads response.message := by
  have hreturned := returned_turnLog h
  generalize returnsIn es = rs at hreturned
  cases hreturned with
  | none h => exact absurd rfl (h response)
  | one _ hanswer => exact hw _ _ _ _ _ hanswer

/-- The results of the tools a turn called, as a round of the loop. -/
lemma emits_round (registry : ToolRegistry) (step : StepResult) (st : ConversationState)
    (s : Machine) :
    Emits Machine.log (AgentLoop.runToolCalls registry step.message.toolCalls st) s
      (Returns fun es st' => (∀ e ∈ es, ∀ call result, e ≠ .called call result) ∧
        ∃ r : Round, r.step = step ∧ st'.messages = st.messages ++ r.results.map toolMessage) := by
  refine ((emits_runToolCalls registry _ st).and_yields
    (Transcript.yields_runToolCalls registry _ st)).mono ?_
  rintro es r ⟨⟨st', t, rfl, ms, rfl, -⟩, hresults⟩
  obtain ⟨-, results, hids, hmessages⟩ := hresults st' rfl
  exact ⟨st', t, rfl, by simp, ⟨step, results, hids⟩, rfl, hmessages⟩

/-- The run of the loop, by induction on the turns left. -/
lemma emits_callsSpeak (hw : WorldAnswers loads w) (registry : ToolRegistry)
    (deadline : Option PyFloat) (n : ℕ) (st : ConversationState) (steps : List StepResult)
    (s : Machine) (hspeak : Speakable loads st.messages) :
    Emits Machine.log (AgentLoop.run w (buildChain w settings) tenant registry candidates
      deadline n st steps) s fun es _ => CallsSpeak loads es := by
  induction n generalizing st steps s with
  | zero => exact emits_pure (callsSpeak_of_none (by simp))
  | succ n ih =>
    refine emits_bind_returns (emits_pastDeadline deadline) ?_
    rintro es late t rfl
    cases late with
    | true => exact emits_pure (callsSpeak_of_none (by simp))
    | false =>
      refine emits_bind (emits_dispatchTurn st) ?_ ?_
      · rintro es response t ⟨out, hturn, hends⟩
        cases hends
        have hes : CallsSpeak loads es := callsSpeak_turn hturn hspeak
        refine emits_get (emits_bind_returns (emits_absorb st response) ?_)
        rintro fs st₁ u ⟨rfl, hreq⟩
        have hst₁ : st₁.messages = st.messages ++ [response.message] :=
          congrArg CompletionRequest.messages hreq
        have happended : CallsSpeak loads [.appended response.message] :=
          callsSpeak_of_none (by simp)
        dsimp only
        split_ifs with hcalls
        · refine emits_bind_returns
            (emits_round registry ⟨response.message, response.usage, t.scratch.attempts⟩ st₁ u) ?_
          rintro gs st₂ v ⟨hgs, r, hstep, hst₂⟩
          have hnext : Speakable loads st₂.messages := by
            rw [hst₂, hst₁, List.append_assoc]
            have hround := hspeak.round (r := r)
            rw [Round.messages, hstep] at hround
            exact hround (answers_of_turn hw hturn)
          refine (ih st₂ _ v hnext).mono fun hs r hhs => ?_
          exact hes.append (happended.append ((callsSpeak_of_none hgs).append hhs))
        · exact emits_pure (hes.append (happended.append (callsSpeak_of_none (by simp))))
      · rintro es e t ⟨out, hturn, hends⟩
        exact callsSpeak_turn hturn hspeak

/-- **Every vendor is asked the same.** Whatever turns a dispatch has played and whichever calls
failed, each request it hands to a provider asks the same conversation of OpenAI (but for the
failures of tools), Anthropic and Gemini. -/
theorem every_vendor_asked_the_same (loads : PyStr → Option JSONObject) (w : World)
    (g : ModelGateway) (request : CompletionRequest) (tenant : TenantContext)
    (tools : Option ToolRegistry) (q : Quota.QuotaState) (hw : WorldAnswers loads w)
    (hspeak : Speakable loads request.messages) :
    ∀ x ∈ callsIn (finalState (dispatched w g request tenant tools q)).log,
      ∀ model, SaysTheSame loads model x.1.request := by
  have hemits : Emits Machine.log (g.dispatch w request tenant tools) { quota := q }
      fun es _ => CallsSpeak loads es := by
    refine emits_bind (emits_prepare g request) ?_ fun es e t h => ?_
    · intro es routed t h
      have hes : CallsSpeak loads es := by
        cases h with
        | routed => exact callsSpeak_of_none (by simp)
      exact (emits_callsSpeak hw _ _ _ _ _ t hspeak).mono fun fs r hfs => hes.append hfs
    · cases h with
      | rejected => exact callsSpeak_of_none (by simp)
      | unrouted => exact callsSpeak_of_none (by simp)
  obtain ⟨es, hlog, hes⟩ := hemits
  intro x hx model
  have hlog : (finalState (dispatched w g request tenant tools q)).log = es := hlog
  rw [hlog] at hx
  have h := hes x hx
  exact saysTheSame h.formed h.inverts h.shaped model

end

namespace Sample

open Refinement.Sample Transcript.Sample Delivery.Sample

lemma worldAnswers : WorldAnswers Replay.Sample.loads tooling := by
  intro log p request key response h
  simp only [tooling, CallResult.returned.injEq] at h
  subst h
  split_ifs
  · exact ⟨⟨rfl, by decide⟩, fun call hcall => by cases hcall⟩
  · refine ⟨⟨rfl, by decide⟩, fun call hcall => ?_⟩
    have hnone : call.arguments = [] := by
      simp only [List.mem_cons, List.not_mem_nil, or_false] at hcall
      rcases hcall with rfl | rfl <;> rfl
    rw [hnone]
    exact ⟨py "\x7b\x7d", by decide, if_pos rfl⟩

lemma speakable_request : Speakable Replay.Sample.loads request.messages where
  formed m hm := by
    obtain rfl := List.mem_singleton.mp hm
    exact ⟨(by cases ·), fun _ => rfl⟩
  inverts m hm := by
    obtain rfl := List.mem_singleton.mp hm
    exact fun call hcall => by cases hcall
  shaped := .plain (by decide) rfl rfl .nil

/-- A dispatch in which the model asks for tools first. -/
abbrev run : EStateM.Result PyException Machine RunResult :=
  dispatched tooling (gateway {} (provider "p" .free)) request tenant
    (some Transcript.Sample.registry)
    {}

end Sample

/-- The calls of a dispatch of two turns. -/
theorem two_turns_asked_the_same :
    (callsIn (finalState Sample.run).log).length = 2 ∧
      ∀ x ∈ callsIn (finalState Sample.run).log,
        ∀ model, SaysTheSame Replay.Sample.loads model x.1.request :=
  ⟨by decide +kernel, every_vendor_asked_the_same _ _ _ _ _ _ _ Sample.worldAnswers
    Sample.speakable_request⟩

end ModelDispatcher.SameConversation
