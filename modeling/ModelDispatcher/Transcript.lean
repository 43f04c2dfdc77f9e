import Mathlib.Data.List.Infix
import ModelDispatcher.Refinement
import ModelDispatcher.Orchestration

/-!
The transcript of an agent run: the rounds played on the first messages, whatever the chain
answers and however the tools fail.
-/

namespace ModelDispatcher.Transcript

open Lib.Text Lib.Floats Lib.Logged Lib.Dicts DataTypes Exceptions Config Providers Machines Chain
open Orchestration

/-- The message that carries a tool's result back to the model. -/
def toolMessage (r : ToolResult) : Message := { role := .tool, toolResult := some r }

/-- A step with the results of its tool calls: one for each call, in order. -/
structure Round where
  step : StepResult
  results : List ToolResult
  answered : results.map (·.callId) = step.message.toolCalls.map (·.id)

/-- What a round adds to the transcript. -/
def Round.messages (r : Round) : List Message := r.step.message :: r.results.map toolMessage

/-- A usage with those of some steps added, component by component. -/
def addUsages (u : Usage) (steps : List StepResult) : Usage where
  promptTokens := u.promptTokens + (steps.map (·.usage.promptTokens)).sum
  completionTokens := u.completionTokens + (steps.map (·.usage.completionTokens)).sum

lemma addUsages_nil (u : Usage) : addUsages u [] = u := by simp [addUsages]

lemma addUsages_snoc (u : Usage) (steps : List StepResult) (s : StepResult) :
    addUsages u (steps ++ [s]) = addUsages u steps + s.usage := by
  change _ = Usage.mk _ _
  simp [addUsages, add_assoc]

section

variable (M0 : List Message) (u0 : Usage)

/-- The conversation is its first messages and usage with the rounds of the steps since. -/
structure Played (st : ConversationState) (steps : List StepResult) : Prop where
  messages : ∃ rounds : List Round,
    rounds.map Round.step = steps ∧ st.messages = M0 ++ rounds.flatMap Round.messages
  usage : st.usage = addUsages u0 steps

/-- The shape of a result of at most so many steps. -/
structure WellFormed (n : ℕ) (r : RunResult) : Prop where
  transcript : ∃ rounds : List Round,
    rounds.map Round.step = r.steps ∧ r.transcript = M0 ++ rounds.flatMap Round.messages
  steps_le : r.steps.length ≤ n
  called : ∀ s ∈ r.steps.dropLast, s.message.toolCalls ≠ []
  completed : r.stopReason = .completed ↔
    ∃ s, r.steps.getLast? = some s ∧ s.message.toolCalls = []
  usage : r.usage = addUsages u0 r.steps

end

section

variable {M0 : List Message} {u0 : Usage} {st : ConversationState} {steps : List StepResult}

lemma played_init (st : ConversationState) : Played st.messages st.usage st [] where
  messages := ⟨[], rfl, by simp⟩
  usage := (addUsages_nil _).symm

/-- A round is played: its message, its results and its usage join the conversation. -/
lemma Played.snoc (h : Played M0 u0 st steps) (r : Round) {st' : ConversationState}
    (hmessages : st'.messages = st.messages ++ r.messages)
    (husage : st'.usage = st.usage + r.step.usage) :
    Played M0 u0 st' (steps ++ [r.step]) := by
  obtain ⟨⟨rounds, rfl, hst⟩, hu⟩ := h
  refine ⟨⟨rounds ++ [r], by simp, ?_⟩, ?_⟩
  · rw [hmessages, hst]
    simp
  · rw [husage, hu, addUsages_snoc]

/-- Stopping between two rounds, when every step so far called tools. -/
lemma wellFormed_stopped (h : Played M0 u0 st steps)
    (hcalled : ∀ s ∈ steps, s.message.toolCalls ≠ []) {n : ℕ} (hn : steps.length ≤ n)
    {reason : StopReason} (hreason : reason ≠ .completed) :
    WellFormed M0 u0 n (AgentLoop.finalize st steps reason) where
  transcript := h.messages
  steps_le := hn
  called s hs := hcalled s (List.mem_of_mem_dropLast hs)
  completed := by
    refine iff_of_false hreason ?_
    rintro ⟨s, hs, hnone⟩
    exact hcalled s (List.mem_of_getLast? hs) hnone
  usage := h.usage

/-- Stopping after a step without tool calls. -/
lemma wellFormed_completed {last : StepResult} (h : Played M0 u0 st (steps ++ [last]))
    (hcalled : ∀ s ∈ steps, s.message.toolCalls ≠ []) {n : ℕ} (hn : steps.length < n)
    (hlast : last.message.toolCalls = []) :
    WellFormed M0 u0 n (AgentLoop.finalize st (steps ++ [last]) .completed) where
  transcript := h.messages
  steps_le := by
    change (steps ++ [last]).length ≤ n
    rw [List.length_append, List.length_singleton]
    exact hn
  called s hs := hcalled s (by simpa [AgentLoop.finalize] using hs)
  completed := iff_of_true rfl ⟨last, by simp [AgentLoop.finalize], hlast⟩
  usage := h.usage

/-! ### The parts of a turn -/

/-- Every result carries the id of its call, whichever way the tool fails. -/
lemma execute_callId (registry : ToolRegistry) (log : List Event) (call : ToolCall) :
    (ToolExecutor.execute registry log call).callId = call.id := by
  unfold ToolExecutor.execute
  split
  · rfl
  · split
    · rfl
    · split <;> rfl

lemma yields_append (st : ConversationState) (m : Message) :
    Yields (AgentLoop.append st m) fun st' => st' = st.append m :=
  yields_seq fun _ => yields_pure rfl

lemma yields_absorb (st : ConversationState) (response : CompletionResponse) :
    Yields (AgentLoop.absorb st response) fun st' =>
      st'.messages = st.messages ++ [response.message] ∧
        st'.usage = st.usage + response.usage := by
  refine yields_bind (yields_append st response.message) ?_
  rintro st' rfl
  exact yields_pure ⟨rfl, rfl⟩

lemma yields_runToolCalls (registry : ToolRegistry) (calls : List ToolCall)
    (st : ConversationState) :
    Yields (AgentLoop.runToolCalls registry calls st) fun st' => st'.usage = st.usage ∧
      ∃ results : List ToolResult, results.map (·.callId) = calls.map (·.id) ∧
        st'.messages = st.messages ++ results.map toolMessage := by
  induction calls generalizing st with
  | nil => exact yields_pure ⟨rfl, [], rfl, by simp⟩
  | cons call rest ih =>
    refine yields_seq fun s => yields_bind (yields_append st _) ?_
    rintro st₁ rfl
    refine (ih _).mono ?_
    rintro st₂ ⟨husage, results, hids, hmessages⟩
    refine ⟨husage, ToolExecutor.execute registry s.log call :: results, ?_, ?_⟩
    · rw [List.map_cons, List.map_cons, execute_callId, hids]
    · rw [hmessages]
      simp [ConversationState.append, toolMessage]

/-! ### The loop -/

variable (w : World) (chain : FallbackChain) (tenant : TenantContext) (registry : ToolRegistry)
variable (candidates : List ModelProvider) (deadline : Option PyFloat)

/-- The induction is on the turns left; the steps so far all called tools. -/
lemma yields_run (h : Played M0 u0 st steps) (hcalled : ∀ s ∈ steps, s.message.toolCalls ≠ [])
    (n : ℕ) :
    Yields (AgentLoop.run w chain tenant registry candidates deadline n st steps)
      (WellFormed M0 u0 (steps.length + n)) := by
  induction n generalizing st steps with
  | zero => exact yields_pure (wellFormed_stopped h hcalled le_rfl (by simp))
  | succ n ih =>
    refine yields_seq fun late => ?_
    cases late with
    | true => exact yields_pure (wellFormed_stopped h hcalled (by omega) (by simp))
    | false =>
      refine yields_seq fun response => yields_seq fun s => ?_
      refine yields_bind (yields_absorb st response) ?_
      rintro st₁ ⟨hmessages, husage⟩
      dsimp only
      split_ifs with hcalls
      · refine yields_bind (yields_runToolCalls registry _ st₁) ?_
        rintro st₂ ⟨husage', results, hids, hmessages'⟩
        let round : Round := ⟨⟨response.message, response.usage, s.scratch.attempts⟩, results, hids⟩
        have hplayed : Played M0 u0 st₂ (steps ++ [round.step]) := by
          refine h.snoc round ?_ ?_
          · rw [hmessages', hmessages, List.append_assoc]
            rfl
          · rw [husage', husage]
        have hlen : steps.length + (n + 1) = (steps ++ [round.step]).length + n := by
          rw [List.length_append, List.length_singleton]
          omega
        rw [hlen]
        refine ih hplayed ?_
        intro s' hs'
        rcases List.mem_append.mp hs' with hs' | hs'
        · exact hcalled s' hs'
        · rw [List.mem_singleton.mp hs']
          exact hcalls
      · rw [not_not] at hcalls
        let round : Round :=
          ⟨⟨response.message, response.usage, s.scratch.attempts⟩, [], by simp [hcalls]⟩
        exact yields_pure (wellFormed_completed (h.snoc round hmessages husage) hcalled (by omega)
          hcalls)

end

/-- **Transcript structure.** Every result of an agent run, over any chain, is its first
messages with one round for each step. -/
theorem run_wellFormed (w : World) (chain : FallbackChain) (tenant : TenantContext)
    (registry : ToolRegistry) (candidates : List ModelProvider) (deadline : Option PyFloat)
    (maxIterations : ℤ) (st : ConversationState) (s : Machine) (r : RunResult)
    (h : answer ((AgentLoop.run w chain tenant registry candidates deadline maxIterations.toNat
      st []).run s) = .ok r) :
    WellFormed st.messages st.usage maxIterations.toNat r := by
  have hrun := yields_run w chain tenant registry candidates deadline (played_init st)
    (by simp) maxIterations.toNat s r h
  rwa [List.length_nil, zero_add] at hrun

namespace Sample

open Refinement.Sample

/-- A vendor that asks for two tools, one of them unknown, and answers once a result is in. -/
def tooling : World where
  monotonic _ := 0
  complete _ _ request _ := .returned
    (if request.messages.any (·.role = .tool) then response
    else { response with message :=
      { role := .assistant, toolCalls := [⟨py "a", py "clock", []⟩, ⟨py "b", py "none", []⟩] } })

def registry : ToolRegistry :=
  ({} : ToolRegistry).register
    { spec := ⟨py "clock", py "the time", []⟩, handler := some fun _ _ => .ok (py "noon") }

def state : ConversationState := { tenant := tenant.tenantId, messages := request.messages }

abbrev ran : EStateM.Result PyException Machine RunResult :=
  (AgentLoop.run tooling (buildChain tooling {}) tenant registry [provider "p" .free] none
    (3 : ℤ).toNat state []).run {}

end Sample

/-- A run that answers two tool calls on its way. -/
theorem run_wellFormed_two_tools : ∃ r, answer Sample.ran = .ok r ∧ r.transcript.length = 5 ∧
    WellFormed Sample.state.messages Sample.state.usage 3 r := by
  have hran : (answer Sample.ran).toOption.map (·.transcript.length) = some 5 := by
    decide +kernel
  cases h : answer Sample.ran with
  | error e => rw [h] at hran; cases hran
  | ok r =>
    rw [h] at hran
    refine ⟨r, rfl, Option.some.inj hran, ?_⟩
    exact run_wellFormed _ _ _ _ _ _ 3 _ _ r h

end ModelDispatcher.Transcript
