import ModelDispatcher.Transcript

/-!
Which message an agent run hands back: a search from the end of the transcript, which holds the
caller's history as well as the turns of the run.
-/

namespace ModelDispatcher.FinalMessage

open Lib.Text Lib.Floats Lib.Logged DataTypes Exceptions Config Providers Machines Chain
open Orchestration Transcript

/-- The message of a run without an answer. -/
def emptyAnswer : Message := { role := .assistant, content := some [] }

/-- The last assistant message among some messages, or the empty one. -/
def lastAssistant (messages : List Message) : Message :=
  (messages.reverse.find? (·.role = .assistant)).getD emptyAnswer

/-- The answer of a run's own: the message of its last step, or the empty one. -/
def ownAnswer (steps : List StepResult) : Message :=
  (steps.getLast?.map (·.message)).getD emptyAnswer

section

variable {history : List Message} {rounds : List Round}

lemma find?_toolMessages (results : List ToolResult) :
    (results.map toolMessage).reverse.find? (·.role = .assistant) = none := by
  rw [List.find?_eq_none]
  intro m hm
  obtain ⟨r, -, rfl⟩ := List.mem_map.mp (List.mem_reverse.mp hm)
  simp [toolMessage]

/-- The results of a round stand after its message, and none of them is an assistant's. -/
lemma find?_round {r : Round} (h : r.step.message.role = .assistant) :
    r.messages.reverse.find? (·.role = .assistant) = some r.step.message := by
  rw [Round.messages, List.reverse_cons, List.find?_append, find?_toolMessages, Option.none_or,
    List.find?_cons_of_pos (by simpa using h)]

lemma lastAssistant_append (before after : List Message) : lastAssistant (before ++ after) =
    ((after.reverse.find? (·.role = .assistant)).or
      (before.reverse.find? (·.role = .assistant))).getD emptyAnswer := by
  rw [lastAssistant, List.reverse_append, List.find?_append]

/-- With a round played, the search ends at the last one. -/
lemma lastAssistant_rounds {last : Round} (h : last.step.message.role = .assistant) :
    lastAssistant (history ++ (rounds ++ [last]).flatMap Round.messages) = last.step.message := by
  have hflat : (rounds ++ [last]).flatMap Round.messages =
      rounds.flatMap Round.messages ++ last.messages := by
    rw [List.flatMap_append, List.flatMap_singleton]
  rw [hflat, ← List.append_assoc, lastAssistant_append, find?_round h]
  rfl

end

/-- What a run hands back is what the search finds in its transcript. -/
lemma yields_final (w : World) (chain : FallbackChain) (tenant : TenantContext)
    (registry : ToolRegistry) (candidates : List ModelProvider) (deadline : Option PyFloat)
    (n : ℕ) (st : ConversationState) (steps : List StepResult) :
    Yields (AgentLoop.run w chain tenant registry candidates deadline n st steps)
      fun r => r.finalMessage = lastAssistant r.transcript := by
  induction n generalizing st steps with
  | zero => exact yields_pure rfl
  | succ n ih =>
    refine yields_seq fun late => ?_
    cases late with
    | true => exact yields_pure rfl
    | false =>
      refine yields_seq fun response => yields_seq fun s => yields_seq fun st => ?_
      dsimp only
      split_ifs
      · exact yields_seq fun st => ih st _
      · exact yields_pure rfl

/-- **The final message.** Over any chain, a run whose turns are assistant messages hands back the
message of its last step; without a turn it hands back the last assistant message of the history,
or the empty one. -/
theorem finalMessage_of_run (w : World) (chain : FallbackChain) (tenant : TenantContext)
    (registry : ToolRegistry) (candidates : List ModelProvider) (deadline : Option PyFloat)
    (maxIterations : ℤ) (st : ConversationState) (s : Machine) (r : RunResult)
    (h : answer ((AgentLoop.run w chain tenant registry candidates deadline maxIterations.toNat
      st []).run s) = .ok r)
    (hassistant : ∀ step ∈ r.steps, step.message.role = .assistant) :
    (r.steps ≠ [] → r.finalMessage = ownAnswer r.steps) ∧
      (r.steps = [] → r.finalMessage = lastAssistant st.messages) := by
  have hfinal := yields_final w chain tenant registry candidates deadline maxIterations.toNat st []
    s r h
  have hplayed := yields_run w chain tenant registry candidates deadline (played_init st)
    (by simp) maxIterations.toNat s r h
  obtain ⟨rounds, hsteps, htranscript⟩ := hplayed.transcript
  rw [hfinal, htranscript]
  rcases List.eq_nil_or_concat rounds with rfl | ⟨front, last, rfl⟩
  · have hnone : r.steps = [] := hsteps.symm
    refine ⟨fun hne => absurd hnone hne, fun _ => ?_⟩
    rw [List.flatMap_nil, List.append_nil]
  · have hlast : r.steps = front.map Round.step ++ [last.step] := by rw [← hsteps]; simp
    refine ⟨fun _ => ?_, fun hnil => ?_⟩
    · have hrole : last.step.message.role = .assistant :=
        hassistant last.step (by rw [hlast]; simp)
      rw [List.concat_eq_append, lastAssistant_rounds hrole, hlast, ownAnswer]
      simp
    · rw [hlast] at hnil
      simp at hnil

/-- A run of tools hands back the answer that comes after their results. -/
theorem finalMessage_of_tooling : ∃ r, answer Transcript.Sample.ran = .ok r ∧
    r.steps.length = 2 ∧ r.finalMessage = ownAnswer r.steps := by
  have hran : (answer Transcript.Sample.ran).toOption.map (fun r =>
      (r.steps.length, decide (∀ step ∈ r.steps, step.message.role = .assistant))) =
        some (2, true) := by decide +kernel
  cases h : answer Transcript.Sample.ran with
  | error e => rw [h] at hran; cases hran
  | ok r =>
    rw [h] at hran
    obtain ⟨hlen, hroles⟩ := Prod.mk.inj (Option.some.inj hran)
    refine ⟨r, rfl, hlen, ?_⟩
    refine (finalMessage_of_run _ _ _ _ _ _ 3 _ _ r h (of_decide_eq_true hroles)).1 ?_
    exact List.ne_nil_of_length_pos (by omega)

namespace Sample

/-- A conversation that goes on after an earlier answer. -/
def continued : ConversationState where
  tenant := py "t"
  messages := [{ role := .assistant, content := some (py "yesterday's answer") },
    { role := .user, content := some (py "and today?") }]

end Sample

/-- A run that executes no turn hands back the answer of an earlier one. -/
theorem stale_answer : ¬ ∀ (w : World) (chain : FallbackChain) (tenant : TenantContext)
    (registry : ToolRegistry) (candidates : List ModelProvider) (deadline : Option PyFloat)
    (maxIterations : ℤ) (st : ConversationState) (s : Machine) (r : RunResult),
    answer ((AgentLoop.run w chain tenant registry candidates deadline maxIterations.toNat
      st []).run s) = .ok r →
    (∀ step ∈ r.steps, step.message.role = .assistant) → r.finalMessage = ownAnswer r.steps := by
  intro h
  have hstale := h Transcript.Sample.tooling [] Refinement.Sample.tenant {} [] none 0
    Sample.continued {} _ rfl (by decide)
  have hcontent : some (py "yesterday's answer") = some [] := congrArg Message.content hstale
  simp [py] at hcontent

end ModelDispatcher.FinalMessage
