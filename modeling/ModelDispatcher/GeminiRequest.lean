import ModelDispatcher.Transcript

/-!
How the Gemini adapter builds the contents of a request. Gemini matches a tool result to its call
by name, so the adapter looks the name up under the id of the call as it scans the messages.
-/

namespace ModelDispatcher.GeminiRequest

open Lib.Text Lib.Json Lib.Dicts DataTypes Orchestration Transcript

/-! ### The translation -/

/-- A part of a content: what the vendor's constructors are given. -/
inductive Part
  | text (text : PyStr)
  | functionCall (name : PyStr) (args : JSONObject)
  | functionResponse (name : PyStr) (response : JSONObject)

structure Content where
  role : PyStr
  parts : List Part

/-- What the scan has collected. -/
structure Collected where
  systemParts : List PyStr := []
  contents : List Content := []
  callNamesById : PyDict PyStr PyStr := ∅

/-- The content of a message, if it is not empty. -/
def visibleContent (m : Message) : Option PyStr := m.content.filter (· ≠ [])

/-- The result a message carries; only those of the tool role count. -/
def resultOf (m : Message) : Option ToolResult :=
  if m.role = .tool then m.toolResult else none

def payload (result : ToolResult) : JSONObject :=
  if result.isError then [(py "error", .str result.content)]
  else [(py "result", .str result.content)]

def responseContent (name : PyStr) (result : ToolResult) : Content :=
  ⟨py "user", [.functionResponse name (payload result)]⟩

def callsContent (m : Message) : Content :=
  ⟨py "model", ((visibleContent m).map Part.text).toList ++
    m.toolCalls.map fun call => .functionCall call.name call.arguments⟩

def plainContent (m : Message) : Content :=
  ⟨if m.role = .assistant then py "model" else py "user", [.text (m.content.getD [])]⟩

/-- One round of the loop over the messages. -/
def collect (c : Collected) (m : Message) : Collected :=
  if m.role = .system then
    { c with systemParts := c.systemParts ++ (visibleContent m).toList }
  else match resultOf m with
    | some result =>
      let name := (c.callNamesById.get? result.callId).getD result.callId
      { c with contents := c.contents ++ [responseContent name result] }
    | none =>
      if m.toolCalls ≠ [] then
        { c with
          contents := c.contents ++ [callsContent m]
          callNamesById :=
            (m.toolCalls.map fun call => (call.id, call.name)).foldl (fun d e => d.set e.1 e.2)
              c.callNamesById }
      else { c with contents := c.contents ++ [plainContent m] }

def buildContents (request : CompletionRequest) : PyStr × List Content :=
  let c := request.messages.foldl collect {}
  (join '\n' c.systemParts, c.contents)

/-! ### Transcripts of tool calls -/

/-- Messages after the calls of one turn: the results up to the next turn with calls answer these,
and the calls of a turn have distinct ids. Before the first calls there may be results of calls
that are no longer there. -/
inductive Shaped : List ToolCall → List Message → Prop
  | nil {current : List ToolCall} : Shaped current []
  | system {current : List ToolCall} {m : Message} {ms : List Message} (hrole : m.role = .system)
      (rest : Shaped current ms) : Shaped current (m :: ms)
  | calls {current : List ToolCall} {m : Message} {ms : List Message} (hrole : m.role ≠ .system)
      (hresult : resultOf m = none) (hcalls : m.toolCalls ≠ [])
      (hids : (m.toolCalls.map (·.id)).Nodup) (rest : Shaped m.toolCalls ms) :
      Shaped current (m :: ms)
  | result {current : List ToolCall} {m : Message} {ms : List Message} {r : ToolResult}
      {call : ToolCall} (hresult : resultOf m = some r) (hcall : call ∈ current)
      (hid : call.id = r.callId) (rest : Shaped current ms) : Shaped current (m :: ms)
  | orphan {m : Message} {ms : List Message} {r : ToolResult} (hresult : resultOf m = some r)
      (rest : Shaped [] ms) : Shaped [] (m :: ms)
  | plain {current : List ToolCall} {m : Message} {ms : List Message} (hrole : m.role ≠ .system)
      (hresult : resultOf m = none) (hcalls : m.toolCalls = []) (rest : Shaped current ms) :
      Shaped current (m :: ms)

/-- The contents of some messages, one for each that is no system message, in order; a result is
named after the call it answers. -/
inductive Translated : List ToolCall → List Message → List Content → Prop
  | nil {current : List ToolCall} : Translated current [] []
  | system {current : List ToolCall} {m : Message} {ms : List Message} {cs : List Content}
      (hrole : m.role = .system) (rest : Translated current ms cs) : Translated current (m :: ms) cs
  | calls {current : List ToolCall} {m : Message} {ms : List Message} {cs : List Content}
      (hrole : m.role ≠ .system) (hresult : resultOf m = none) (hcalls : m.toolCalls ≠ [])
      (rest : Translated m.toolCalls ms cs) : Translated current (m :: ms) (callsContent m :: cs)
  | result {current : List ToolCall} {m : Message} {ms : List Message} {cs : List Content}
      {r : ToolResult} {call : ToolCall} (hresult : resultOf m = some r) (hcall : call ∈ current)
      (hid : call.id = r.callId) (rest : Translated current ms cs) :
      Translated current (m :: ms) (responseContent call.name r :: cs)
  | orphan {m : Message} {ms : List Message} {cs : List Content} {r : ToolResult} {name : PyStr}
      (hresult : resultOf m = some r) (rest : Translated [] ms cs) :
      Translated [] (m :: ms) (responseContent name r :: cs)
  | plain {current : List ToolCall} {m : Message} {ms : List Message} {cs : List Content}
      (hrole : m.role ≠ .system) (hresult : resultOf m = none) (hcalls : m.toolCalls = [])
      (rest : Translated current ms cs) : Translated current (m :: ms) (plainContent m :: cs)

/-- The system messages that are not empty. -/
def systemTexts (ms : List Message) : List PyStr :=
  (ms.filter (·.role = .system)).filterMap visibleContent

/-! ### The scan -/

section

variable {c : Collected} {m : Message}

lemma role_of_resultOf {r : ToolResult} (h : resultOf m = some r) : m.role ≠ .system := by
  unfold resultOf at h
  split_ifs at h with hrole
  rw [hrole]
  decide

lemma collect_system (h : m.role = .system) : collect c m =
    { c with systemParts := c.systemParts ++ (visibleContent m).toList } := if_pos h

lemma collect_result {r : ToolResult} (h : resultOf m = some r) : collect c m =
    { c with contents := c.contents ++
        [responseContent ((c.callNamesById.get? r.callId).getD r.callId) r] } := by
  rw [collect, if_neg (role_of_resultOf h), h]

lemma collect_calls (hrole : m.role ≠ .system) (h : resultOf m = none) (hcalls : m.toolCalls ≠ []) :
    collect c m =
      { c with
        contents := c.contents ++ [callsContent m]
        callNamesById :=
          (m.toolCalls.map fun call => (call.id, call.name)).foldl (fun d e => d.set e.1 e.2)
            c.callNamesById } := by
  rw [collect, if_neg hrole, h]
  exact if_pos hcalls

lemma collect_plain (hrole : m.role ≠ .system) (h : resultOf m = none) (hcalls : m.toolCalls = []) :
    collect c m = { c with contents := c.contents ++ [plainContent m] } := by
  rw [collect, if_neg hrole, h]
  exact if_neg (not_not.mpr hcalls)

end

/-- The calls of the turn are found under their ids. -/
def Named (current : List ToolCall) (names : PyDict PyStr PyStr) : Prop :=
  ∀ call ∈ current, names.get? call.id = some call.name

/-- Recording the calls of a turn overwrites what older turns left under their ids. -/
lemma named_foldl_set {calls : List ToolCall} (hids : (calls.map (·.id)).Nodup)
    (names : PyDict PyStr PyStr) : Named calls
      ((calls.map fun call => (call.id, call.name)).foldl (fun d e => d.set e.1 e.2) names) := by
  intro call hcall
  have hkeys : ((calls.map fun call => (call.id, call.name)).map Prod.fst).Nodup := by
    rw [List.map_map]
    exact hids
  exact (PyDict.get?_foldl_set hkeys names).mpr (.inl (List.mem_map_of_mem hcall))

/-- The contents that the scan of the remaining messages adds, and the system texts. -/
structure Collects (current : List ToolCall) (c : Collected) (ms : List Message) : Prop where
  contents : ∃ cs, (ms.foldl collect c).contents = c.contents ++ cs ∧ Translated current ms cs
  system : (ms.foldl collect c).systemParts = c.systemParts ++ systemTexts ms

lemma systemTexts_cons_of_ne {m : Message} (hrole : m.role ≠ .system) (ms : List Message) :
    systemTexts (m :: ms) = systemTexts ms := by
  rw [systemTexts, List.filter_cons_of_neg (by simpa using hrole)]
  rfl

lemma systemTexts_cons_system {m : Message} (hrole : m.role = .system) (ms : List Message) :
    systemTexts (m :: ms) = (visibleContent m).toList ++ systemTexts ms := by
  rw [systemTexts, List.filter_cons_of_pos (by simpa using hrole), List.filterMap_cons]
  cases visibleContent m <;> rfl

/-- A message that is no system message puts one content before those of the rest. -/
lemma Collects.cons {current next : List ToolCall} {c : Collected} {m : Message}
    {ms : List Message} {content : Content} (hrole : m.role ≠ .system)
    (hcontents : (collect c m).contents = c.contents ++ [content])
    (hsystem : (collect c m).systemParts = c.systemParts) (hrest : Collects next (collect c m) ms)
    (htranslated : ∀ cs, Translated next ms cs → Translated current (m :: ms) (content :: cs)) :
    Collects current c (m :: ms) := by
  obtain ⟨⟨cs, hcs, hms⟩, hparts⟩ := hrest
  refine ⟨⟨content :: cs, ?_, htranslated cs hms⟩, ?_⟩
  · rw [List.foldl_cons, hcs, hcontents, List.append_assoc]
    rfl
  · rw [List.foldl_cons, hparts, hsystem, systemTexts_cons_of_ne hrole]

/-- The induction is on the shape; the names in the map are those of the calls of the turn. -/
lemma collects_of_shaped {current : List ToolCall} {ms : List Message} (h : Shaped current ms)
    {c : Collected} (hnames : Named current c.callNamesById) : Collects current c ms := by
  induction h generalizing c with
  | nil => exact ⟨⟨[], by simp, .nil⟩, by simp [systemTexts]⟩
  | @system current m ms hrole rest ih =>
    have hcollect := collect_system (c := c) hrole
    obtain ⟨⟨cs, hcs, hms⟩, hparts⟩ := @ih (collect c m) (by rw [hcollect]; exact hnames)
    refine ⟨⟨cs, ?_, .system hrole hms⟩, ?_⟩
    · rw [List.foldl_cons, hcs, hcollect]
    · rw [List.foldl_cons, hparts, hcollect, systemTexts_cons_system hrole, List.append_assoc]
  | @calls current m ms hrole hresult hcalls hids rest ih =>
    have hcollect := collect_calls (c := c) hrole hresult hcalls
    refine Collects.cons hrole (by rw [hcollect]) (by rw [hcollect]) (ih ?_) fun cs hms =>
      .calls hrole hresult hcalls hms
    rw [hcollect]
    exact named_foldl_set hids _
  | @result current m ms r call hresult hcall hid rest ih =>
    have hcollect := collect_result (c := c) hresult
    have hname : (c.callNamesById.get? r.callId).getD r.callId = call.name := by
      rw [← hid, hnames call hcall]
      rfl
    rw [hname] at hcollect
    exact Collects.cons (role_of_resultOf hresult) (by rw [hcollect]) (by rw [hcollect])
      (ih (by rw [hcollect]; exact hnames)) fun cs hms => .result hresult hcall hid hms
  | @orphan m ms r hresult rest ih =>
    have hcollect := collect_result (c := c) hresult
    exact Collects.cons (role_of_resultOf hresult) (by rw [hcollect]) (by rw [hcollect])
      (ih (by rw [hcollect]; exact hnames)) fun cs hms => .orphan hresult hms
  | @plain current m ms hrole hresult hcalls rest ih =>
    have hcollect := collect_plain (c := c) hrole hresult hcalls
    exact Collects.cons hrole (by rw [hcollect]) (by rw [hcollect])
      (ih (by rw [hcollect]; exact hnames)) fun cs hms => .plain hrole hresult hcalls hms

/-! ### The transcripts of the agent loop -/

section

variable {current : List ToolCall} {ms more : List Message}

/-- The induction is on the shape of the first messages. -/
lemma Shaped.append (h : Shaped current ms) (hmore : ∀ next, Shaped next more) :
    Shaped current (ms ++ more) := by
  induction h with
  | nil => exact hmore _
  | system hrole rest ih => exact .system hrole ih
  | calls hrole hresult hcalls hids rest ih => exact .calls hrole hresult hcalls hids ih
  | result hresult hcall hid rest ih => exact .result hresult hcall hid ih
  | orphan hresult rest ih => exact .orphan hresult ih
  | plain hrole hresult hcalls rest ih => exact .plain hrole hresult hcalls ih

/-- The results of a turn's own calls, and then any messages that follow every turn. -/
lemma shaped_results {results : List ToolResult}
    (hown : ∀ r ∈ results, ∃ call ∈ current, call.id = r.callId)
    (hmore : Shaped current more) : Shaped current (results.map toolMessage ++ more) := by
  induction results with
  | nil => exact hmore
  | cons r rest ih =>
    obtain ⟨call, hcall, hid⟩ := hown r (by simp)
    exact .result (r := r) rfl hcall hid (ih fun r' hr' => hown r' (List.mem_cons_of_mem r hr'))

/-- A model's answer: an assistant message whose calls have distinct ids. -/
def Answering (m : Message) : Prop := m.role = .assistant ∧ (m.toolCalls.map (·.id)).Nodup

lemma shaped_round {r : Round} (hanswer : Answering r.step.message)
    (hmore : ∀ next, Shaped next more) : Shaped current (r.messages ++ more) := by
  have hrole : r.step.message.role ≠ .system := by
    rw [hanswer.1]
    decide
  have hresult : resultOf r.step.message = none := if_neg (by rw [hanswer.1]; decide)
  by_cases hcalls : r.step.message.toolCalls = []
  · have hnone : r.results = [] := by
      have hanswered := r.answered
      rw [hcalls] at hanswered
      exact List.map_eq_nil_iff.mp hanswered
    rw [Round.messages, hnone]
    exact .plain hrole hresult hcalls (hmore _)
  · refine .calls hrole hresult hcalls hanswer.2 (shaped_results ?_ (hmore _))
    intro result hresult
    have hmem := List.mem_map_of_mem (f := (·.callId)) hresult
    rw [r.answered] at hmem
    exact List.mem_map.mp hmem

lemma shaped_rounds {rounds : List Round} (hanswers : ∀ r ∈ rounds, Answering r.step.message)
    (next : List ToolCall) : Shaped next (rounds.flatMap Round.messages) := by
  induction rounds generalizing next with
  | nil => exact .nil
  | cons r rest ih =>
    exact shaped_round (hanswers r (by simp)) (ih fun r' hr' =>
      hanswers r' (List.mem_cons_of_mem r hr'))

/-- **The loop's transcripts are shaped.** On a shaped history, the request of the next turn is
shaped, however many turns were played. -/
theorem shaped_of_played {M0 : List Message} {u0 : Usage} {st : ConversationState}
    {steps : List StepResult} (hplayed : Played M0 u0 st steps) (hM0 : Shaped [] M0)
    (hanswers : ∀ s ∈ steps, Answering s.message) : Shaped [] st.toRequest.messages := by
  obtain ⟨⟨rounds, rfl, hst⟩, -⟩ := hplayed
  change Shaped [] st.messages
  rw [hst]
  refine hM0.append fun next => shaped_rounds (fun r hr => ?_) next
  exact hanswers r.step (List.mem_map_of_mem hr)

end

/-- **Named results.** The contents of a shaped transcript are its messages but for the system
ones, in order, with every result named after the call it answers; the system string joins the
system messages that are not empty. -/
theorem buildContents_translated (request : CompletionRequest)
    (h : Shaped [] request.messages) :
    (buildContents request).1 = join '\n' (systemTexts request.messages) ∧
      Translated [] request.messages (buildContents request).2 := by
  obtain ⟨⟨cs, hcs, hms⟩, hparts⟩ := collects_of_shaped h (c := {}) (by simp [Named])
  have hcontents : (buildContents request).2 = cs := hcs
  refine ⟨congrArg (join '\n') hparts, ?_⟩
  rw [hcontents]
  exact hms

namespace Sample

/-- Two turns whose calls reuse an id for another tool. -/
def messages : List Message :=
  [{ role := .system, content := some (py "be brief") },
    { role := .user, content := some (py "the time, then the weather") },
    { role := .assistant, toolCalls := [⟨py "1", py "clock", []⟩] },
    toolMessage { callId := py "1", content := py "noon" },
    { role := .assistant, content := some (py "next"),
      toolCalls := [⟨py "0", py "wind", []⟩, ⟨py "1", py "rain", []⟩] },
    toolMessage { callId := py "0", content := py "west" },
    toolMessage { callId := py "1", content := py "none", isError := true }]

def request : CompletionRequest := { messages := messages, tenant := py "acme" }

/-- The names of the function responses, in order. -/
def responseNames (contents : List Content) : List PyStr :=
  (contents.flatMap Content.parts).filterMap fun
    | .functionResponse name _ => some name
    | _ => none

lemma shaped_messages : Shaped [] messages :=
  .system rfl <| .plain (by decide) rfl rfl <|
    .calls (by decide) rfl (by simp) (by decide) <| .result rfl (List.mem_singleton.mpr rfl) rfl <|
    .calls (by decide) rfl (by simp) (by decide) <|
    .result rfl List.mem_cons_self rfl <|
    .result rfl (List.mem_cons_of_mem _ (List.mem_singleton_self _)) rfl .nil

end Sample

theorem buildContents_translated_reused :
    Sample.responseNames (buildContents Sample.request).2 = [py "clock", py "wind", py "rain"] ∧
      (buildContents Sample.request).1 = join '\n' (systemTexts Sample.messages) ∧
      Translated [] Sample.messages (buildContents Sample.request).2 :=
  ⟨by decide, buildContents_translated Sample.request Sample.shaped_messages⟩

end ModelDispatcher.GeminiRequest
