import ModelDispatcher.GeminiRequest

/-!
How the OpenAI and the Anthropic adapters write a message into a request and read one out of a
response. A turn that called tools is written again with every later request, to whichever vendor
answers then, so what is written has to read back as the turn it was.
-/

namespace ModelDispatcher.Replay

open Lib.Text Lib.Json DataTypes Providers
open GeminiRequest (visibleContent resultOf systemTexts)

def roleValue : Role → PyStr
  | .system => py "system"
  | .user => py "user"
  | .assistant => py "assistant"
  | .tool => py "tool"

/-! ### OpenAI -/

namespace OpenAI

/-- A tool call of a chat message; the arguments are JSON text. -/
structure FunctionToolCall where
  id : PyStr
  name : PyStr
  arguments : Option PyStr

structure ChatMessage where
  role : PyStr
  content : Option PyStr := none
  toolCalls : Option (List FunctionToolCall) := none
  toolCallId : Option PyStr := none

structure ChatCompletion where
  choices : List ChatMessage
  usage : Usage

/-- A call as it is written, with `none` where `json.dumps` raises. -/
def writeCall (call : ToolCall) : Option FunctionToolCall :=
  (dumps (.dict call.arguments)).map fun text => ⟨call.id, call.name, some text⟩

def toOpenAIMessage (m : Message) : Option ChatMessage :=
  match resultOf m with
  | some result =>
    some { role := py "tool", toolCallId := some result.callId, content := some result.content }
  | none =>
    if m.toolCalls ≠ [] then
      (m.toolCalls.mapM writeCall).map fun calls =>
        { role := py "assistant", content := m.content, toolCalls := some calls }
    else some { role := roleValue m.role, content := some (m.content.getD []) }

section

/- `json.loads` on the text of an object, with `none` where it raises. -/
variable (loads : PyStr → Option JSONObject)

def readCall (call : FunctionToolCall) : Option ToolCall :=
  (loads ((call.arguments.filter (· ≠ [])).getD (py "\x7b\x7d"))).map fun arguments =>
    ⟨call.id, call.name, arguments⟩

/-- The message of a choice. -/
def toMessage (choice : ChatMessage) : Option Message :=
  ((choice.toolCalls.getD []).mapM (readCall loads)).map fun calls =>
    { role := .assistant, content := choice.content, toolCalls := calls }

/-- Translate a chat completion; without a choice or with arguments that do not parse it raises. -/
def toResponse (p : ModelProvider) (response : ChatCompletion) : Option CompletionResponse := do
  let choice ← response.choices.head?
  let message ← toMessage loads choice
  return { message := message, usage := response.usage, providerName := p.name, tier := p.tier }

end

end OpenAI

/-! ### Anthropic -/

namespace Anthropic

inductive Block
  | text (text : PyStr)
  | toolUse (id name : PyStr) (input : JSONObject)
  | toolResult (toolUseId content : PyStr) (isError : Bool)
  /-- A block of another type. -/
  | other (type : PyStr)

inductive Content
  | plain (text : PyStr)
  | blocks (blocks : List Block)

structure MessageParam where
  role : PyStr
  content : Content

structure Reply where
  content : List Block
  usage : Usage

/-- The blocks of a turn that called tools. -/
def turnBlocks (m : Message) : List Block :=
  ((visibleContent m).map Block.text).toList ++
    m.toolCalls.map fun call => .toolUse call.id call.name call.arguments

/-- What the loop over the messages appends for one, nothing for a system message. -/
def splitMessage (m : Message) : Option MessageParam :=
  if m.role = .system then none
  else match resultOf m with
    | some result =>
      some ⟨py "user", .blocks [.toolResult result.callId result.content result.isError]⟩
    | none =>
      if m.toolCalls ≠ [] then some ⟨py "assistant", .blocks (turnBlocks m)⟩
      else some ⟨roleValue m.role, .plain (m.content.getD [])⟩

def splitMessages (messages : List Message) : PyStr × List MessageParam :=
  (join '\n' (systemTexts messages), messages.filterMap splitMessage)

def Block.textPart : Block → Option PyStr
  | .text s => some s
  | _ => none

def Block.toolCall : Block → Option ToolCall
  | .toolUse id name input => some ⟨id, name, input⟩
  | _ => none

/-- The message of some blocks. -/
def toMessage (blocks : List Block) : Message where
  role := .assistant
  content := some (blocks.filterMap Block.textPart).flatten |>.filter (· ≠ [])
  toolCalls := blocks.filterMap Block.toolCall

def toResponse (p : ModelProvider) (response : Reply) : CompletionResponse where
  message := toMessage response.content
  usage := response.usage
  providerName := p.name
  tier := p.tier

end Anthropic

/-! ### One turn -/

/-- A turn of a model that called tools. -/
structure Calling (m : Message) : Prop where
  role : m.role = .assistant
  calls : m.toolCalls ≠ []
  result : m.toolResult = none
  content : m.content ≠ some []

/-- `json.loads` gives back the arguments that `json.dumps` wrote for the calls of a message. -/
def Inverts (loads : PyStr → Option JSONObject) (m : Message) : Prop :=
  ∀ call ∈ m.toolCalls,
    ∃ text, dumps (.dict call.arguments) = some text ∧ loads text = some call.arguments

section

variable {loads : PyStr → Option JSONObject} {m : Message}

lemma Calling.resultOf_eq (h : Calling m) : resultOf m = none := by
  rw [resultOf, h.result, ite_self]

lemma dumps_ne_nil {v : JSONObject} {text : PyStr} (h : dumps (.dict v) = some text) :
    text ≠ [] := by
  unfold dumps at h
  split_ifs at h
  rw [← Option.some.inj h, write]
  simp [py]

/-- A message read back is the turn that was written. -/
lemma Calling.eq_mk (h : Calling m) :
    { role := .assistant, content := m.content, toolCalls := m.toolCalls } = m := by
  obtain ⟨role, content, toolCalls, toolResult⟩ := m
  obtain rfl : role = .assistant := h.role
  obtain rfl : toolResult = none := h.result
  rfl

/-! ### OpenAI -/

/-- A call is read back with the arguments that its text is read as. -/
lemma readCall_writeCall {call : ToolCall} {text : PyStr} {back : JSONObject}
    (hdumps : dumps (.dict call.arguments) = some text) (hloads : loads text = some back) :
    ∃ written, OpenAI.writeCall call = some written ∧
      OpenAI.readCall loads written = some { call with arguments := back } := by
  refine ⟨⟨call.id, call.name, some text⟩, by rw [OpenAI.writeCall, hdumps]; rfl, ?_⟩
  have htext : ((some text).filter (· ≠ [])).getD (py "{}") = text := by
    rw [Option.filter_some_pos (by simpa using dumps_ne_nil hdumps)]
    rfl
  rw [OpenAI.readCall, htext, hloads]
  rfl

/-- The induction is on the calls, each of which reads back by itself. -/
lemma readCalls_writeCalls (back : JSONObject → JSONObject) {calls : List ToolCall}
    (h : ∀ call ∈ calls,
      ∃ text, dumps (.dict call.arguments) = some text ∧ loads text = some (back call.arguments)) :
    ∃ written, calls.mapM OpenAI.writeCall = some written ∧
      written.mapM (OpenAI.readCall loads) =
        some (calls.map fun call => { call with arguments := back call.arguments }) := by
  induction calls with
  | nil => exact ⟨[], rfl, rfl⟩
  | cons call rest ih =>
    obtain ⟨text, hdumps, hloads⟩ := h call (by simp)
    obtain ⟨written, hwrite, hread⟩ := readCall_writeCall hdumps hloads
    obtain ⟨more, hwrites, hreads⟩ := ih fun c hc => h c (List.mem_cons_of_mem call hc)
    refine ⟨written :: more, ?_, ?_⟩
    · rw [List.mapM_cons, hwrite, hwrites]
      rfl
    · rw [List.mapM_cons, hread, hreads]
      rfl

lemma calls_round {calls : List ToolCall} (h : ∀ call ∈ calls,
    ∃ text, dumps (.dict call.arguments) = some text ∧ loads text = some call.arguments) :
    ∃ written, calls.mapM OpenAI.writeCall = some written ∧
      written.mapM (OpenAI.readCall loads) = some calls := by
  obtain ⟨written, hwrite, hread⟩ := readCalls_writeCalls id h
  exact ⟨written, hwrite, hread.trans (congrArg some (List.map_id calls))⟩

/-- A turn that is written for OpenAI and read back, with what its arguments are read as. -/
lemma openAI_returned (hm : m.role = .assistant ∧ m.toolCalls ≠ [] ∧ m.toolResult = none)
    (back : JSONObject → JSONObject) (h : ∀ call ∈ m.toolCalls,
      ∃ text, dumps (.dict call.arguments) = some text ∧ loads text = some (back call.arguments)) :
    ∃ chat, OpenAI.toOpenAIMessage m = some chat ∧ OpenAI.toMessage loads chat =
      some { m with toolCalls :=
        m.toolCalls.map fun call => { call with arguments := back call.arguments } } := by
  obtain ⟨hrole, hcalls, hresult⟩ := hm
  obtain ⟨written, hwrite, hread⟩ := readCalls_writeCalls back h
  refine ⟨{ role := py "assistant", content := m.content, toolCalls := some written }, ?_, ?_⟩
  · rw [OpenAI.toOpenAIMessage, resultOf, hresult, ite_self]
    dsimp only
    rw [if_pos hcalls, hwrite]
    rfl
  · rw [OpenAI.toMessage, Option.getD_some, hread, Option.map_some, hrole.symm, ← hresult]

lemma openAI_round (h : Calling m) (hloads : Inverts loads m) :
    ∃ chat, OpenAI.toOpenAIMessage m = some chat ∧ OpenAI.toMessage loads chat = some m := by
  obtain ⟨chat, hwrite, hread⟩ := openAI_returned ⟨h.role, h.calls, h.result⟩ id hloads
  refine ⟨chat, hwrite, hread.trans ?_⟩
  simp

/-! ### Anthropic -/

lemma textParts_toolUses (calls : List ToolCall) :
    (calls.map fun call => Anthropic.Block.toolUse call.id call.name call.arguments).filterMap
      Anthropic.Block.textPart = [] := by
  rw [List.filterMap_map, List.filterMap_eq_nil_iff]
  intro call _
  rfl

lemma toolCalls_toolUses (calls : List ToolCall) :
    (calls.map fun call => Anthropic.Block.toolUse call.id call.name call.arguments).filterMap
      Anthropic.Block.toolCall = calls := by
  rw [List.filterMap_map]
  exact List.filterMap_some

/-- Whatever the content, what is read back is the content that is not empty. -/
lemma toMessage_turnBlocks (m : Message) : Anthropic.toMessage (Anthropic.turnBlocks m) =
    { role := .assistant, content := visibleContent m, toolCalls := m.toolCalls } := by
  have hcalls : (Anthropic.turnBlocks m).filterMap Anthropic.Block.toolCall = m.toolCalls := by
    rw [Anthropic.turnBlocks, List.filterMap_append, toolCalls_toolUses]
    cases visibleContent m <;> rfl
  have htexts : (Anthropic.turnBlocks m).filterMap Anthropic.Block.textPart =
      (visibleContent m).toList := by
    rw [Anthropic.turnBlocks, List.filterMap_append, textParts_toolUses, List.append_nil]
    cases visibleContent m <;> rfl
  have hcontent : (some (visibleContent m).toList.flatten).filter (· ≠ []) = visibleContent m := by
    cases hm : visibleContent m with
    | none => rfl
    | some text =>
      obtain ⟨-, htext⟩ := Option.filter_eq_some_iff.mp hm
      rw [Option.toList_some, List.flatten_singleton]
      exact Option.filter_some_pos htext
  rw [Anthropic.toMessage, hcalls, htexts, hcontent]

lemma Calling.visibleContent_eq (h : Calling m) : visibleContent m = m.content := by
  unfold visibleContent
  cases hm : m.content with
  | none => rfl
  | some text => exact Option.filter_some_pos (by simpa [hm] using h.content)

lemma anthropic_round (h : Calling m) :
    Anthropic.toMessage (Anthropic.turnBlocks m) = m := by
  rw [toMessage_turnBlocks, h.visibleContent_eq, h.eq_mk]

/-- A turn is written as its blocks, between what is written for the other messages. -/
lemma splitMessages_turn (h : Calling m) (before after : List Message) :
    (Anthropic.splitMessages (before ++ m :: after)).2 =
      (Anthropic.splitMessages before).2 ++
        ⟨py "assistant", .blocks (Anthropic.turnBlocks m)⟩ ::
          (Anthropic.splitMessages after).2 := by
  have hm : Anthropic.splitMessage m =
      some ⟨py "assistant", .blocks (Anthropic.turnBlocks m)⟩ := by
    rw [Anthropic.splitMessage, if_neg (by rw [h.role]; decide), h.resultOf_eq]
    exact if_pos h.calls
  change (before ++ m :: after).filterMap Anthropic.splitMessage = _
  rw [List.filterMap_append, List.filterMap_cons_some hm]
  rfl

end

/-! ### A turn that moves between vendors -/

inductive Vendor
  | openAI | anthropic

/-- A turn written for a vendor and read back as that vendor's answer. -/
def Vendor.replay (loads : PyStr → Option JSONObject) (m : Message) : Vendor → Option Message
  | .openAI => (OpenAI.toOpenAIMessage m).bind (OpenAI.toMessage loads)
  | .anthropic => some (Anthropic.toMessage (Anthropic.turnBlocks m))

lemma replay_eq {loads : PyStr → Option JSONObject} {m : Message} (h : Calling m)
    (hloads : Inverts loads m) (v : Vendor) : v.replay loads m = some m := by
  cases v with
  | openAI =>
    obtain ⟨chat, hwrite, hread⟩ := openAI_round h hloads
    rw [Vendor.replay, hwrite]
    exact hread
  | anthropic => exact congrArg some (anthropic_round h)

/-- Each failover leaves the turn as it was. -/
lemma foldlM_replay_eq {loads : PyStr → Option JSONObject} {m : Message} (h : Calling m)
    (hloads : Inverts loads m) (vendors : List Vendor) :
    vendors.foldlM (Vendor.replay loads) m = some m := by
  induction vendors with
  | nil => rfl
  | cons v rest ih =>
    rw [List.foldlM_cons, replay_eq h hloads v]
    exact ih

/-- **Replay.** A turn that called tools reads back from either vendor's request as it was, in
any transcript, and so it does after any sequence of failovers. -/
theorem replay_turn (loads : PyStr → Option JSONObject) (m : Message) (h : Calling m)
    (hloads : Inverts loads m) :
    (∃ chat, OpenAI.toOpenAIMessage m = some chat ∧
      ∀ (p : ModelProvider) (response : OpenAI.ChatCompletion),
        response.choices.head? = some chat →
        (OpenAI.toResponse loads p response).map (·.message) = some m) ∧
    (∃ blocks, (∀ before after : List Message,
        (Anthropic.splitMessages (before ++ m :: after)).2 =
          (Anthropic.splitMessages before).2 ++
            ⟨py "assistant", .blocks blocks⟩ :: (Anthropic.splitMessages after).2) ∧
      ∀ (p : ModelProvider) (response : Anthropic.Reply), response.content = blocks →
        (Anthropic.toResponse p response).message = m) ∧
    ∀ vendors : List Vendor, vendors.foldlM (Vendor.replay loads) m = some m := by
  refine ⟨?_, ⟨Anthropic.turnBlocks m, splitMessages_turn h, ?_⟩, foldlM_replay_eq h hloads⟩
  · obtain ⟨chat, hwrite, hread⟩ := openAI_round h hloads
    refine ⟨chat, hwrite, fun p response hchoice => ?_⟩
    rw [OpenAI.toResponse, hchoice]
    change Option.map _ ((OpenAI.toMessage loads chat).bind _) = _
    rw [hread]
    rfl
  · intro p response hblocks
    change Anthropic.toMessage response.content = m
    rw [hblocks]
    exact anthropic_round h

namespace Sample

def turn : Message :=
  { role := .assistant
    content := some (py "let me look")
    toolCalls := [⟨py "1", py "clock", []⟩, ⟨py "1", py "rain", [(py "city", .str (py "Rome"))]⟩] }

/-- `json.loads` on the two texts of the sample. -/
def loads (text : PyStr) : Option JSONObject :=
  if text = py "\x7b\x7d" then some []
  else if text = py "\x7b\"city\": \"Rome\"\x7d" then some [(py "city", .str (py "Rome"))]
  else none

lemma calling_turn : Calling turn := ⟨rfl, by simp [turn], rfl, by simp [turn, py]⟩

lemma inverts_turn : Inverts loads turn := by
  intro call hcall
  rcases List.mem_cons.mp hcall with rfl | hcall
  · exact ⟨py "\x7b\x7d", by decide, if_pos rfl⟩
  · rw [List.mem_singleton.mp hcall]
    exact ⟨py "\x7b\"city\": \"Rome\"\x7d", by decide,
      (if_neg (by decide)).trans (if_pos rfl)⟩

end Sample

theorem replay_turn_there_and_back :
    ([Vendor.openAI, .anthropic, .anthropic, .openAI].foldlM (Vendor.replay Sample.loads)
      Sample.turn) = some Sample.turn :=
  (replay_turn Sample.loads Sample.turn Sample.calling_turn Sample.inverts_turn).2.2 _

end ModelDispatcher.Replay
