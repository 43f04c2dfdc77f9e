import ModelDispatcher.Replay

/-!
The requests that the three vendor adapters build, and what they say.

What a request says is a conversation: the system text, who said what, which tools were asked
with which arguments, and which tool answered what. A vendor's request says what its API makes of
it, and all three say the same, except that OpenAI has no way to say that a tool failed.
-/

namespace ModelDispatcher.VendorRequests

open Lib.Text Lib.Floats Lib.Json DataTypes GeminiRequest Replay

/-! ### The requests -/

/-- `_DEFAULT_MAX_TOKENS`, the same in all three adapters. -/
def defaultMaxTokens : ℤ := 4096

/-- `request.max_tokens or _DEFAULT_MAX_TOKENS`. -/
def limitOf (request : CompletionRequest) : ℤ :=
  match request.maxTokens with
  | none => defaultMaxTokens
  | some n => if n = 0 then defaultMaxTokens else n

/-- An argument that is passed only if there are tools. -/
def toolsOf {α : Type} (declare : ToolSpec → α) (request : CompletionRequest) :
    Option (List α) :=
  if request.tools = [] then none else some (request.tools.map declare)

/-- An argument that is passed only if the system text is not empty. -/
def systemOf (system : PyStr) : Option PyStr := if system = [] then none else some system

namespace OpenAI

structure FunctionTool where
  name : PyStr
  description : PyStr
  parameters : JSONObject

/-- The keyword arguments of `chat.completions.create`. -/
structure Kwargs where
  model : PyStr
  maxTokens : ℤ
  messages : List Replay.OpenAI.ChatMessage
  temperature : Option PyFloat
  tools : Option (List FunctionTool)

/-- With `none` where the arguments of a call do not encode. -/
def buildKwargs (model : PyStr) (request : CompletionRequest) : Option Kwargs :=
  (request.messages.mapM Replay.OpenAI.toOpenAIMessage).map fun messages =>
    { model := model
      maxTokens := limitOf request
      messages := messages
      temperature := request.temperature
      tools := toolsOf (fun tool => ⟨tool.name, tool.description, tool.parameters⟩) request }

end OpenAI

namespace Anthropic

structure Tool where
  name : PyStr
  description : PyStr
  inputSchema : JSONObject

/-- The keyword arguments of `messages.create`. -/
structure Kwargs where
  model : PyStr
  maxTokens : ℤ
  messages : List Replay.Anthropic.MessageParam
  system : Option PyStr
  temperature : Option PyFloat
  tools : Option (List Tool)

def buildKwargs (model : PyStr) (request : CompletionRequest) : Kwargs :=
  let split := Replay.Anthropic.splitMessages request.messages
  { model := model
    maxTokens := limitOf request
    messages := split.2
    system := systemOf split.1
    temperature := request.temperature
    tools := toolsOf (fun tool => ⟨tool.name, tool.description, tool.parameters⟩) request }

end Anthropic

namespace Gemini

structure FunctionDeclaration where
  name : PyStr
  description : PyStr
  parametersJsonSchema : JSONObject

structure GenerateContentConfig where
  maxOutputTokens : ℤ
  systemInstruction : Option PyStr
  temperature : Option PyFloat
  /-- The declarations of the one tool. -/
  tools : Option (List FunctionDeclaration)

def buildConfig (request : CompletionRequest) (system : PyStr) : GenerateContentConfig where
  maxOutputTokens := limitOf request
  systemInstruction := systemOf system
  temperature := request.temperature
  tools := toolsOf (fun tool => ⟨tool.name, tool.description, tool.parameters⟩) request

/-- The arguments of `generate_content`. -/
structure GenerateContent where
  model : PyStr
  contents : List Content
  config : GenerateContentConfig

def generateContent (model : PyStr) (request : CompletionRequest) : GenerateContent :=
  let built := buildContents request
  ⟨model, built.2, buildConfig request built.1⟩

end Gemini

/-! ### What they say -/

/-- One turn of a conversation. -/
inductive Turn
  | said (byModel : Bool) (text : PyStr)
  /-- The model asked for tools, by name and arguments. -/
  | asked (text : Option PyStr) (calls : List (PyStr × JSONObject))
  | answered (tool text : PyStr) (failed : Bool)

/-- The turn without the failure of its tool. -/
def Turn.unmarked : Turn → Turn
  | .answered tool text _ => .answered tool text false
  | turn => turn

structure Conversation where
  system : PyStr
  turns : List Turn
  maxTokens : ℤ
  temperature : Option PyFloat
  tools : List ToolSpec

def Conversation.unmarked (c : Conversation) : Conversation :=
  { c with turns := c.turns.map Turn.unmarked }

def callsTurn (text : Option PyStr) (calls : List ToolCall) : Turn :=
  .asked (text.filter (· ≠ [])) (calls.map fun call => (call.name, call.arguments))

/-- The tool that is asked under an id in some calls. -/
def nameIn (current : List ToolCall) (id : PyStr) : PyStr :=
  ((current.find? (·.id = id)).map (·.name)).getD id

/-- The turns of some messages after the calls of a turn. -/
def turnsOf : List ToolCall → List Message → List Turn
  | _, [] => []
  | current, m :: ms =>
    if m.role = .system then turnsOf current ms
    else match resultOf m with
      | some result =>
        .answered (nameIn current result.callId) result.content result.isError :: turnsOf current ms
      | none =>
        if m.toolCalls ≠ [] then callsTurn m.content m.toolCalls :: turnsOf m.toolCalls ms
        else .said (m.role = .assistant) (m.content.getD []) :: turnsOf current ms

/-- What a request of the library says. -/
def conversationOf (request : CompletionRequest) : Conversation where
  system := join '\n' (systemTexts request.messages)
  turns := turnsOf [] request.messages
  maxTokens := limitOf request
  temperature := request.temperature
  tools := request.tools

/-! ### What the vendors read -/

namespace OpenAI

open Replay.OpenAI (ChatMessage readCall)

/-- The texts of the system messages that have one. -/
def readSystem (messages : List ChatMessage) : List PyStr :=
  (messages.filter (·.role = py "system")).filterMap fun m => m.content.filter (· ≠ [])

/-- The turns of some messages after the calls of a turn, with `none` where the arguments of a
call do not parse. -/
def readTurns (loads : PyStr → Option JSONObject) :
    List ToolCall → List ChatMessage → Option (List Turn)
  | _, [] => some []
  | current, m :: ms =>
    if m.role = py "system" then readTurns loads current ms
    else if m.role = py "tool" then do
      let rest ← readTurns loads current ms
      return .answered (nameIn current (m.toolCallId.getD [])) (m.content.getD []) false :: rest
    else match m.toolCalls with
      | some written => do
        let calls ← written.mapM (readCall loads)
        let rest ← readTurns loads calls ms
        return callsTurn m.content calls :: rest
      | none => do
        let rest ← readTurns loads current ms
        return .said (m.role = py "assistant") (m.content.getD []) :: rest

/-- What the arguments of a chat completion say. -/
def read (loads : PyStr → Option JSONObject) (kwargs : Kwargs) : Option Conversation :=
  (readTurns loads [] kwargs.messages).map fun turns =>
    { system := join '\n' (readSystem kwargs.messages)
      turns := turns
      maxTokens := kwargs.maxTokens
      temperature := kwargs.temperature
      tools := (kwargs.tools.getD []).map fun t => ⟨t.name, t.description, t.parameters⟩ }

end OpenAI

namespace Anthropic

open Replay.Anthropic (MessageParam Block toMessage)

/-- The tool result of a block. -/
def readResult (current : List ToolCall) : Block → Option Turn
  | .toolResult id text failed => some (.answered (nameIn current id) text failed)
  | _ => none

def readTurns : List ToolCall → List MessageParam → List Turn
  | _, [] => []
  | current, ⟨role, .plain text⟩ :: ms =>
    .said (role = py "assistant") text :: readTurns current ms
  | current, ⟨role, .blocks blocks⟩ :: ms =>
    if role = py "assistant" then
      let m := toMessage blocks
      callsTurn m.content m.toolCalls :: readTurns m.toolCalls ms
    else blocks.filterMap (readResult current) ++ readTurns current ms

def read (kwargs : Kwargs) : Conversation where
  system := kwargs.system.getD []
  turns := readTurns [] kwargs.messages
  maxTokens := kwargs.maxTokens
  temperature := kwargs.temperature
  tools := (kwargs.tools.getD []).map fun t => ⟨t.name, t.description, t.inputSchema⟩

end Anthropic

namespace Gemini

def textPart : Part → Option PyStr
  | .text text => some text
  | _ => none

def callPart : Part → Option (PyStr × JSONObject)
  | .functionCall name args => some (name, args)
  | _ => none

/-- The text of a function response, and whether it is an error. -/
def readResponse : JSONObject → PyStr × Bool
  | [(key, .str text)] => (text, key = py "error")
  | _ => ([], false)

def readContent (content : Content) : Turn :=
  match content.parts with
  | [.text text] => .said (content.role = py "model") text
  | [.functionResponse name response] =>
    .answered name (readResponse response).1 (readResponse response).2
  | parts => .asked (parts.filterMap textPart).head? (parts.filterMap callPart)

def read (call : GenerateContent) : Conversation where
  system := call.config.systemInstruction.getD []
  turns := call.contents.map readContent
  maxTokens := call.config.maxOutputTokens
  temperature := call.config.temperature
  tools := (call.config.tools.getD []).map fun t =>
    ⟨t.name, t.description, t.parametersJsonSchema⟩

end Gemini

/-! ### The parts of a request -/

/-- A message as the library and its callers make them: a tool message carries its result, and a
system message no calls. -/
structure Formed (m : Message) : Prop where
  tool : m.role = .tool → ∃ result, m.toolResult = some result
  system : m.role = .system → m.toolCalls = []

lemma systemOf_getD (system : PyStr) : (systemOf system).getD [] = system := by
  unfold systemOf
  split_ifs with h
  · exact h.symm
  · rfl

/-- Declaring the tools and reading them back. -/
lemma toolsOf_getD {α : Type} {declare : ToolSpec → α} {read : α → ToolSpec}
    (h : ∀ tool, read (declare tool) = tool) (request : CompletionRequest) :
    ((toolsOf declare request).getD []).map read = request.tools := by
  unfold toolsOf
  split_ifs with hnone
  · rw [hnone]
    rfl
  · rw [Option.getD_some, List.map_map]
    exact List.map_id'' h _

lemma roleValue_eq_iff {r r' : Role} : roleValue r = roleValue r' ↔ r = r' := by
  cases r <;> cases r' <;> decide

/-- The four kinds of messages the adapters tell apart. -/
inductive Kind (m : Message) : Prop
  | system (hrole : m.role = .system) (hresult : resultOf m = none) (hcalls : m.toolCalls = [])
  | result (r : ToolResult) (hrole : m.role ≠ .system) (hresult : resultOf m = some r)
  | calls (hrole : m.role ≠ .system) (hresult : resultOf m = none) (hcalls : m.toolCalls ≠ [])
  | plain (hrole : m.role ≠ .system) (htool : m.role ≠ .tool) (hresult : resultOf m = none)
      (hcalls : m.toolCalls = [])

lemma Formed.kind {m : Message} (hm : Formed m) : Kind m := by
  by_cases hsystem : m.role = .system
  · exact .system hsystem (if_neg (by rw [hsystem]; decide)) (hm.system hsystem)
  · cases hresult : resultOf m with
    | some r => exact .result r hsystem hresult
    | none =>
      by_cases hcalls : m.toolCalls = []
      · refine .plain hsystem (fun htool => ?_) hresult hcalls
        obtain ⟨result, hsome⟩ := hm.tool htool
        rw [resultOf, if_pos htool, hsome] at hresult
        cases hresult
      · exact .calls hsystem hresult hcalls

section

variable {current : List ToolCall} {m : Message} {ms : List Message}

lemma turnsOf_system (hrole : m.role = .system) :
    turnsOf current (m :: ms) = turnsOf current ms := by
  rw [turnsOf, if_pos hrole]

lemma turnsOf_result {r : ToolResult} (hrole : m.role ≠ .system) (hresult : resultOf m = some r) :
    turnsOf current (m :: ms) =
      .answered (nameIn current r.callId) r.content r.isError :: turnsOf current ms := by
  rw [turnsOf, if_neg hrole, hresult]

lemma turnsOf_calls (hrole : m.role ≠ .system) (hresult : resultOf m = none)
    (hcalls : m.toolCalls ≠ []) :
    turnsOf current (m :: ms) = callsTurn m.content m.toolCalls :: turnsOf m.toolCalls ms := by
  rw [turnsOf, if_neg hrole, hresult]
  exact if_pos hcalls

lemma turnsOf_plain (hrole : m.role ≠ .system) (hresult : resultOf m = none)
    (hcalls : m.toolCalls = []) :
    turnsOf current (m :: ms) =
      .said (m.role = .assistant) (m.content.getD []) :: turnsOf current ms := by
  rw [turnsOf, if_neg hrole, hresult]
  exact if_neg (not_not.mpr hcalls)

end

/-- An empty text counts as none. -/
lemma filter_getD (content : Option PyStr) :
    (some (content.getD [])).filter (· ≠ []) = content.filter (· ≠ []) := by
  cases content with
  | none => rfl
  | some text => rfl

/-! ### OpenAI -/

section

variable {loads : PyStr → Option JSONObject}

open Replay.OpenAI (toOpenAIMessage)

/-- What is written for some messages, and how it reads. -/
structure OpenAIReads (loads : PyStr → Option JSONObject) (current : List ToolCall)
    (ms : List Message) (chats : List Replay.OpenAI.ChatMessage) : Prop where
  written : ms.mapM toOpenAIMessage = some chats
  turns : OpenAI.readTurns loads current chats = some ((turnsOf current ms).map Turn.unmarked)
  system : OpenAI.readSystem chats = systemTexts ms

section

variable {current next : List ToolCall} {m : Message} {ms : List Message}
variable {chat : Replay.OpenAI.ChatMessage} {chats : List Replay.OpenAI.ChatMessage}

/-- A message that is no system message in front of others. -/
lemma OpenAIReads.cons {turn : Turn} (h : OpenAIReads loads next ms chats)
    (hchat : toOpenAIMessage m = some chat) (hrole : m.role ≠ .system)
    (hsystem : chat.role ≠ py "system")
    (hread : ∀ rest, OpenAI.readTurns loads next chats = some rest →
      OpenAI.readTurns loads current (chat :: chats) = some (turn.unmarked :: rest))
    (hturns : turnsOf current (m :: ms) = turn :: turnsOf next ms) :
    OpenAIReads loads current (m :: ms) (chat :: chats) where
  written := by
    rw [List.mapM_cons, hchat, h.written]
    rfl
  turns := by rw [hread _ h.turns, hturns, List.map_cons]
  system := by
    rw [systemTexts_cons_of_ne hrole, ← h.system, OpenAI.readSystem,
      List.filter_cons_of_neg (by simpa using hsystem)]
    rfl

lemma OpenAIReads.cons_system (h : OpenAIReads loads current ms chats) (hrole : m.role = .system)
    (hresult : resultOf m = none) (hcalls : m.toolCalls = []) :
    OpenAIReads loads current (m :: ms)
      ({ role := py "system", content := some (m.content.getD []) } :: chats) where
  written := by
    have hm : toOpenAIMessage m =
        some { role := py "system", content := some (m.content.getD []) } := by
      rw [toOpenAIMessage, hresult, hrole]
      exact if_neg (not_not.mpr hcalls)
    rw [List.mapM_cons, hm, h.written]
    rfl
  turns := by
    rw [turnsOf_system hrole, ← h.turns]
    exact if_pos rfl
  system := by
    rw [systemTexts_cons_system hrole, ← h.system, visibleContent, ← filter_getD,
      OpenAI.readSystem, List.filter_cons_of_pos (by simp), List.filterMap_cons]
    dsimp only
    split
    · rename_i hnone
      rw [hnone]
      rfl
    · rename_i text hsome
      rw [hsome]
      rfl

/-- The induction is on the messages; the calls a result is looked up in are those of the last
turn with calls, on both sides. -/
lemma exists_openAIReads {ms : List Message} (hformed : ∀ m ∈ ms, Formed m)
    (hloads : ∀ m ∈ ms, Inverts loads m) :
    ∀ current, ∃ chats, OpenAIReads loads current ms chats := by
  induction ms with
  | nil => exact fun current => ⟨[], rfl, rfl, rfl⟩
  | cons m ms ih =>
    intro current
    have hrest := ih (fun m' h => hformed m' (by simp [h])) fun m' h => hloads m' (by simp [h])
    cases (hformed m (by simp)).kind with
    | system hrole hresult hcalls =>
      obtain ⟨chats, h⟩ := hrest current
      exact ⟨_, h.cons_system hrole hresult hcalls⟩
    | result r hrole hresult =>
      obtain ⟨chats, h⟩ := hrest current
      have hm : toOpenAIMessage m = some
          { role := py "tool", toolCallId := some r.callId, content := some r.content } := by
        rw [toOpenAIMessage, hresult]
      have hsystem : py "tool" ≠ py "system" := by decide
      refine ⟨_, h.cons hm hrole hsystem (fun rest hread => ?_) (turnsOf_result hrole hresult)⟩
      rw [OpenAI.readTurns, if_neg hsystem, if_pos rfl, hread]
      rfl
    | calls hrole hresult hcalls =>
      obtain ⟨chats, h⟩ := hrest m.toolCalls
      obtain ⟨written, hwrite, hcallsRead⟩ := calls_round (hloads m (by simp))
      have hm : toOpenAIMessage m = some
          { role := py "assistant", content := m.content, toolCalls := some written } := by
        rw [toOpenAIMessage, hresult]
        dsimp only
        rw [if_pos hcalls, hwrite]
        rfl
      have hsystem : py "assistant" ≠ py "system" := by decide
      have hnotTool : py "assistant" ≠ py "tool" := by decide
      refine ⟨_, h.cons hm hrole hsystem (fun rest hread => ?_)
        (turnsOf_calls hrole hresult hcalls)⟩
      rw [OpenAI.readTurns, if_neg hsystem, if_neg hnotTool]
      dsimp only
      rw [hcallsRead]
      change (OpenAI.readTurns loads m.toolCalls chats).bind _ = _
      rw [hread]
      rfl
    | plain hrole htool hresult hcalls =>
      obtain ⟨chats, h⟩ := hrest current
      have hm : toOpenAIMessage m =
          some { role := roleValue m.role, content := some (m.content.getD []) } := by
        rw [toOpenAIMessage, hresult]
        exact if_neg (not_not.mpr hcalls)
      have hsystem : roleValue m.role ≠ py "system" := fun h => hrole (roleValue_eq_iff.mp h)
      have hnotTool : roleValue m.role ≠ py "tool" := fun h => htool (roleValue_eq_iff.mp h)
      have hassistant : (roleValue m.role = py "assistant") = (m.role = .assistant) :=
        propext (@roleValue_eq_iff m.role .assistant)
      refine ⟨_, h.cons hm hrole hsystem (fun rest hread => ?_)
        (turnsOf_plain hrole hresult hcalls)⟩
      rw [OpenAI.readTurns, if_neg hsystem, if_neg hnotTool]
      dsimp only
      rw [hread]
      simp only [hassistant]
      rfl

end

end

/-! ### Anthropic -/

section

open Replay.Anthropic (splitMessage turnBlocks)

/-- The induction is on the messages, as for OpenAI. -/
lemma anthropic_readTurns {ms : List Message} (hformed : ∀ m ∈ ms, Formed m) :
    ∀ current, Anthropic.readTurns current (ms.filterMap splitMessage) = turnsOf current ms := by
  induction ms with
  | nil => exact fun current => rfl
  | cons m ms ih =>
    intro current
    have hrest := ih fun m' h => hformed m' (by simp [h])
    cases (hformed m (by simp)).kind with
    | system hrole hresult hcalls =>
      have hm : splitMessage m = none := if_pos hrole
      rw [List.filterMap_cons_none hm, turnsOf_system hrole, hrest]
    | result r hrole hresult =>
      have hm : splitMessage m =
          some ⟨py "user", .blocks [.toolResult r.callId r.content r.isError]⟩ := by
        rw [splitMessage, if_neg hrole, hresult]
      rw [List.filterMap_cons_some hm, turnsOf_result hrole hresult, ← hrest current]
      exact if_neg (show py "user" ≠ py "assistant" by decide)
    | calls hrole hresult hcalls =>
      have hm : splitMessage m = some ⟨py "assistant", .blocks (turnBlocks m)⟩ := by
        rw [splitMessage, if_neg hrole, hresult]
        exact if_pos hcalls
      rw [List.filterMap_cons_some hm, turnsOf_calls hrole hresult hcalls, ← hrest m.toolCalls,
        Anthropic.readTurns, if_pos rfl, toMessage_turnBlocks]
      dsimp only
      rw [callsTurn, callsTurn, visibleContent, Option.filter_filter]
      simp
    | plain hrole htool hresult hcalls =>
      have hm : splitMessage m = some ⟨roleValue m.role, .plain (m.content.getD [])⟩ := by
        rw [splitMessage, if_neg hrole, hresult]
        exact if_neg (not_not.mpr hcalls)
      have hassistant : (roleValue m.role = py "assistant") = (m.role = .assistant) :=
        propext (@roleValue_eq_iff m.role .assistant)
      rw [List.filterMap_cons_some hm, turnsOf_plain hrole hresult hcalls, ← hrest current,
        Anthropic.readTurns]
      simp only [hassistant]

end

/-! ### Gemini -/

section

variable {m : Message}

lemma readContent_response (name : PyStr) (r : ToolResult) :
    Gemini.readContent (responseContent name r) = .answered name r.content r.isError := by
  unfold responseContent payload
  cases h : r.isError
  · rfl
  · rfl

lemma readContent_plain (m : Message) :
    Gemini.readContent (plainContent m) =
      .said (m.role = .assistant) (m.content.getD []) := by
  unfold plainContent Gemini.readContent
  by_cases h : m.role = .assistant
  · simp [h]
  · simp only [h]
    rfl

lemma textParts_calls (calls : List ToolCall) :
    (calls.map fun call => Part.functionCall call.name call.arguments).filterMap
      Gemini.textPart = [] := by
  rw [List.filterMap_map, List.filterMap_eq_nil_iff]
  intro call _
  rfl

lemma callParts_calls (calls : List ToolCall) :
    (calls.map fun call => Part.functionCall call.name call.arguments).filterMap
      Gemini.callPart = calls.map fun call => (call.name, call.arguments) := by
  rw [List.filterMap_map]
  exact congrFun List.filterMap_eq_map calls

lemma readContent_calls (hcalls : m.toolCalls ≠ []) :
    Gemini.readContent (callsContent m) = callsTurn m.content m.toolCalls := by
  have hparts : Gemini.readContent (callsContent m) =
      .asked ((callsContent m).parts.filterMap Gemini.textPart).head?
        ((callsContent m).parts.filterMap Gemini.callPart) := by
    unfold Gemini.readContent callsContent
    cases hcalls' : m.toolCalls with
    | nil => exact absurd hcalls' hcalls
    | cons call rest => cases visibleContent m <;> rfl
  rw [hparts, callsContent, List.filterMap_append, List.filterMap_append, textParts_calls,
    callParts_calls, callsTurn, ← visibleContent]
  cases visibleContent m <;> rfl

/-- The names an id is looked up in are those of the turn's calls, and none before the first. -/
structure Current (current : List ToolCall) (names : Lib.Dicts.PyDict PyStr PyStr) : Prop where
  named : Named current names
  nodup : (current.map (·.id)).Nodup
  none : current = [] → names = ∅

lemma nameIn_of_mem {current : List ToolCall} {call : ToolCall}
    (hids : (current.map (·.id)).Nodup) (hcall : call ∈ current) :
    nameIn current call.id = call.name := by
  have hfind : current.find? (·.id = call.id) = some call := by
    induction current with
    | nil => cases hcall
    | cons first rest ih =>
      rw [List.map_cons, List.nodup_cons] at hids
      rcases List.mem_cons.mp hcall with rfl | hrest
      · exact List.find?_cons_of_pos (by simp)
      · have hne : first.id ≠ call.id := fun h => hids.1 (h ▸ List.mem_map_of_mem hrest)
        rw [List.find?_cons_of_neg (by simpa using hne)]
        exact ih hids.2 hrest
  rw [nameIn, hfind]
  rfl

/-- The contents that the scan of some messages adds read as their turns. -/
def Scanned (current : List ToolCall) (c : Collected) (ms : List Message) : Prop :=
  ∃ cs, (ms.foldl collect c).contents = c.contents ++ cs ∧
    cs.map Gemini.readContent = turnsOf current ms

lemma Scanned.cons {current next : List ToolCall} {c : Collected} {ms : List Message}
    {content : Content} (h : Scanned next (collect c m) ms)
    (hcontents : (collect c m).contents = c.contents ++ [content])
    (hturns : turnsOf current (m :: ms) = Gemini.readContent content :: turnsOf next ms) :
    Scanned current c (m :: ms) := by
  obtain ⟨cs, hcs, hread⟩ := h
  refine ⟨content :: cs, ?_, ?_⟩
  · rw [List.foldl_cons, hcs, hcontents, List.append_assoc]
    rfl
  · rw [hturns, List.map_cons, hread]

/-- The contents of a shaped transcript read as its turns, by induction on the shape. -/
lemma scanned_of_shaped {current : List ToolCall} {ms : List Message} (h : Shaped current ms)
    {c : Collected} (hcurrent : Current current c.callNamesById) : Scanned current c ms := by
  induction h generalizing c with
  | nil => exact ⟨[], by simp, rfl⟩
  | @system current m ms hrole rest ih =>
    have hcollect := collect_system (c := c) hrole
    obtain ⟨cs, hcs, hread⟩ := @ih (collect c m) (by rw [hcollect]; exact hcurrent)
    exact ⟨cs, by rw [List.foldl_cons, hcs, hcollect], by rw [turnsOf_system hrole, hread]⟩
  | @calls current m ms hrole hresult hcalls hids rest ih =>
    have hcollect := collect_calls (c := c) hrole hresult hcalls
    refine Scanned.cons (ih ⟨?_, hids, fun h => absurd h hcalls⟩) (by rw [hcollect]) ?_
    · rw [hcollect]
      exact named_foldl_set hids _
    · rw [turnsOf_calls hrole hresult hcalls, readContent_calls hcalls]
  | @result current m ms r call hresult hcall hid rest ih =>
    have hcollect := collect_result (c := c) hresult
    have hname : (c.callNamesById.get? r.callId).getD r.callId = call.name := by
      rw [← hid, hcurrent.named call hcall]
      rfl
    refine Scanned.cons (ih (by rw [hcollect]; exact hcurrent)) (by rw [hcollect]) ?_
    rw [turnsOf_result (role_of_resultOf hresult) hresult, readContent_response, hname, ← hid,
      nameIn_of_mem hcurrent.nodup hcall]
  | @orphan m ms r hresult rest ih =>
    have hcollect := collect_result (c := c) hresult
    refine Scanned.cons (ih (by rw [hcollect]; exact hcurrent)) (by rw [hcollect]) ?_
    rw [turnsOf_result (role_of_resultOf hresult) hresult, readContent_response,
      hcurrent.none rfl]
    rfl
  | @plain current m ms hrole hresult hcalls rest ih =>
    have hcollect := collect_plain (c := c) hrole hresult hcalls
    refine Scanned.cons (ih (by rw [hcollect]; exact hcurrent)) (by rw [hcollect]) ?_
    rw [turnsOf_plain hrole hresult hcalls, readContent_plain]

end

/-! ### One request -/

/-- What the three vendors are asked, for a request. -/
structure SaysTheSame (loads : PyStr → Option JSONObject) (model : PyStr)
    (request : CompletionRequest) : Prop where
  openAI : (OpenAI.buildKwargs model request).bind (OpenAI.read loads) =
    some (conversationOf request).unmarked
  anthropic : Anthropic.read (Anthropic.buildKwargs model request) = conversationOf request
  gemini : Gemini.read (Gemini.generateContent model request) = conversationOf request

lemma saysTheSame {loads : PyStr → Option JSONObject} {request : CompletionRequest}
    (hformed : ∀ m ∈ request.messages, Formed m)
    (hloads : ∀ m ∈ request.messages, Inverts loads m) (hshaped : Shaped [] request.messages)
    (model : PyStr) : SaysTheSame loads model request where
  openAI := by
    obtain ⟨chats, hwritten, hturns, hsystem⟩ := exists_openAIReads hformed hloads []
    rw [OpenAI.buildKwargs, hwritten, Option.map_some, Option.bind_some, OpenAI.read, hturns,
      Option.map_some, hsystem, toolsOf_getD fun _ => rfl]
    rfl
  anthropic := by
    unfold Anthropic.read Anthropic.buildKwargs
    dsimp only
    rw [systemOf_getD, toolsOf_getD fun _ => rfl, Replay.Anthropic.splitMessages,
      anthropic_readTurns hformed]
    rfl
  gemini := by
    have hcurrent : Current [] (∅ : Lib.Dicts.PyDict PyStr PyStr) :=
      ⟨by simp [Named], by simp, fun _ => rfl⟩
    obtain ⟨cs, hcs, hread⟩ := scanned_of_shaped hshaped (c := {}) hcurrent
    have hsystem := (collects_of_shaped hshaped (c := {}) hcurrent.named).system
    unfold Gemini.read Gemini.generateContent Gemini.buildConfig buildContents
    dsimp only
    rw [systemOf_getD, toolsOf_getD fun _ => rfl, hcs, hsystem]
    change Conversation.mk _ (cs.map _) _ _ _ = _
    rw [hread]
    rfl

end ModelDispatcher.VendorRequests
