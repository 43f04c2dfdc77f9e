import ModelDispatcher.ChunkBoundaries
import ModelDispatcher.Replay

/-!
The two ways to get an answer from Anthropic: a stream of events, whose text deltas are all put
together, and a body with a list of blocks, of which only the first one is read.
-/

namespace ModelDispatcher.AnthropicAnswers

open Lib.Text Lib.Logged Lib.Lockstep Lib.Framing Lib.Js BrowserAgent Streaming ChunkBoundaries

/-! ### The two wire formats -/

/-- A text block in the body of an answer. -/
def textBlock (text : JsStr) : JsValue :=
  .object [(js "type", .string (js "text")), (js "text", .string text)]

/-- The text of a text delta, whatever value it is. -/
def deltaOf (event : JsValue) : Option JsValue :=
  let delta := event.property (js "delta")
  if (event.property (js "type")).asString = some (js "content_block_delta") ∧
      (delta.property (js "type")).asString = some (js "text_delta") then
    some (delta.property (js "text"))
  else none

/-- The text of the delta a line carries. -/
def lineDelta (runtime : Runtime) (line : JsStr) : Option JsValue :=
  ((dataOf line).bind runtime.parse).bind deltaOf

section

variable (runtime : Runtime)

/-- The request brings an answer whose body holds the text blocks. -/
structure OneShot (request : FetchRequest) (blocks : List JsStr) where
  res : Response
  fetched : ∀ log, runtime.fetch log request = .ok res
  ok : res.ok
  data : JsValue
  json : res.json = .ok data
  content : data.property (js "content") = .array (blocks.map textBlock)

/-- The request brings a stream whose lines carry the blocks in non-empty pieces, among any other
events. -/
structure EventStream (whole : List UInt8 → JsStr) (request : FetchRequest)
    (blocks : List JsStr) where
  res : Response
  fetched : ∀ log, runtime.fetch log request = .ok res
  ok : res.ok
  chunks : List (List UInt8)
  body : res.body = some ⟨chunks, none⟩
  lines : List JsStr
  rest : JsStr
  framed : Framed 10 (whole chunks.flatten) lines rest
  pieces : List (List JsStr)
  filled : ∀ piece ∈ pieces.flatten, piece ≠ []
  joined : pieces.map List.flatten = blocks
  deltas : lines.filterMap (lineDelta runtime) = pieces.flatten.map JsValue.string

end

/-! ### A call whose response is ok -/

section

variable {runtime : Runtime}

/-- A response that is ok is not asked for again. -/
lemma run_exchange {request : FetchRequest} {res : Response}
    (hfetch : ∀ log, runtime.fetch log request = .ok res) (hok : res.ok)
    (describe : Response → Run JsStr) (m : Machine) :
    (exchange runtime (.ok request) describe).run m =
      .ok res (noted m (.fetched request (.ok res))) := by
  have hretry : isRetryableStatus res.status = false := by
    simp only [Response.ok, Bool.and_eq_true, decide_eq_true_eq] at hok
    simp [isRetryableStatus]
    omega
  have hrun : (fetch runtime request).run m = .ok res (noted m (.fetched request (.ok res))) := by
    show (do
      note (.fetched request (runtime.fetch m.log request))
      orThrow (runtime.fetch m.log request) : Run Response).run m = _
    rw [hfetch]
    rfl
  have hattempt : (attempt (fetch runtime request) : Run _).run m =
      .ok (.ok res) (noted m (.fetched request (.ok res))) := by
    unfold EStateM.run attempt
    rw [show fetch runtime request m = _ from hrun]
  show (fetchWithRetry runtime request >>= fun res => if res.ok then pure res else _).run m = _
  rw [EStateM.run_bind, fetchWithRetry, EStateM.run_bind, hattempt]
  simp only [hretry, Bool.false_eq_true, if_false, EStateM.run_pure, hok, if_true]

/-! ### The one-shot call -/

section

variable (hquiet : ∀ log, runtime.interrupted log = none)
include hquiet

lemma run_readJson (res : Response) (m : Machine) :
    (readJson runtime res).run m = (orThrow res.json).run (noted m (.json res.json)) := by
  rw [readJson, arrival_eq hquiet]
  rfl

/-- The text of the first block. -/
lemma answer_completeAnthropic {cfg : ProviderCallConfig} {messages : List ChatMessage}
    {options : RequestOptions} {blocks : List JsStr}
    (one : OneShot runtime (Anthropic.request cfg messages options false) blocks) (m : Machine) :
    answer ((completeAnthropic runtime cfg messages options).run m) =
      .ok (.string (blocks.head?.getD [])) := by
  have hnullish : one.data.isNullish = false := by
    have hcontent := one.content
    cases hdata : one.data with
    | undefined => rw [hdata] at hcontent; cases hcontent
    | null => rw [hdata] at hcontent; cases hcontent
    | _ => rfl
  have hmember : member runtime one.data (js "content") = .ok (.array (blocks.map textBlock)) := by
    rw [member, if_neg (by simp [hnullish]), one.content]
  rw [completeAnthropic, completeJson, EStateM.run_bind, run_exchange one.fetched one.ok]
  dsimp only
  rw [EStateM.run_bind, run_readJson hquiet, one.json]
  simp only [orThrow, EStateM.run_pure, pure_bind, hmember]
  cases blocks <;> rfl

end

/-! ### The stream -/

lemma anthropic_next_eq (full line : JsStr) :
    Anthropic.next runtime full line = (lineDelta runtime line).bind (append runtime full) := by
  unfold Anthropic.next lineDelta deltaOf
  cases dataOf line with
  | none => rfl
  | some raw =>
    simp only [Option.bind_some, Option.bind_eq_bind]
    cases runtime.parse raw with
    | none => rfl
    | some event =>
      simp only [Option.bind_some]
      split_ifs <;> rfl

/-- The texts of the deltas are put together, line by line. -/
lemma answer_lines (lines : List JsStr) : ∀ (deltas : List JsStr) (full : JsStr) (m : Machine),
    lines.filterMap (lineDelta runtime) = deltas.map JsValue.string →
      answer ((lines.foldlM (onLine (Anthropic.next runtime) (deliver runtime)) full).run m) =
        .ok (full ++ deltas.flatten) := by
  induction lines with
  | nil =>
    intro deltas full m hdeltas
    obtain rfl := List.map_eq_nil_iff.mp hdeltas.symm
    rw [List.flatten_nil, List.append_nil]
    rfl
  | cons line lines ih =>
    intro deltas full m hdeltas
    rw [List.foldlM_cons, EStateM.run_bind, onLine, anthropic_next_eq]
    cases hline : lineDelta runtime line with
    | none =>
      rw [List.filterMap_cons_none hline] at hdeltas
      exact ih deltas full m hdeltas
    | some value =>
      rw [List.filterMap_cons_some hline] at hdeltas
      obtain ⟨delta, deltas, rfl, rfl, hrest⟩ := List.map_eq_cons_iff.mp hdeltas.symm
      rw [Option.bind_some, append, textOf]
      obtain ⟨result, hrun⟩ := run_attempt (ε := Thrown) (deliver runtime (full ++ delta)) m
      dsimp only
      rw [EStateM.run_bind, hrun]
      dsimp only
      rw [EStateM.run_pure, List.flatten_cons, ← List.append_assoc]
      exact ih deltas (full ++ delta) _ hrest.symm

/-- The text of all the blocks. -/
lemma answer_streamAnthropic {whole : List UInt8 → JsStr}
    (hdecode : ∀ chunks, decoded runtime [] chunks = whole chunks.flatten)
    (hquiet : ∀ log, runtime.interrupted log = none)
    {cfg : ProviderCallConfig} {messages : List ChatMessage} {options : RequestOptions}
    {blocks : List JsStr}
    (events : EventStream runtime whole (Anthropic.request cfg messages options true) blocks)
    (m : Machine) :
    answer ((streamAnthropic runtime cfg messages (deliver runtime) options).run m) =
      .ok blocks.flatten := by
  rw [streamAnthropic, streamLines, EStateM.run_bind, run_exchange events.fetched events.ok]
  have hstep := inStep_consumeLines hquiet (steady_onLine runtime (Anthropic.next runtime))
    events.body [] (noted m (.fetched (Anthropic.request cfg messages options true)
      (.ok events.res)))
  refine hstep.answer_eq.trans ?_
  rw [hdecode, events.framed.cut_eq]
  show answer (EStateM.run (_ >>= pure) _) = _
  have htext : events.pieces.flatten.flatten = blocks.flatten := by
    rw [List.flatten_flatten]
    exact congrArg List.flatten events.joined
  rw [bind_pure, answer_lines events.lines _ [] _ events.deltas, List.nil_append, htext]

end

/-! ### When the two agree -/

lemma head?_getD_eq_flatten_iff (blocks : List JsStr) :
    blocks.head?.getD [] = blocks.flatten ↔ ∀ block ∈ blocks.tail, block = [] := by
  cases blocks with
  | nil => simp
  | cons block blocks =>
    rw [List.head?_cons, Option.getD_some, List.flatten_cons, List.self_eq_append_right,
      List.flatten_eq_nil_iff, List.tail_cons]

/-- Both calls give the text of all the blocks if and only if the blocks after the first one are
empty. -/
theorem anthropic_answers_agree_iff {runtime : Runtime} {whole : List UInt8 → JsStr}
    (hdecode : ∀ chunks, decoded runtime [] chunks = whole chunks.flatten)
    (hquiet : ∀ log, runtime.interrupted log = none) (cfg : ProviderCallConfig)
    (messages : List ChatMessage) (options : RequestOptions) (blocks : List JsStr)
    (one : OneShot runtime (Anthropic.request cfg messages options false) blocks)
    (events : EventStream runtime whole (Anthropic.request cfg messages options true) blocks)
    (m m' : Machine) :
    (answer ((completeAnthropic runtime cfg messages options).run m) =
        .ok (.string blocks.flatten) ∧
      answer ((streamAnthropic runtime cfg messages (deliver runtime) options).run m') =
        .ok blocks.flatten) ↔
      ∀ block ∈ blocks.tail, block = [] := by
  rw [answer_completeAnthropic hquiet one, answer_streamAnthropic hdecode hquiet events,
    ← head?_getD_eq_flatten_iff]
  simp

/-- The Python adapter puts the texts of all blocks together. -/
theorem toMessage_texts (texts : List PyStr) :
    (Replay.Anthropic.toMessage (texts.map Replay.Anthropic.Block.text)).content =
      (some texts.flatten).filter (· ≠ []) := by
  have htexts : (texts.map Replay.Anthropic.Block.text).filterMap
      Replay.Anthropic.Block.textPart = texts := by
    rw [List.filterMap_map]
    exact List.filterMap_some
  rw [Replay.Anthropic.toMessage, htexts]

namespace Sample

def cfg : ProviderCallConfig := ⟨.anthropic, js "claude-haiku-4-5", js "k", []⟩

def messages : List ChatMessage := [⟨.user, js "hi"⟩]

def event (text : JsStr) : JsValue :=
  .object [(js "type", .string (js "content_block_delta")),
    (js "delta", .object [(js "type", .string (js "text_delta")), (js "text", .string text)])]

def eventText (text : JsStr) : JsStr :=
  js "\x7b\"type\":\"content_block_delta\",\"delta\":\x7b\"type\":\"text_delta\",\"text\":\"" ++
    text ++ js "\"\x7d\x7d"

def lines (blocks : List JsStr) : List JsStr :=
  blocks.map fun block => js "data: " ++ eventText block

def data (blocks : List JsStr) : JsValue :=
  .object [(js "content", .array (blocks.map textBlock))]

def oneShot (blocks : List JsStr) : Response := ⟨200, none, .ok (data blocks)⟩

def bytes (blocks : List JsStr) : List UInt8 :=
  ((lines blocks).flatMap (· ++ [10])).map (·.toUInt8)

def streaming (blocks : List JsStr) : Response :=
  ⟨200, some ⟨[bytes blocks], none⟩, .ok .undefined⟩

/-- A browser in which Anthropic answers with the blocks. -/
def runtime (blocks : List JsStr) : Runtime := { Streaming.Sample.runtime with
  fetch := fun _ request =>
    .ok (if (request.body.property (js "stream")).truthy then streaming blocks else oneShot blocks)
  parse := fun s => blocks.findSome? fun block =>
    if s = eventText block then some (event block) else none
  decode := fun _ value => ChunkBoundaries.Sample.ascii value }

def oneShotOf (blocks : List JsStr) :
    OneShot (runtime blocks) (Anthropic.request cfg messages {} false) blocks where
  res := oneShot blocks
  fetched := fun _ => rfl
  ok := rfl
  data := data blocks
  json := rfl
  content := rfl

def eventsOf (blocks : List JsStr)
    (framed : Framed 10 (ChunkBoundaries.Sample.ascii (bytes blocks)) (lines blocks) [])
    (filled : ∀ block ∈ blocks, block ≠ [])
    (deltas : (lines blocks).filterMap (lineDelta (runtime blocks)) = blocks.map JsValue.string) :
    EventStream (runtime blocks) ChunkBoundaries.Sample.ascii
      (Anthropic.request cfg messages {} true) blocks where
  res := streaming blocks
  fetched := fun _ => rfl
  ok := rfl
  chunks := [bytes blocks]
  body := rfl
  lines := lines blocks
  rest := []
  framed := by simpa using framed
  pieces := blocks.map ([·])
  filled := by simpa using filled
  joined := by simp [Function.comp_def]
  deltas := by
    rw [← List.flatMap_def, List.flatMap_singleton']
    exact deltas

def greeting : List JsStr := [js "Hello"]

def greetings : List JsStr := [js "Hello", js " world"]

def greetingEvents := eventsOf greeting
  ⟨by decide, by decide, List.not_mem_nil⟩ (by decide) rfl

def greetingsEvents := eventsOf greetings
  ⟨by decide +kernel, by decide, List.not_mem_nil⟩ (by decide) rfl

end Sample

/-- An answer in one block. -/
theorem one_block_agrees :
    (answer ((completeAnthropic (Sample.runtime Sample.greeting) Sample.cfg Sample.messages {}).run
        {}) = .ok (.string Sample.greeting.flatten) ∧
      answer ((streamAnthropic (Sample.runtime Sample.greeting) Sample.cfg Sample.messages
        (deliver (Sample.runtime Sample.greeting)) {}).run {}) = .ok Sample.greeting.flatten) ↔
      ∀ block ∈ Sample.greeting.tail, block = [] :=
  anthropic_answers_agree_iff
    (fun chunks => ChunkBoundaries.Sample.decoded_ascii rfl chunks []) (fun _ => rfl)
    Sample.cfg Sample.messages {} Sample.greeting (Sample.oneShotOf Sample.greeting)
    Sample.greetingEvents {} {}

/-- Of an answer in two blocks, the one-shot call returns the first. -/
theorem second_block_lost : ¬ ∀ (runtime : Runtime) (whole : List UInt8 → JsStr),
    (∀ chunks, decoded runtime [] chunks = whole chunks.flatten) →
    (∀ log, runtime.interrupted log = none) → ∀ (cfg : ProviderCallConfig)
      (messages : List ChatMessage) (options : RequestOptions) (blocks : List JsStr),
      OneShot runtime (Anthropic.request cfg messages options false) blocks →
      EventStream runtime whole (Anthropic.request cfg messages options true) blocks →
      ∀ m m', answer ((completeAnthropic runtime cfg messages options).run m) =
          .ok (.string blocks.flatten) ∧
        answer ((streamAnthropic runtime cfg messages (deliver runtime) options).run m') =
          .ok blocks.flatten := by
  intro h
  have hanswers := h (Sample.runtime Sample.greetings) ChunkBoundaries.Sample.ascii
    (fun chunks => ChunkBoundaries.Sample.decoded_ascii rfl chunks []) (fun _ => rfl)
    Sample.cfg Sample.messages {} Sample.greetings (Sample.oneShotOf Sample.greetings)
    Sample.greetingsEvents {} {}
  rw [answer_completeAnthropic (fun _ => rfl) (Sample.oneShotOf Sample.greetings)] at hanswers
  have htext : Sample.greetings.head?.getD [] = Sample.greetings.flatten :=
    JsValue.string.inj (Except.ok.inj hanswers.1)
  exact absurd htext (by decide)

end ModelDispatcher.AnthropicAnswers
