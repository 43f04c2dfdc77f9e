import ModelDispatcher.Lib.Framing
import ModelDispatcher.Lib.Lockstep
import ModelDispatcher.Streaming

/-!
A streamed body is read in chunks, but what is made of it depends on its bytes only: the lines that
are handed on are those of the decoded text that a newline ends.

What the decoder gives for all bytes together is a parameter.
-/

namespace ModelDispatcher.ChunkBoundaries

open Lib.Logged Lib.Lockstep Lib.Framing Lib.Js BrowserAgent Streaming

/-! ### Machines that differ in what was read -/

def isRead (e : Event) : Bool :=
  match e.act with
  | .read _ => true
  | _ => false

def unread (m : Machine) : Machine := { m with log := m.log.filter (!isRead ·) }

/-- The machines are the same but for what was read from the body. -/
def Alike (m m' : Machine) : Prop := unread m = unread m'

def noted (m : Machine) (act : Act) : Machine := { m with log := m.log ++ [⟨m.current, act⟩] }

section

variable {m m' : Machine}

lemma alike_read (h : Alike m m') (result : Except Thrown (Option (List UInt8))) :
    Alike (noted m (.read result)) m' := by
  have hunread : unread (noted m (.read result)) = unread m := by simp [unread, noted, isRead]
  exact hunread.trans h

lemma unread_chunked (m : Machine) (text : JsStr) :
    unread (chunked m text) = chunked (unread m) text := by
  simp [unread, chunked, isRead]

lemma alike_chunked (h : Alike m m') (text : JsStr) : Alike (chunked m text) (chunked m' text) := by
  unfold Alike at h ⊢
  rw [unread_chunked, unread_chunked, h]

lemma chunksOf_unread (m : Machine) : chunksOf (unread m).log = chunksOf m.log := by
  show chunksOf (m.log.filter (!isRead ·)) = chunksOf m.log
  unfold chunksOf
  rw [List.filterMap_filter]
  refine List.filterMap_congr fun e _ => ?_
  obtain ⟨i, act⟩ := e
  cases act <;> rfl

lemma Alike.chunksOf_eq (h : Alike m m') : chunksOf m.log = chunksOf m'.log := by
  rw [← chunksOf_unread m, ← chunksOf_unread m', h]

end

/-! ### The decoder -/

/-- All that the decoder gives for some chunks after the earlier ones. -/
def decoded (runtime : Runtime) : List (List UInt8) → List (List UInt8) → JsStr
  | _, [] => []
  | earlier, value :: rest =>
    runtime.decode earlier value ++ decoded runtime (earlier ++ [value]) rest

/-! ### Reading a body -/

/-- What comes after the last line. -/
def finish (ending : Option Thrown) (full : JsStr) : Run JsStr :=
  match ending with
  | none => pure full
  | some e => throw e

section

variable {runtime : Runtime} (hquiet : ∀ log, runtime.interrupted log = none)
include hquiet

/-- A wait ends with what there is. -/
lemma arrival_eq {α : Type} (own : Except Thrown α) :
    arrival runtime own = (get >>= fun _ => pure own) := by
  unfold arrival
  simp only [hquiet]

lemma run_read (own : Except Thrown (Option (List UInt8))) (m : Machine) :
    (BrowserAgent.read runtime own).run m = (orThrow own).run (noted m (.read own)) := by
  rw [BrowserAgent.read, arrival_eq hquiet]
  rfl

lemma inStep_read {f : Option (List UInt8) → Run JsStr} {y : Run JsStr} {m m' : Machine}
    {value : Option (List UInt8)}
    (h : InStep Alike (f value) y (noted m (.read (.ok value))) m') :
    InStep Alike (BrowserAgent.read runtime (.ok value) >>= f) y m m' := by
  unfold InStep
  rw [EStateM.run_bind, run_read hquiet]
  exact h

/-- The end of the body. -/
lemma inStep_ending (ending : Option Thrown) (full : JsStr) {m m' : Machine} (h : Alike m m') :
    InStep Alike (do
      let _ ← BrowserAgent.read runtime (match ending with
        | none => .ok none
        | some e => .error e)
      return full) (finish ending full) m m' := by
  cases ending with
  | none => exact inStep_read hquiet (inStep_pure full (alike_read h _))
  | some e =>
    unfold InStep
    rw [EStateM.run_bind, run_read hquiet]
    exact .raised e (alike_read h _)

/-- The loop, with a buffer that holds no newline, runs as the callback does over the lines of the
buffer and all that is still to be decoded. -/
lemma inStep_readChunks {onLine : JsStr → JsStr → Run JsStr}
    (honLine : ∀ full line, Steady Alike (onLine full line)) (ending : Option Thrown)
    (chunks : List (List UInt8)) :
    ∀ (earlier : List (List UInt8)) (buffer full : JsStr) (m m' : Machine), 10 ∉ buffer →
      Alike m m' → InStep Alike (readChunks runtime onLine ending earlier chunks buffer full)
        ((cut 10 (buffer ++ decoded runtime earlier chunks)).1.foldlM onLine full >>=
          finish ending) m m' := by
  induction chunks with
  | nil =>
    intro earlier buffer full m m' hbuffer h
    rw [decoded, List.append_nil, cut_of_not_mem hbuffer]
    exact inStep_ending hquiet ending full h
  | cons value rest ih =>
    intro earlier buffer full m m' hbuffer h
    rw [decoded, ← List.append_assoc, cut_append, List.foldlM_append, bind_assoc]
    refine inStep_read hquiet ?_
    have hlines : ∀ (lines : List JsStr) (full : JsStr),
        Steady Alike (lines.foldlM onLine full) := by
      intro lines
      induction lines with
      | nil => exact fun full => steady_pure full
      | cons line lines ihlines =>
        intro full
        rw [List.foldlM_cons]
        exact steady_bind (honLine full line) ihlines
    refine inStep_bind (hlines _ full _ _ (alike_read h _)) fun mid s t hst => ?_
    exact ih _ _ mid s t (framed_cut 10 _).unfinished hst

lemma inStep_consumeLines {onLine : JsStr → JsStr → Run JsStr}
    (honLine : ∀ full line, Steady Alike (onLine full line)) {res : Response} {stream : Stream}
    (hres : res.body = some stream) (full : JsStr) (m : Machine) :
    InStep Alike (consumeLines runtime res onLine full)
      ((cut 10 (decoded runtime [] stream.chunks)).1.foldlM onLine full >>=
        finish stream.ending) m m := by
  rw [consumeLines, hres]
  exact inStep_readChunks hquiet honLine stream.ending stream.chunks [] [] full m m (by simp) rfl

end

/-! ### The parsers of the providers -/

/-- A parser of lines does not look at what was read. -/
lemma steady_onLine (runtime : Runtime) (next : JsStr → JsStr → Option JsStr) (full line : JsStr) :
    Steady Alike (onLine next (deliver runtime) full line) := by
  unfold onLine
  cases next full line with
  | none => exact steady_pure full
  | some text =>
    intro m m' h
    obtain ⟨result, hrun⟩ := run_attempt (ε := Thrown) (deliver runtime text) m
    obtain ⟨result', hrun'⟩ := run_attempt (ε := Thrown) (deliver runtime text) m'
    rw [run_deliver] at hrun hrun'
    unfold InStep
    rw [EStateM.run_bind, EStateM.run_bind, hrun, hrun']
    exact .returned text (alike_chunked h text)

def nextOf (runtime : Runtime) : ProviderId → JsStr → JsStr → Option JsStr
  | .gemini => Gemini.next runtime
  | .anthropic => Anthropic.next runtime
  | .openai | .groq => OpenAICompatible.next runtime
  | .ollama => Ollama.next runtime

/-- For two ways of cutting the same bytes, the lines handed on are those of the decoded text, and
every provider's parser passes on the same texts and returns the same. -/
theorem chunks_do_not_matter {runtime : Runtime} {whole : List UInt8 → JsStr}
    (hdecode : ∀ chunks, decoded runtime [] chunks = whole chunks.flatten)
    (hquiet : ∀ log, runtime.interrupted log = none) {res res' : Response}
    {stream stream' : Stream} (hres : res.body = some stream) (hres' : res'.body = some stream')
    (hbytes : stream.chunks.flatten = stream'.chunks.flatten)
    (hending : stream.ending = stream'.ending) :
    ∃ lines rest, Framed 10 (whole stream.chunks.flatten) lines rest ∧
      (∀ onLine : JsStr → JsStr → Run JsStr, (∀ full line, Steady Alike (onLine full line)) →
        ∀ full m,
          InStep Alike (consumeLines runtime res onLine full)
            (lines.foldlM onLine full >>= finish stream.ending) m m ∧
          InStep Alike (consumeLines runtime res' onLine full)
            (lines.foldlM onLine full >>= finish stream.ending) m m) ∧
      ∀ provider m,
        let parser := onLine (nextOf runtime provider) (deliver runtime)
        let r := (consumeLines runtime res parser []).run m
        let r' := (consumeLines runtime res' parser []).run m
        answer r = answer r' ∧ chunksOf (finalState r).log = chunksOf (finalState r').log := by
  have hrun := fun onLine honLine full m =>
    @inStep_consumeLines runtime hquiet onLine honLine res stream hres full m
  have hrun' := fun onLine honLine full m =>
    @inStep_consumeLines runtime hquiet onLine honLine res' stream' hres' full m
  simp only [hdecode, ← hbytes, ← hending] at hrun hrun'
  refine ⟨_, _, framed_cut 10 _, fun onLine honLine full m => ?_, fun provider m => ?_⟩
  · exact ⟨hrun onLine honLine full m, hrun' onLine honLine full m⟩
  · have hparser := steady_onLine runtime (nextOf runtime provider)
    have h := hrun _ hparser [] m
    have h' := hrun' _ hparser [] m
    exact ⟨h.answer_eq.trans h'.answer_eq.symm,
      h.finalState.chunksOf_eq.trans h'.finalState.chunksOf_eq.symm⟩

namespace Sample

def ascii (bytes : List UInt8) : JsStr := bytes.map (·.toUInt16)

def frame : JsStr := js "\x7b\"message\":\x7b\"content\":\"hi\"\x7d\x7d"

def runtime : Runtime := { Streaming.Sample.runtime with
  parse := fun s =>
    if s = frame then
      some (.object [(js "message", .object [(js "content", .string (js "hi"))])])
    else none
  decode := fun _ value => ascii value }

lemma decoded_ascii {runtime : BrowserAgent.Runtime}
    (h : runtime.decode = fun _ value => ascii value) (chunks : List (List UInt8)) :
    ∀ earlier, decoded runtime earlier chunks = ascii chunks.flatten := by
  induction chunks with
  | nil => exact fun _ => rfl
  | cons value rest ih =>
    intro earlier
    simp [decoded, ih, h, ascii]

def bytes : List UInt8 := (frame ++ js "\n").map (·.toUInt8)

/-- A response whose body comes in the chunks. -/
def streaming (chunks : List (List UInt8)) : Response where
  status := 200
  body := some ⟨chunks, none⟩
  json := .ok .undefined

def whole : Response := streaming [bytes]

def parted : Response := streaming [bytes.take 7, [], bytes.drop 7]

end Sample

/-- A frame that comes whole, and one cut in the middle of a name, with an empty chunk. -/
theorem frame_cut_in_two :
    let parser := onLine (nextOf Sample.runtime .ollama) (deliver Sample.runtime)
    let r := (consumeLines Sample.runtime Sample.whole parser []).run {}
    let r' := (consumeLines Sample.runtime Sample.parted parser []).run {}
    answer r = answer r' ∧ chunksOf (finalState r).log = chunksOf (finalState r').log := by
  have hwhole : Sample.whole.body = some ⟨[Sample.bytes], none⟩ := rfl
  have hparted : Sample.parted.body =
      some ⟨[Sample.bytes.take 7, [], Sample.bytes.drop 7], none⟩ := rfl
  have hdecode : Sample.runtime.decode = fun _ value => Sample.ascii value := rfl
  obtain ⟨lines, rest, -, -, hparsers⟩ := chunks_do_not_matter
    (fun chunks => Sample.decoded_ascii hdecode chunks []) (fun _ => rfl) hwhole hparted (by simp)
    rfl
  exact hparsers .ollama {}

end ModelDispatcher.ChunkBoundaries
