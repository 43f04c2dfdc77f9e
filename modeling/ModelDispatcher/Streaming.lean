import ModelDispatcher.BrowserAgent

/-!
A streamed answer comes from one candidate: what each candidate's call leaves in the log, and how
the fallback from one candidate to the next strings these calls together.
-/

namespace ModelDispatcher.Streaming

open Lib.Logged Lib.Js BrowserAgent

/-! ### Texts that grow -/

/-- From the first text to the last through the others, each a prefix of the next. -/
inductive Grows : JsStr → List JsStr → JsStr → Prop
  | nil (full : JsStr) : Grows full [] full
  | cons {full text last : JsStr} {texts : List JsStr} (h : full <+: text)
      (rest : Grows text texts last) : Grows full (text :: texts) last

lemma Grows.append {full mid last : JsStr} {ts us : List JsStr} (h : Grows full ts mid)
    (h' : Grows mid us last) : Grows full (ts ++ us) last := by
  induction h with
  | nil full => exact h'
  | cons hprefix _ ih => exact .cons hprefix (ih h')

lemma Grows.isChain_cons {full last : JsStr} {ts : List JsStr} (h : Grows full ts last) :
    (full :: ts).IsChain (· <+: ·) := by
  induction h with
  | nil full => exact .singleton full
  | cons hprefix _ ih => exact .cons_cons hprefix ih

lemma Grows.isChain {full last : JsStr} {ts : List JsStr} (h : Grows full ts last) :
    ts.IsChain (· <+: ·) := by
  cases h with
  | nil => exact .nil
  | cons hprefix rest => exact rest.isChain_cons

lemma Grows.last_eq {full last : JsStr} {ts : List JsStr} (h : Grows full ts last) :
    last = ts.getLast?.getD full := by
  induction h with
  | nil full => rfl
  | cons hprefix _ ih => rw [ih, List.getLast?_cons]; rfl

/-! ### The call of one candidate -/

/-- The values that were passed to `onChunk`. -/
def chunksOf (es : List Event) : List JsStr :=
  es.filterMap fun
    | ⟨_, .chunk text⟩ => some text
    | _ => none

@[simp] lemma chunksOf_append (es fs : List Event) :
    chunksOf (es ++ fs) = chunksOf es ++ chunksOf fs := List.filterMap_append

/-- From one text so far to another: the events are of the current candidate and as the predicate
says, the chunks grow, and the flag tells whether there were any. -/
structure Delivers (P : Act → Prop) (m : Machine) (full : JsStr) (es : List Event) (last : JsStr)
    (m' : Machine) : Prop where
  current : m'.current = m.current
  tagged : ∀ e ∈ es, e.candidate = m.current ∧ P e.act
  grows : Grows full (chunksOf es) last
  started : m'.startedStreaming = (m.startedStreaming || !(chunksOf es).isEmpty)

section

variable {P : Act → Prop} {m m' m'' : Machine} {full mid last : JsStr} {es fs : List Event}

lemma Delivers.refl : Delivers P m full [] full m := ⟨rfl, by simp, .nil full, by simp [chunksOf]⟩

lemma Delivers.trans (h : Delivers P m full es mid m') (h' : Delivers P m' mid fs last m'') :
    Delivers P m full (es ++ fs) last m'' where
  current := h'.current.trans h.current
  tagged := by
    intro e he
    rcases List.mem_append.mp he with he | he
    · exact h.tagged e he
    · exact h.current ▸ h'.tagged e he
  grows := by
    rw [chunksOf_append]
    exact h.grows.append h'.grows
  started := by
    rw [h'.started, h.started, chunksOf_append, Bool.or_assoc]
    cases chunksOf es <;> simp

end

/-- The program takes the text so far to the one it returns. -/
def Streams (P : Act → Prop) (full : JsStr) (x : Run JsStr) : Prop :=
  ∀ m, Emits Machine.log x m fun es r =>
    match r with
    | .ok last m' => Delivers P m full es last m'
    | .error _ m' => ∃ last, Delivers P m full es last m'

/-- The program delivers nothing. -/
def Quiet {α : Type} (P : Act → Prop) (x : Run α) : Prop :=
  ∀ m full, Emits Machine.log x m fun es r => Delivers P m full es full (finalState r)

section

variable {α β : Type} {P : Act → Prop} {full : JsStr}

lemma streams_pure : Streams P full (pure full) := fun _ => emits_pure .refl

lemma streams_throw (e : Thrown) : Streams P full (throw e) := fun _ => emits_throw ⟨full, .refl⟩

lemma streams_bind {x : Run JsStr} {f : JsStr → Run JsStr} (hx : Streams P full x)
    (hf : ∀ mid, Streams P mid (f mid)) : Streams P full (x >>= f) := by
  intro m
  refine emits_bind (hx m) ?_ fun _ _ _ h => h
  intro es mid m' hes
  refine (hf mid m').mono fun fs r hfs => ?_
  cases r with
  | ok last m'' => exact hes.trans hfs
  | error e m'' =>
    obtain ⟨last, hfs⟩ := hfs
    exact ⟨last, hes.trans hfs⟩

lemma quiet_then {x : Run α} {f : α → Run JsStr} (hx : Quiet P x)
    (hf : ∀ a, Streams P full (f a)) : Streams P full (x >>= f) := by
  intro m
  refine emits_bind (hx m full) ?_ fun _ _ _ h => ⟨full, h⟩
  intro es a m' hes
  refine (hf a m').mono fun fs r hfs => ?_
  cases r with
  | ok last m'' => exact Delivers.trans hes hfs
  | error e m'' =>
    obtain ⟨last, hfs⟩ := hfs
    exact ⟨last, Delivers.trans hes hfs⟩

lemma quiet_pure (a : α) : Quiet P (pure a) := fun _ _ => emits_pure .refl

lemma quiet_throw (e : Thrown) : Quiet P (throw e : Run α) := fun _ _ => emits_throw .refl

lemma quiet_bind {x : Run α} {f : α → Run β} (hx : Quiet P x) (hf : ∀ a, Quiet P (f a)) :
    Quiet P (x >>= f) := by
  intro m full
  refine emits_bind (hx m full) ?_ fun _ _ _ h => h
  exact fun es a m' hes => (hf a m' full).mono fun fs r hfs => Delivers.trans hes hfs

lemma quiet_get {f : Machine → Run α} (h : ∀ m, Quiet P (f m)) : Quiet P (get >>= f) :=
  fun m full => emits_get (h m m full)

lemma quiet_orThrow (x : Except Thrown α) : Quiet P (orThrow x) := by
  cases x with
  | ok a => exact quiet_pure a
  | error e => exact quiet_throw e

/-- An event that is no chunk. -/
lemma quiet_note {act : Act} (hP : P act) (hchunk : ∀ text, act ≠ .chunk text) :
    Quiet P (note act : Run Unit) := by
  intro m full
  have hchunks : chunksOf [⟨m.current, act⟩] = [] := by
    cases act with
    | chunk text => exact absurd rfl (hchunk text)
    | _ => rfl
  refine ⟨[⟨m.current, act⟩], rfl, rfl, by simpa using hP, ?_, ?_⟩
  · rw [hchunks]
    exact .nil full
  · rw [hchunks]
    exact (Bool.or_false _).symm

/-- A program under a `try` always returns, in the state it leaves. -/
lemma run_attempt {ε : Type} (x : Run α) (m : Machine) :
    ∃ result, (attempt x : EStateM ε Machine _).run m = .ok result (finalState (x.run m)) := by
  unfold EStateM.run attempt
  cases x m with
  | ok a m' => exact ⟨.ok a, rfl⟩
  | error e m' => exact ⟨.error e, rfl⟩

lemma quiet_attempt {x : Run α} (h : Quiet P x) : Quiet P (attempt x) := by
  intro m full
  obtain ⟨es, hlog, hes⟩ := h m full
  obtain ⟨result, hrun⟩ := run_attempt (ε := Thrown) x m
  exact ⟨es, by rw [hrun]; exact hlog, by rw [hrun]; exact hes⟩

end

/-- What a call under a `try` leaves is what the call leaves. -/
lemma attempt_emits {ε α : Type} {x : Run α} {m : Machine}
    {Q : List Event → EStateM.Result Thrown Machine α → Prop} (h : Emits Machine.log x m Q) :
    ∃ es r, (attempt x : EStateM ε Machine _) m = .ok (answer r) (finalState r) ∧
      (finalState r).log = m.log ++ es ∧ Q es r := by
  obtain ⟨es, hlog, hes⟩ := h
  refine ⟨es, x.run m, ?_, hlog, hes⟩
  unfold EStateM.run attempt
  cases x m with
  | ok a m' => rfl
  | error e m' => rfl

/-! ### A streaming call -/

section

variable {runtime : Runtime} {P : Act → Prop}

/-- The acts a call may leave: it fetches one request only, and it does not settle itself. -/
def Allowed (request : Except Thrown FetchRequest) : Act → Prop
  | .fetched request' _ => request = .ok request'
  | .settled _ | .completed _ => False
  | _ => True

/-- The predicate holds of the waits of a call that fetches the request, where there is one. -/
structure Waits (request : Except Thrown FetchRequest) (P : Act → Prop) : Prop where
  fetched : ∀ request' result, request = .ok request' → P (.fetched request' result)
  slept : P .slept
  read : ∀ result, P (.read result)
  json : ∀ result, P (.json result)

lemma waits_allowed (request : Except Thrown FetchRequest) : Waits request (Allowed request) :=
  ⟨fun _ _ h => h, trivial, fun _ => trivial, fun _ => trivial⟩

section

variable {rq : Except Thrown FetchRequest} (hP : Waits rq P)
include hP

lemma quiet_read (own : Except Thrown (Option (List UInt8))) : Quiet P (read runtime own) := by
  refine quiet_bind (quiet_get fun m => quiet_pure _) fun result => ?_
  exact quiet_bind (quiet_note (hP.read result) nofun) fun _ => quiet_orThrow result

lemma quiet_readJson (res : Response) : Quiet P (readJson runtime res) := by
  refine quiet_bind (quiet_get fun m => quiet_pure _) fun result => ?_
  exact quiet_bind (quiet_note (hP.json result) nofun) fun _ => quiet_orThrow result

lemma quiet_describeHttpError (res : Response) : Quiet P (describeHttpError runtime res) := by
  refine quiet_bind (quiet_attempt (quiet_readJson hP res)) fun body => ?_
  dsimp only
  split_ifs
  · exact quiet_pure _
  · exact quiet_orThrow _

end

lemma quiet_ollama (res : Response) : Quiet P (Ollama.describe res) := quiet_pure _

section

variable {request : FetchRequest} (hP : Waits (.ok request) P)
include hP

lemma quiet_fetch : Quiet P (fetch runtime request) :=
  quiet_get fun _ => quiet_bind (quiet_note (hP.fetched request _ rfl) nofun) fun _ =>
    quiet_orThrow _

lemma quiet_slept_fetch : Quiet P (note .slept >>= fun _ => fetch runtime request) :=
  quiet_bind (quiet_note hP.slept nofun) fun _ => quiet_fetch hP

lemma quiet_fetchWithRetry : Quiet P (fetchWithRetry runtime request) := by
  refine quiet_bind (quiet_attempt (quiet_fetch hP)) fun result => ?_
  cases result with
  | ok res =>
    show Quiet _ (if isRetryableStatus res.status then _ else _)
    split_ifs
    · exact quiet_slept_fetch hP
    · exact quiet_pure res
  | error e =>
    refine quiet_get fun m => ?_
    split_ifs
    · exact quiet_bind (quiet_throw e) fun _ => quiet_slept_fetch hP
    · exact quiet_slept_fetch hP

end

lemma quiet_exchange {rq : Except Thrown FetchRequest} (hP : Waits rq P)
    {describe : Response → Run JsStr} (h : ∀ res, Quiet P (describe res)) :
    Quiet P (exchange runtime rq describe) := by
  unfold exchange
  cases rq with
  | error e => exact (quiet_throw e : Quiet _ (throw e : Run Response))
  | ok request =>
    rw [orThrow, pure_bind]
    refine quiet_bind (quiet_fetchWithRetry hP) fun res => ?_
    split_ifs
    · exact quiet_pure res
    · exact quiet_bind (h res) fun message => quiet_throw _

/-- A parser of lines only adds to the text. -/
def Appends (next : JsStr → JsStr → Option JsStr) : Prop :=
  ∀ full line text, next full line = some text → full <+: text

/-- The machine after a chunk was passed on. -/
def chunked (m : Machine) (text : JsStr) : Machine :=
  { m with log := m.log ++ [⟨m.current, .chunk text⟩], startedStreaming := true }

/-- The callback delivers the chunk, whether it throws or not. -/
lemma run_deliver (text : JsStr) (m : Machine) :
    finalState ((deliver runtime text).run m) = chunked m text := by
  simp only [deliver, note, EStateM.run_bind, EStateM.run_get, EStateM.run_set,
    EStateM.run_modify]
  cases runtime.onChunk m.log text with
  | none => rfl
  | some e => rfl

lemma streams_onLine {next : JsStr → JsStr → Option JsStr} (hnext : Appends next)
    (hP : ∀ text, P (.chunk text)) (full line : JsStr) :
    Streams P full (onLine next (deliver runtime) full line) := by
  unfold onLine
  cases h : next full line with
  | none => exact streams_pure
  | some text =>
    intro m
    obtain ⟨result, hrun⟩ := run_attempt (deliver runtime text) m
    rw [run_deliver] at hrun
    refine emits_step hrun rfl (emits_pure ⟨rfl, by simpa using hP text, ?_, ?_⟩)
    · exact .cons (hnext full line text h) (.nil text)
    · exact (Bool.or_true _).symm

lemma streams_lines {next : JsStr → JsStr → Option JsStr} (hnext : Appends next)
    (hP : ∀ text, P (.chunk text)) (lines : List JsStr) (full : JsStr) :
    Streams P full (lines.foldlM (onLine next (deliver runtime)) full) := by
  induction lines generalizing full with
  | nil => exact streams_pure
  | cons line rest ih =>
    rw [List.foldlM_cons]
    exact streams_bind (streams_onLine hnext hP full line) ih

lemma streams_readChunks {next : JsStr → JsStr → Option JsStr} (hnext : Appends next)
    {rq : Except Thrown FetchRequest} (hP : Waits rq P) (hchunk : ∀ text, P (.chunk text))
    (ending : Option Thrown) (chunks : List (List UInt8)) :
    ∀ (earlier : List (List UInt8)) (buffer full : JsStr), Streams P full
      (readChunks runtime (onLine next (deliver runtime)) ending earlier chunks buffer full) := by
  induction chunks with
  | nil =>
    exact fun earlier buffer full => quiet_then (quiet_read hP _) fun _ => streams_pure
  | cons value rest ih =>
    exact fun earlier buffer full => quiet_then (quiet_read hP _) fun _ =>
      streams_bind (streams_lines hnext hchunk _ full) fun mid => ih _ _ mid

lemma streams_consumeLines {next : JsStr → JsStr → Option JsStr} (hnext : Appends next)
    {rq : Except Thrown FetchRequest} (hP : Waits rq P) (hchunk : ∀ text, P (.chunk text))
    (res : Response) (full : JsStr) :
    Streams P full (consumeLines runtime res (onLine next (deliver runtime)) full) := by
  unfold consumeLines
  cases res.body with
  | none => exact streams_throw _
  | some stream => exact streams_readChunks hnext hP hchunk stream.ending stream.chunks [] [] full

lemma streams_streamLines {request : Except Thrown FetchRequest}
    {describe : Response → Run JsStr} {next : JsStr → JsStr → Option JsStr}
    (hdescribe : ∀ res, Quiet (Allowed request) (describe res)) (hnext : Appends next) :
    Streams (Allowed request) []
      (streamLines runtime request describe next (deliver runtime)) :=
  quiet_then (quiet_exchange (waits_allowed request) hdescribe) fun res =>
    streams_consumeLines hnext (waits_allowed request) (fun _ => trivial) res []

end

/-! ### The four parsers -/

section

variable (runtime : Runtime)

lemma prefix_append {full text : JsStr} {value : JsValue}
    (h : append runtime full value = some text) : full <+: text := by
  unfold append at h
  cases htext : textOf runtime value with
  | ok s =>
    rw [htext] at h
    cases h
    exact List.prefix_append full s
  | error e => rw [htext] at h; cases h

lemma appends_gemini : Appends (Gemini.next runtime) := by
  intro full line text h
  simp only [Gemini.next, Option.bind_eq_bind, Option.bind_eq_some_iff] at h
  obtain ⟨raw, -, frame, -, h⟩ := h
  split_ifs at h
  exact prefix_append runtime h

lemma appends_anthropic : Appends (Anthropic.next runtime) := by
  intro full line text h
  simp only [Anthropic.next, Option.bind_eq_bind, Option.bind_eq_some_iff] at h
  obtain ⟨raw, -, event, -, h⟩ := h
  split_ifs at h
  exact prefix_append runtime h

lemma appends_openAICompatible : Appends (OpenAICompatible.next runtime) := by
  intro full line text h
  simp only [OpenAICompatible.next, Option.bind_eq_bind, Option.bind_eq_some_iff] at h
  obtain ⟨raw, -, h⟩ := h
  split_ifs at h
  obtain ⟨frame, -, h⟩ := Option.bind_eq_some_iff.mp h
  split_ifs at h
  exact prefix_append runtime h

lemma appends_ollama : Appends (Ollama.next runtime) := by
  intro full line text h
  simp only [Ollama.next, Option.bind_eq_bind] at h
  split_ifs at h
  obtain ⟨frame, -, h⟩ := Option.bind_eq_some_iff.mp h
  split_ifs at h
  exact prefix_append runtime h

variable (messages : List ChatMessage) (options : RequestOptions)

/-- The request a candidate's call fetches, where it can be built. -/
def requestOf (cfg : ProviderCallConfig) : Except Thrown FetchRequest :=
  match cfg.provider with
  | .gemini => Gemini.streamRequest runtime cfg messages options
  | .anthropic => .ok (Anthropic.request cfg messages options true)
  | .ollama => Ollama.request runtime cfg messages options true
  | .openai => .ok (OpenAICompatible.request cfg messages options openaiUrl true)
  | .groq => .ok (OpenAICompatible.request cfg messages options groqUrl true)

lemma streams_streamOne (cfg : ProviderCallConfig) :
    Streams (Allowed (requestOf runtime messages options cfg)) []
      (streamOne runtime cfg messages (deliver runtime) options) := by
  unfold streamOne requestOf
  have herror : ∀ request res, Quiet (Allowed request) (describeHttpError runtime res) :=
    fun request => quiet_describeHttpError (waits_allowed request)
  cases cfg.provider with
  | gemini => exact streams_streamLines (herror _) (appends_gemini runtime)
  | anthropic => exact streams_streamLines (herror _) (appends_anthropic runtime)
  | ollama => exact streams_streamLines quiet_ollama (appends_ollama runtime)
  | openai => exact streams_streamLines (herror _) (appends_openAICompatible runtime)
  | groq => exact streams_streamLines (herror _) (appends_openAICompatible runtime)

end

/-! ### From one candidate to the next -/

/-- The events of one candidate's call, with the text it ends on. -/
structure Call (request : Except Thrown FetchRequest) (i : ℕ) (es : List Event) (last : JsStr) :
    Prop where
  tagged : ∀ e ∈ es, e.candidate = i ∧ Allowed request e.act
  grows : Grows [] (chunksOf es) last

lemma Call.candidate_eq {request : Except Thrown FetchRequest} {i : ℕ} {es : List Event}
    {last : JsStr} (h : Call request i es last) : ∀ e ∈ es, e.candidate = i :=
  fun e he => (h.tagged e he).1

/-- How a run ends with a call, by how the call settled. -/
inductive Ends (es : List Event) (last : JsStr) :
    Except Thrown JsStr → Except AgentError JsStr → Prop
  | answered : Ends es last (.ok last) (.ok last)
  | broken (e : Thrown) (h : chunksOf es ≠ []) : Ends es last (.error e) (.error (.rethrown e))
  | unreadable (h : chunksOf es = []) : Ends es last (.error .nullish) (.error .typeError)

/-- The calls of a run from the `i`-th candidate on, after some failed attempts. -/
inductive Calls (requestOf : ProviderCallConfig → Except Thrown FetchRequest) :
    ℕ → List ProviderCallConfig → List FailedAttempt → List Event → Except AgentError JsStr → Prop
  | exhausted (i : ℕ) (attempts : List FailedAttempt) :
    Calls requestOf i [] attempts [] (.error (exhaustedError attempts))
  | last {i : ℕ} {c : ProviderCallConfig} {rest : List ProviderCallConfig}
      {attempts : List FailedAttempt} {es : List Event} {last : JsStr}
      {result : Except Thrown JsStr} {r : Except AgentError JsStr}
      (h : Call (requestOf c) i es last) (hend : Ends es last result r) :
    Calls requestOf i (c :: rest) attempts (es ++ [⟨i, .settled result⟩]) r
  | next {i : ℕ} {c : ProviderCallConfig} {rest : List ProviderCallConfig}
      {attempts : List FailedAttempt} {es fs : List Event} {last : JsStr}
      {message : Option JsStr} {r : Except AgentError JsStr}
      (h : Call (requestOf c) i es last) (hchunks : chunksOf es = [])
      (htail : Calls requestOf (i + 1) rest (attempts ++ [⟨c.provider, message⟩]) fs r) :
    Calls requestOf i (c :: rest) attempts
      (es ++ ([⟨i, .settled (.error (.value message))⟩] ++ fs)) r

section

variable (runtime : Runtime) (messages : List ChatMessage) (options : RequestOptions)

/-- One step of the fallback: what is known of the call of a candidate and of the run over the rest
gives what is known of the whole run. -/
lemma emits_fallback_cons {c : ProviderCallConfig} {rest : List ProviderCallConfig} {i : ℕ}
    {attempts : List FailedAttempt} {m : Machine} {Q : List Event → Except Thrown JsStr → Prop}
    {R : List Event → Except AgentError JsStr → Prop}
    (hcall : Emits Machine.log (streamOne runtime c messages (deliver runtime) options)
      { m with current := i, startedStreaming := false } fun es r => Q es (answer r))
    (hanswered : ∀ es text, Call (requestOf runtime messages options c) i es text →
      Q es (.ok text) → R (es ++ [⟨i, .settled (.ok text)⟩]) (.ok text))
    (hbroken : ∀ es last e, Call (requestOf runtime messages options c) i es last →
      Q es (.error e) → chunksOf es ≠ [] →
        R (es ++ [⟨i, .settled (.error e)⟩]) (.error (.rethrown e)))
    (hunreadable : ∀ es last, Call (requestOf runtime messages options c) i es last →
      Q es (.error .nullish) → chunksOf es = [] →
        R (es ++ [⟨i, .settled (.error .nullish)⟩]) (.error .typeError))
    (hnext : ∀ es last message, Call (requestOf runtime messages options c) i es last →
      Q es (.error (.value message)) → chunksOf es = [] → Emits Machine.log
        (fallback runtime messages options (i + 1) rest (attempts ++ [⟨c.provider, message⟩]))
        { log := m.log ++ es ++ [⟨i, .settled (.error (.value message))⟩], current := i }
        fun fs r => R (es ++ ([⟨i, .settled (.error (.value message))⟩] ++ fs)) (answer r)) :
    Emits Machine.log (fallback runtime messages options i (c :: rest) attempts) m
      fun es r => R es (answer r) := by
  refine emits_step rfl (List.append_nil _).symm ?_
  obtain ⟨es, r, hrun, hlog, hes, hQ⟩ := attempt_emits (ε := AgentError)
    ((streams_streamOne runtime messages options c _).and hcall)
  refine emits_step hrun hlog ?_
  refine emits_step rfl rfl ?_
  cases r with
  | ok text m' =>
    have hcurrent : m'.current = i := hes.current
    rw [finalState_ok, hcurrent]
    exact emits_pure (hanswered es text ⟨hes.tagged, hes.grows⟩ hQ)
  | error e m' =>
    obtain ⟨last, hes⟩ := hes
    obtain ⟨log, current, started⟩ := m'
    obtain rfl : current = i := hes.current
    obtain rfl : log = m.log ++ es := hlog
    obtain rfl : started = !(chunksOf es).isEmpty := hes.started
    have hcall : Call (requestOf runtime messages options c) current es last :=
      ⟨hes.tagged, hes.grows⟩
    refine emits_get ?_
    by_cases hchunks : chunksOf es = []
    · rw [if_neg (by simp [hchunks])]
      cases e with
      | nullish => exact emits_throw (hunreadable es last hcall hQ hchunks)
      | value message =>
        have hrest := hnext es last message hcall hQ hchunks
        simpa [hchunks] using hrest
    · rw [if_pos (by simp [hchunks])]
      exact emits_throw (hbroken es last e hcall hQ hchunks)

lemma calls_fallback (candidates : List ProviderCallConfig) :
    ∀ (i : ℕ) (attempts : List FailedAttempt) (m : Machine), Emits Machine.log
      (fallback runtime messages options i candidates attempts) m fun es r =>
        Calls (requestOf runtime messages options) i candidates attempts es (answer r) := by
  induction candidates with
  | nil => exact fun i attempts m => emits_throw (.exhausted i attempts)
  | cons c rest ih =>
    intro i attempts m
    have hcall := (streams_streamOne runtime messages options c
      { m with current := i, startedStreaming := false }).mono fun _ _ _ => trivial
    refine emits_fallback_cons runtime messages options (Q := fun _ _ => True) hcall ?_ ?_ ?_ ?_
    · exact fun es text hcall _ => .last hcall .answered
    · exact fun es last e hcall _ hchunks => .last hcall (.broken e hchunks)
    · exact fun es last hcall _ hchunks => .last hcall (.unreadable hchunks)
    · exact fun es last message hcall _ hchunks => (ih (i + 1) _ _).mono fun fs r hfs =>
        .next hcall hchunks hfs

end

/-! ### What the calls of a run have in common -/

section

variable {rq : ProviderCallConfig → Except Thrown FetchRequest} {i : ℕ}
variable {cs : List ProviderCallConfig} {attempts : List FailedAttempt} {es : List Event}
variable {r : Except AgentError JsStr}

lemma chunksOf_ne_nil {e : Event} {text : JsStr} (he : e ∈ es) (h : e.act = .chunk text) :
    chunksOf es ≠ [] := by
  obtain ⟨i, act⟩ := e
  cases h
  exact List.ne_nil_of_mem (List.mem_filterMap.mpr ⟨_, he, rfl⟩)

/-- Settling emits nothing. -/
lemma chunksOf_append_settled (result : Except Thrown JsStr) :
    chunksOf (es ++ [⟨i, .settled result⟩]) = chunksOf es := by
  rw [chunksOf_append]
  exact List.append_nil _

/-- The request of an event, if any, is the given one. -/
def Asked (request : Except Thrown FetchRequest) (e : Event) : Prop :=
  ∀ request' result, e.act = .fetched request' result → request = .ok request'

/-- The events of a call together with its settling. -/
lemma settled_block {request : Except Thrown FetchRequest} {act : Act}
    (h : ∀ e ∈ es, e.candidate = i ∧ Allowed request e.act)
    (hact : ∀ request result, act ≠ .fetched request result) :
    ∀ e ∈ es ++ [⟨i, act⟩], e.candidate = i ∧ Asked request e := by
  intro e he
  rcases List.mem_append.mp he with he | he
  · obtain ⟨hcandidate, hallowed⟩ := h e he
    refine ⟨hcandidate, fun request' result hfetched => ?_⟩
    rw [hfetched] at hallowed
    exact hallowed
  · cases List.mem_singleton.mp he
    exact ⟨rfl, fun request' result hfetched => absurd hfetched (hact request' result)⟩

lemma Call.block {request : Except Thrown FetchRequest} {last : JsStr}
    {result : Except Thrown JsStr} (h : Call request i es last) :
    ∀ e ∈ es ++ [⟨i, .settled result⟩], e.candidate = i ∧ Asked request e :=
  settled_block h.tagged nofun

lemma Calls.blocks (h : Calls rq i cs attempts es r) :
    Blocks Event.candidate (fun c => Asked (rq c)) i cs es := by
  induction h with
  | exhausted i attempts => exact .nil i []
  | last hcall hend => exact blocks_single hcall.block
  | next hcall hchunks htail ih =>
    rw [← List.append_assoc]
    exact .cons hcall.block ih

/-- The events are of the candidates from the `i`-th on. -/
lemma Calls.candidate_ge (h : Calls rq i cs attempts es r) : ∀ e ∈ es, i ≤ e.candidate :=
  h.blocks.le_tag

/-- Every request is the one of its candidate. -/
lemma Calls.fetched (h : Calls rq i cs attempts es r) : ∀ e ∈ es, ∀ request result,
    e.act = .fetched request result →
      ∃ c, cs[e.candidate - i]? = some c ∧ rq c = .ok request := by
  intro e he request result hact
  obtain ⟨c, hc, hasked⟩ := h.blocks.owned e he
  exact ⟨c, hc, hasked request result hact⟩

/-- Whoever emits first is the last candidate of the run. -/
lemma Calls.candidate_le_chunk (h : Calls rq i cs attempts es r) : ∀ e ∈ es, ∀ text,
    e.act = .chunk text → ∀ e' ∈ es, e'.candidate ≤ e.candidate := by
  induction h with
  | exhausted i attempts => simp
  | last hcall hend =>
    intro e he text htext e' he'
    rw [(hcall.block e he).1, (hcall.block e' he').1]
  | @next i c rest attempts es fs last message r hcall hchunks htail ih =>
    intro e he text htext e' he'
    rw [← List.append_assoc] at he he'
    rcases List.mem_append.mp he with he | he
    · refine absurd ?_ (chunksOf_ne_nil he htext)
      rw [chunksOf_append_settled, hchunks]
    · rcases List.mem_append.mp he' with he' | he'
      · rw [(hcall.block e' he').1]
        exact Nat.le_of_succ_le (htail.candidate_ge e he)
      · exact ih e he text htext e' he'

lemma Call.settled_eq {request : Except Thrown FetchRequest} {last : JsStr} {j : ℕ}
    {result result' : Except Thrown JsStr} (h : Call request i es last)
    (hmem : ⟨j, .settled result'⟩ ∈ es ++ [⟨i, .settled result⟩]) : result' = result := by
  rcases List.mem_append.mp hmem with hmem | hmem
  · exact (h.tagged _ hmem).2.elim
  · cases List.mem_singleton.mp hmem
    rfl

/-- A candidate is turned to only after those before it failed without emitting. -/
lemma Calls.along (h : Calls rq i cs attempts es r) : Along (fun pre e => ∀ j, i ≤ j →
    j < e.candidate → (∃ err, ⟨j, .settled (.error err)⟩ ∈ pre) ∧
      ∀ x ∈ pre, x.candidate = j → ∀ text, x.act ≠ .chunk text) es := by
  induction h with
  | exhausted i attempts => exact along_nil
  | @last i c rest attempts es last result r hcall hend =>
    rintro pre e post heq j hij hje
    have hmem : e ∈ es ++ [⟨i, .settled result⟩] := by rw [heq]; simp
    have := (hcall.block e hmem).1
    omega
  | @next i c rest attempts es fs last message r hcall hchunks htail ih =>
    have hsilent : chunksOf (es ++ [⟨i, .settled (.error (.value message))⟩]) = [] := by
      rw [chunksOf_append_settled, hchunks]
    rw [← List.append_assoc]
    refine along_append ?_ ?_
    · rintro pre e post heq j hij hje
      have hmem : e ∈ es ++ [⟨i, .settled (.error (.value message))⟩] := by rw [heq]; simp
      have := (hcall.block e hmem).1
      omega
    · rintro pre e post heq j hij hje
      have hpre : ∀ x ∈ pre, i + 1 ≤ x.candidate := by
        intro x hx
        exact htail.candidate_ge x (by rw [heq]; simp [hx])
      rcases Nat.eq_or_lt_of_le hij with rfl | hij
      · refine ⟨⟨.value message, by simp⟩, fun x hx hj text htext => ?_⟩
        rcases List.mem_append.mp hx with hx | hx
        · exact chunksOf_ne_nil hx htext hsilent
        · have := hpre x hx
          omega
      · obtain ⟨⟨err, herr⟩, hquiet⟩ := ih pre e post heq j hij hje
        refine ⟨⟨err, List.mem_append_right _ herr⟩, fun x hx hj text htext => ?_⟩
        rcases List.mem_append.mp hx with hx | hx
        · exact chunksOf_ne_nil hx htext hsilent
        · exact hquiet x hx hj text htext

lemma Calls.grows (h : Calls rq i cs attempts es r) : ∃ last, Grows [] (chunksOf es) last ∧
    ∀ text, r = .ok text → text = last := by
  induction h with
  | exhausted i attempts => exact ⟨[], .nil [], nofun⟩
  | last hcall hend =>
    rw [chunksOf_append_settled]
    refine ⟨_, hcall.grows, fun text htext => ?_⟩
    subst htext
    cases hend
    rfl
  | next hcall hchunks htail ih =>
    rw [← List.append_assoc, chunksOf_append, chunksOf_append_settled, hchunks]
    exact ih

/-- A failure after a chunk is what the run throws. -/
lemma Calls.rethrown (h : Calls rq i cs attempts es r) : ∀ e ∈ es, ∀ text, e.act = .chunk text →
    ∀ err, ⟨e.candidate, .settled (.error err)⟩ ∈ es → r = .error (.rethrown err) := by
  induction h with
  | exhausted i attempts => simp
  | @last i c rest attempts es last result r hcall hend =>
    intro e he text htext err herr
    obtain rfl := hcall.settled_eq herr
    have hchunks := chunksOf_ne_nil he htext
    rw [chunksOf_append_settled] at hchunks
    cases hend with
    | broken => rfl
    | unreadable hnil => exact absurd hnil hchunks
  | @next i c rest attempts es fs last message r hcall hchunks htail ih =>
    intro e he text htext err herr
    rw [← List.append_assoc] at he herr
    rcases List.mem_append.mp he with he | he
    · refine absurd ?_ (chunksOf_ne_nil he htext)
      rw [chunksOf_append_settled, hchunks]
    · rcases List.mem_append.mp herr with herr | herr
      · have hlater := htail.candidate_ge e he
        have hsame := (hcall.block ⟨e.candidate, _⟩ herr).1
        dsimp only at hsame
        omega
      · exact ih e he text htext err herr

/-- The attempts of the error that ends a run without an answer. -/
lemma Calls.attempts_eq (h : Calls rq i cs attempts es r) {list : List FailedAttempt}
    (hr : r = .error (.allProvidersExhausted list)) : ∃ new, list = attempts ++ new ∧
      new.length = cs.length ∧ ∀ k a, new[k]? = some a → ∃ c, cs[k]? = some c ∧
        a.provider = c.provider ∧ ⟨i + k, .settled (.error (.value a.error))⟩ ∈ es := by
  induction h with
  | exhausted i attempts =>
    unfold exhaustedError at hr
    split_ifs at hr
    · cases hr
      exact ⟨[], (List.append_nil _).symm, rfl, by simp⟩
    · cases hr
  | last hcall hend => subst hr; cases hend
  | @next i c rest attempts es fs last message r hcall hchunks htail ih =>
    obtain ⟨new, rfl, hlength, hnew⟩ := ih hr
    refine ⟨⟨c.provider, message⟩ :: new, by simp, by simp [hlength], fun k a ha => ?_⟩
    cases k with
    | zero =>
      cases ha
      exact ⟨c, rfl, rfl, by simp⟩
    | succ k =>
      obtain ⟨c', hc', hprovider, hmem⟩ := hnew k a ha
      refine ⟨c', hc', hprovider, ?_⟩
      rw [show i + (k + 1) = i + 1 + k by omega]
      simp [hmem]

/-- Every failure has a message that can be read and printed. -/
def Readable (es : List Event) : Prop :=
  ∀ e ∈ es, ∀ err, e.act = .settled (.error err) → ∃ message, err = .value (some message)

lemma Calls.exhausted_iff (h : Calls rq i cs attempts es r) (hreadable : Readable es)
    (hattempts : attempts.all (·.error.isSome)) :
    (∃ list, r = .error (.allProvidersExhausted list)) ↔ chunksOf es = [] ∧
      ∀ j, i ≤ j → j < i + cs.length → ∃ err, ⟨j, .settled (.error err)⟩ ∈ es := by
  induction h with
  | exhausted i attempts =>
    refine iff_of_true ⟨attempts, by rw [exhaustedError, if_pos hattempts]⟩ ⟨rfl, ?_⟩
    intro j hij hj
    simp at hj
    omega
  | @last i c rest attempts es last result r hcall hend =>
    refine iff_of_false ?_ ?_
    · rintro ⟨list, rfl⟩
      cases hend
    · rintro ⟨hsilent, hall⟩
      obtain ⟨err, herr⟩ := hall i le_rfl (by simp)
      obtain rfl := hcall.settled_eq herr
      cases hend with
      | broken _ hchunks =>
        rw [chunksOf_append_settled] at hsilent
        exact hchunks hsilent
      | unreadable =>
        obtain ⟨message, hmessage⟩ := hreadable _ herr .nullish rfl
        cases hmessage
  | @next i c rest attempts es fs last message r hcall hchunks htail ih =>
    obtain ⟨text, htext⟩ := hreadable ⟨i, .settled (.error (.value message))⟩ (by simp) _ rfl
    cases htext
    have htail' := ih (fun e he => hreadable e (by simp [he])) (by simpa using hattempts)
    rw [htail', ← List.append_assoc, chunksOf_append, chunksOf_append_settled, hchunks,
      List.nil_append]
    refine and_congr_right fun _ => ⟨fun hall j hij hj => ?_, fun hall j hij hj => ?_⟩
    · rcases Nat.eq_or_lt_of_le hij with rfl | hij
      · exact ⟨.value (some text), by simp⟩
      · obtain ⟨err, herr⟩ := hall j hij (by simp at hj; omega)
        exact ⟨err, by simp [herr]⟩
    · obtain ⟨err, herr⟩ := hall j (by omega) (by simp; omega)
      rcases List.mem_append.mp herr with herr | herr
      · have hsame := (hcall.block ⟨j, _⟩ herr).1
        dsimp only at hsame
        omega
      · exact ⟨err, herr⟩

end

/-! ### Streaming never mixes candidates -/

/-- What `streamComplete` guarantees of the events of a run over some candidates and of its
result. -/
structure Streamed (requestOf : ProviderCallConfig → Except Thrown FetchRequest)
    (candidates : List ProviderCallConfig) (es : List Event) (r : Except AgentError JsStr) :
    Prop where
  oneSource : ∀ e ∈ es, ∀ e' ∈ es, ∀ text text', e.act = .chunk text → e'.act = .chunk text' →
    e.candidate = e'.candidate
  growing : (chunksOf es).IsChain (· <+: ·)
  noneAfter : ∀ e ∈ es, ∀ text, e.act = .chunk text → ∀ e' ∈ es, e'.candidate ≤ e.candidate
  fetched : ∀ e ∈ es, ∀ request result, e.act = .fetched request result →
    ∃ c, candidates[e.candidate]? = some c ∧ requestOf c = .ok request
  inOrder : Along (fun pre e => ∀ j < e.candidate, (∃ err, ⟨j, .settled (.error err)⟩ ∈ pre) ∧
    ∀ x ∈ pre, x.candidate = j → ∀ text, x.act ≠ .chunk text) es
  success : ∀ text, r = .ok text → text = (chunksOf es).getLast?.getD []
  rethrown : ∀ e ∈ es, ∀ text, e.act = .chunk text →
    ∀ err, ⟨e.candidate, .settled (.error err)⟩ ∈ es → r = .error (.rethrown err)
  exhausted : Readable es → ((∃ attempts, r = .error (.allProvidersExhausted attempts)) ↔
    candidates ≠ [] ∧ chunksOf es = [] ∧
      ∀ j < candidates.length, ∃ err, ⟨j, .settled (.error err)⟩ ∈ es)
  unconfigured : candidates = [] → es = [] ∧ r = .error .noProviderConfigured
  attempts : ∀ attempts, r = .error (.allProvidersExhausted attempts) →
    attempts.length = candidates.length ∧ ∀ k a, attempts[k]? = some a →
      ∃ c, candidates[k]? = some c ∧ a.provider = c.provider ∧
        ⟨k, .settled (.error (.value a.error))⟩ ∈ es

lemma Calls.streamed {rq : ProviderCallConfig → Except Thrown FetchRequest}
    {cs : List ProviderCallConfig} {es : List Event} {r : Except AgentError JsStr}
    (h : Calls rq 0 cs [] es r) (hcs : cs ≠ []) : Streamed rq cs es r where
  oneSource := by
    intro e he e' he' text text' htext htext'
    exact le_antisymm (h.candidate_le_chunk e' he' text' htext' e he)
      (h.candidate_le_chunk e he text htext e' he')
  growing := by
    obtain ⟨last, hgrows, -⟩ := h.grows
    exact hgrows.isChain
  noneAfter := h.candidate_le_chunk
  fetched := h.fetched
  inOrder := by
    intro pre e post heq j hj
    exact h.along pre e post heq j (Nat.zero_le j) hj
  success := by
    intro text htext
    obtain ⟨last, hgrows, hlast⟩ := h.grows
    rw [hlast text htext]
    exact hgrows.last_eq
  rethrown := h.rethrown
  exhausted := by
    intro hreadable
    rw [h.exhausted_iff hreadable rfl, and_iff_right hcs]
    simp
  unconfigured := fun hnil => absurd hnil hcs
  attempts := by
    intro attempts hr
    obtain ⟨new, rfl, hlength, hnew⟩ := h.attempts_eq hr
    refine ⟨hlength, fun k a ha => ?_⟩
    obtain ⟨c, hc, hprovider, hmem⟩ := hnew k a ha
    exact ⟨c, hc, hprovider, by simpa using hmem⟩

/-- **One candidate streams.** Whatever the configuration and whatever the candidates do. -/
theorem streamComplete_streamed (runtime : Runtime) (cfg : AgentConfig) (prompt : Prompt)
    (options : RequestOptions) (m : Machine) :
    Emits Machine.log (streamComplete runtime cfg prompt options) m fun es r =>
      Streamed (requestOf runtime (messagesOf prompt) options) (candidatesOf cfg) es
        (answer r) := by
  unfold streamComplete
  extract_lets candidates
  split_ifs with hnil
  · rw [show candidatesOf cfg = [] from hnil]
    refine emits_throw ⟨?_, .nil, ?_, ?_, along_nil, ?_, ?_, ?_, ?_, ?_⟩ <;> simp [chunksOf]
  · exact (calls_fallback runtime (messagesOf prompt) options _ 0 [] m).mono fun es r h =>
      h.streamed hnil

namespace Sample

/-- A browser that is offline. -/
def runtime : Runtime where
  fetch := fun _ _ => .error (.error (js "Failed to fetch"))
  aborted := fun _ => false
  interrupted := fun _ => none
  encodeURIComponent := fun s => .ok s
  parseUrl := fun _ => .error (js "Invalid URL")
  parse := fun _ => none
  nullMessage := fun _ => []
  toText := fun _ => .ok []
  decode := fun _ _ => []
  onChunk := fun _ _ => none

end Sample

/-- Without a candidate, the run throws another error than that every candidate failed. -/
theorem no_candidate_not_exhausted : ¬ ∀ (runtime : Runtime) (cfg : AgentConfig) (prompt : Prompt)
    (options : RequestOptions), Emits Machine.log (streamComplete runtime cfg prompt options) {}
      fun es r => (∃ attempts, answer r = .error (.allProvidersExhausted attempts)) ↔
        chunksOf es = [] ∧
          ∀ j < (candidatesOf cfg).length, ∃ err, ⟨j, .settled (.error err)⟩ ∈ es := by
  intro h
  obtain ⟨es, hlog, hiff⟩ := h Sample.runtime ⟨[], []⟩ (.text (js "hi")) {}
  obtain rfl : [] = es := hlog
  obtain ⟨attempts, hattempts⟩ := hiff.mpr ⟨rfl, nofun⟩
  cases hattempts

end ModelDispatcher.Streaming
