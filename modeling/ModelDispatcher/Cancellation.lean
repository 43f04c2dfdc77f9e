import ModelDispatcher.Completion

/-!
What an aborted signal stops: the call in flight is broken off, but the loops over the candidates
take the abort for one more failure, unless text has been passed on.
-/

namespace ModelDispatcher.Cancellation

open Lib.Logged Lib.Js BrowserAgent Streaming Completion

/-! ### Signals -/

/-- What browsers document of an aborted signal: it stays aborted, and breaks off a `fetch` and the
wait for more of a body that is not at its end. -/
structure Honours (runtime : Runtime) (abort : Thrown) : Prop where
  stays : ∀ log es, runtime.aborted log → runtime.aborted (log ++ es)
  fetch : ∀ log i request,
    runtime.aborted (log ++ [⟨i, .fetched request (runtime.fetch log request)⟩]) →
      runtime.fetch log request = .error abort
  body : ∀ log i result, runtime.aborted (log ++ [⟨i, .read result⟩]) → result ≠ .ok none →
    runtime.interrupted log = some abort

/-- The acts after which a request is in flight, is put off, or may go to another candidate. -/
def Pending : Act → Prop
  | .fetched _ _ | .slept | .settled _ | .completed _ => True
  | .read result => result ≠ .ok none
  | .json result => ∃ e, result = .error e
  | .chunk _ => False

/-- The signal is aborted by the time of an event with which the run is not over. -/
structure Cancelled (runtime : Runtime) (log es pre : List Event) (e : Event)
    (post : List Event) : Prop where
  split : es = pre ++ e :: post
  goesOn : post ≠ []
  pending : Pending e.act
  aborted : runtime.aborted (log ++ pre ++ [e])

/-- After the event, no further candidate's request starts, and the run rejects with the abort. -/
def Stopped {α : Type} (abort : Thrown) (e : Event) (post : List Event)
    (r : Except AgentError α) : Prop :=
  (∀ x ∈ post, ∀ request result, x.act = .fetched request result → x.candidate ≤ e.candidate) ∧
    r = .error (.rethrown abort)

/-- The candidate of the event has passed on text before. -/
def Begun (pre : List Event) (e : Event) : Prop :=
  ∃ x ∈ pre, x.candidate = e.candidate ∧ ∃ text, x.act = .chunk text

lemma mem_chunksOf {es : List Event} :
    chunksOf es ≠ [] ↔ ∃ x ∈ es, ∃ text, x.act = .chunk text := by
  refine ⟨fun h => ?_, ?_⟩
  · obtain ⟨text, htext⟩ := List.exists_mem_of_ne_nil _ h
    obtain ⟨⟨i, act⟩, hx, hact⟩ := List.mem_filterMap.mp htext
    cases act with
    | chunk text' => exact ⟨_, hx, text', rfl⟩
    | _ => cases hact
  · rintro ⟨x, hx, text, htext⟩
    exact chunksOf_ne_nil hx htext

lemma Pending.chunksOf_cons {e : Event} (h : Pending e.act) (es : List Event) :
    chunksOf (e :: es) = chunksOf es := by
  obtain ⟨i, act⟩ := e
  cases act with
  | chunk text => exact h.elim
  | _ => rfl

/-! ### The call of one candidate -/

/-- A wait the abort reaches is the last to leave anything, and the result is the abort. -/
def BrokenOff {α : Type} (runtime : Runtime) (abort : Thrown) (log es : List Event)
    (r : Except Thrown α) : Prop :=
  ∀ pre e post, es = pre ++ e :: post → Pending e.act → runtime.aborted (log ++ pre ++ [e]) →
    chunksOf post = [] ∧ r = .error abort

def Breaks {α : Type} (runtime : Runtime) (abort : Thrown) (x : Run α) : Prop :=
  ∀ m, Emits Machine.log x m fun es r => BrokenOff runtime abort m.log es (answer r)

section

variable {runtime : Runtime} {abort : Thrown} {α β : Type} {log es : List Event} {e : Event}
variable {r : Except Thrown α}

lemma brokenOff_nil : BrokenOff runtime abort log [] r := by
  intro pre e post h
  simp at h

lemma BrokenOff.cons (h : BrokenOff runtime abort (log ++ [e]) es r)
    (he : Pending e.act → runtime.aborted (log ++ [e]) → chunksOf es = [] ∧ r = .error abort) :
    BrokenOff runtime abort log (e :: es) r := by
  rintro pre e' post heq hpending haborted
  cases pre with
  | nil =>
    cases heq
    exact he hpending (by simpa using haborted)
  | cons d pre =>
    cases heq
    exact h pre e' post rfl hpending (by simpa using haborted)

lemma breaks_pure (a : α) : Breaks runtime abort (pure a) := fun _ => emits_pure brokenOff_nil

lemma breaks_throw (e : Thrown) : Breaks runtime abort (throw e : Run α) :=
  fun _ => emits_throw brokenOff_nil

lemma breaks_bind {x : Run α} {f : α → Run β} (hx : Breaks runtime abort x)
    (hf : ∀ a, Breaks runtime abort (f a)) : Breaks runtime abort (x >>= f) := by
  intro m
  refine emits_bind (hx m).located ?_ ?_
  · rintro es a t ⟨hes, hlog⟩
    rw [finalState_ok] at hlog
    refine (hf a t).mono fun fs r hfs pre e post heq hpending haborted => ?_
    rcases split_append heq with ⟨mid, hmid, -⟩ | ⟨mid, hmid, rfl⟩
    · have hr := (hes pre e mid hmid hpending haborted).2
      cases hr
    · refine hfs mid e post hmid hpending ?_
      rwa [hlog, List.append_assoc m.log]
  · rintro es e t ⟨hes, -⟩ pre e' post heq hpending haborted
    obtain ⟨hpost, hr⟩ := hes pre e' post heq hpending haborted
    cases hr
    exact ⟨hpost, rfl⟩

lemma emits_orThrow {x : Except Thrown α} {m : Machine}
    {Q : List Event → Except Thrown α → Prop} (h : Q [] x) :
    Emits Machine.log (orThrow x) m fun es r => Q es (answer r) := by
  cases x with
  | ok a => exact emits_pure h
  | error e => exact emits_throw h

/-- A `fetch` leaves its result. -/
lemma emits_fetch (request : FetchRequest) (m : Machine) :
    Emits Machine.log (fetch runtime request) m fun es r =>
      es = [⟨m.current, .fetched request (runtime.fetch m.log request)⟩] ∧
        answer r = runtime.fetch m.log request :=
  emits_get (emits_step rfl rfl (emits_orThrow (Q := fun es r =>
    [_] ++ es = [⟨m.current, .fetched request (runtime.fetch m.log request)⟩] ∧
      r = runtime.fetch m.log request) ⟨rfl, rfl⟩))

lemma run_attempt_fetch (request : FetchRequest) (m : Machine) :
    (attempt (fetch runtime request) : Run _).run m = .ok (runtime.fetch m.log request)
      { m with log := m.log ++ [⟨m.current, .fetched request (runtime.fetch m.log request)⟩] } := by
  have hfetch : attempt (fetch runtime request) m = attempt (ε := Thrown)
      (orThrow (runtime.fetch m.log request))
      { m with log := m.log ++ [⟨m.current, .fetched request (runtime.fetch m.log request)⟩] } :=
    rfl
  rw [EStateM.run, hfetch]
  generalize runtime.fetch m.log request = result
  cases result with
  | ok res => rfl
  | error e => rfl

/-- A request has been made. -/
def Requested (es : List Event) : Prop :=
  ∃ x ∈ es, ∃ request result, x.act = .fetched request result

variable (h : Honours runtime abort)
include h

lemma breaks_read (own : Except Thrown (Option (List UInt8))) :
    Breaks runtime abort (read runtime own) := by
  intro m
  refine emits_step rfl (List.append_nil _).symm ?_
  refine emits_step rfl rfl (emits_orThrow (brokenOff_nil.cons fun hpending haborted => ⟨rfl, ?_⟩))
  rw [h.body m.log m.current _ haborted hpending]

/-- An abort during the delay reaches the second `fetch`. -/
lemma breaks_slept_fetch (request : FetchRequest) :
    Breaks runtime abort (note .slept >>= fun _ => fetch runtime request) := by
  intro m
  refine emits_step rfl rfl ((emits_fetch request _).mono ?_)
  rintro fs r ⟨rfl, hr⟩
  have hfetch : runtime.aborted (m.log ++ [⟨m.current, .slept⟩] ++ [⟨m.current, .fetched request
      (runtime.fetch (m.log ++ [⟨m.current, .slept⟩]) request)⟩]) → answer r = .error abort :=
    fun haborted => hr.trans (h.fetch _ _ _ haborted)
  refine BrokenOff.cons (brokenOff_nil.cons fun _ haborted => ⟨rfl, hfetch haborted⟩) ?_
  exact fun _ haborted => ⟨rfl, hfetch (h.stays _ _ haborted)⟩

lemma breaks_fetchWithRetry (request : FetchRequest) (m : Machine) :
    Emits Machine.log (fetchWithRetry runtime request) m fun es r =>
      BrokenOff runtime abort m.log es (answer r) ∧ Requested es := by
  refine emits_step (run_attempt_fetch request m) rfl ?_
  have hrequested : ∀ fs, Requested
      ([⟨m.current, .fetched request (runtime.fetch m.log request)⟩] ++ fs) :=
    fun fs => ⟨_, List.mem_append_left _ (List.mem_singleton_self _), request, _, rfl⟩
  have hfirst := h.fetch m.log m.current request
  cases hresult : runtime.fetch m.log request with
  | ok res =>
    rw [hresult] at hfirst hrequested
    have hgoes : ∀ {es r}, BrokenOff runtime abort _ es r → BrokenOff runtime abort m.log
        (⟨m.current, .fetched request (.ok res)⟩ :: es) (r : Except Thrown Response) :=
      fun hes => hes.cons fun _ haborted => nomatch hfirst haborted
    show Emits _ (if isRetryableStatus res.status then _ else _) _ _
    split_ifs
    · exact (breaks_slept_fetch h request _).mono fun fs r hfs => ⟨hgoes hfs, hrequested fs⟩
    · exact emits_pure ⟨hgoes brokenOff_nil, hrequested []⟩
  | error e =>
    rw [hresult] at hfirst hrequested
    refine emits_get ?_
    split_ifs with haborted
    · refine (emits_throw ?_ : Emits _ (throw e) _ _)
      exact ⟨brokenOff_nil.cons fun _ haborted => ⟨rfl, hfirst haborted⟩, hrequested []⟩
    · refine (breaks_slept_fetch h request _).mono fun fs r hfs => ⟨?_, hrequested fs⟩
      exact hfs.cons fun _ haborted' => absurd haborted' haborted

omit h in
/-- Passing on text is no wait. -/
lemma breaks_onLine (next : JsStr → JsStr → Option JsStr) (full line : JsStr) :
    Breaks runtime abort (onLine next (deliver runtime) full line) := by
  unfold onLine
  cases next full line with
  | none => exact breaks_pure full
  | some text =>
    intro m
    obtain ⟨result, hrun⟩ := run_attempt (deliver runtime text) m
    rw [run_deliver] at hrun
    exact emits_step hrun rfl (emits_pure (brokenOff_nil.cons fun hpending _ => hpending.elim))

omit h in
lemma breaks_lines (next : JsStr → JsStr → Option JsStr) (lines : List JsStr) (full : JsStr) :
    Breaks runtime abort (lines.foldlM (onLine next (deliver runtime)) full) := by
  induction lines generalizing full with
  | nil => exact breaks_pure full
  | cons line rest ih =>
    rw [List.foldlM_cons]
    exact breaks_bind (breaks_onLine next full line) ih

lemma breaks_readChunks (next : JsStr → JsStr → Option JsStr) (ending : Option Thrown)
    (chunks : List (List UInt8)) : ∀ (earlier : List (List UInt8)) (buffer full : JsStr),
      Breaks runtime abort
        (readChunks runtime (onLine next (deliver runtime)) ending earlier chunks buffer full) := by
  induction chunks with
  | nil => exact fun earlier buffer full => breaks_bind (breaks_read h _) fun _ => breaks_pure full
  | cons value rest ih =>
    exact fun earlier buffer full => breaks_bind (breaks_read h _) fun _ =>
      breaks_bind (breaks_lines next _ full) fun mid => ih _ _ mid

lemma breaks_consumeLines (next : JsStr → JsStr → Option JsStr) (res : Response) (full : JsStr) :
    Breaks runtime abort (consumeLines runtime res (onLine next (deliver runtime)) full) := by
  unfold consumeLines
  cases res.body with
  | none => exact breaks_throw _
  | some stream => exact breaks_readChunks h next stream.ending stream.chunks [] [] full

/-- Without an error, an exchange has made its request, and no abort has reached it. -/
lemma emits_exchange {rq : Except Thrown FetchRequest} {describe : Response → Run JsStr}
    (hdescribe : ∀ res, Quiet (Silent rq) (describe res)) (m : Machine) :
    Emits Machine.log (exchange runtime rq describe) m fun es r =>
      (∀ e ∈ es, Silent rq e.act) ∧ ∀ res, answer r = .ok res → Requested es ∧
        BrokenOff runtime abort m.log es (answer r) := by
  have hquiet : Quiet (Silent rq) (exchange runtime rq describe) :=
    quiet_exchange (waits_silent rq) hdescribe
  refine ((hquiet m []).and ?_).mono fun es r ⟨hes, h⟩ => ⟨fun e he => (hes.tagged e he).2, h⟩
  unfold exchange
  cases rq with
  | error e =>
    refine (emits_throw ?_ : Emits _ (throw e) _ _)
    exact nofun
  | ok request =>
    rw [orThrow, pure_bind]
    refine emits_bind (breaks_fetchWithRetry h request m) ?_ ?_
    · rintro es res t ⟨hes, hrequested⟩
      split_ifs
      · exact emits_pure fun _ _ => ⟨by simpa using hrequested, by simpa using hes⟩
      · have hthrows : Yields (describe res >>= fun message =>
            (throw (.error message) : Run Response)) fun _ => False :=
          yields_seq fun message => yields_throw
        have hemits : Quiet (Silent (.ok request)) (describe res >>= fun message =>
            (throw (.error message) : Run Response)) :=
          quiet_bind (hdescribe res) fun message => quiet_throw _
        exact ((hemits t []).and_yields hthrows).mono fun fs r hr res' hres' =>
          (hr.2 res' hres').elim
    · rintro es e t - res hres
      cases hres

/-- What an abort does to the call of one candidate: it fails, and with the abort itself where text
was passed on before. -/
structure Cut (runtime : Runtime) (abort : Thrown) (log es : List Event)
    (r : Except Thrown JsStr) : Prop where
  broken : ∀ pre e post, es = pre ++ e :: post → Pending e.act →
    runtime.aborted (log ++ pre ++ [e]) →
      chunksOf post = [] ∧ ∃ err, r = .error err ∧ (chunksOf pre ≠ [] → err = abort)
  requested : chunksOf es ≠ [] → Requested es

omit h in
lemma chunksOf_silent {rq : Except Thrown FetchRequest} {es : List Event}
    (h : ∀ e ∈ es, Silent rq e.act) : chunksOf es = [] := by
  by_contra hne
  obtain ⟨x, hx, text, htext⟩ := mem_chunksOf.mp hne
  exact (h x hx).2 text htext

lemma cut_streamLines {rq : Except Thrown FetchRequest} {describe : Response → Run JsStr}
    (hdescribe : ∀ res, Quiet (Silent rq) (describe res)) (next : JsStr → JsStr → Option JsStr)
    (m : Machine) : Emits Machine.log (streamLines runtime rq describe next (deliver runtime)) m
      fun es r => Cut runtime abort m.log es (answer r) := by
  refine emits_bind (emits_exchange h hdescribe m).located ?_ ?_
  · rintro es res t ⟨⟨hes, hok⟩, hlog⟩
    rw [finalState_ok] at hlog
    obtain ⟨hrequested, hbroken⟩ := hok res rfl
    refine (breaks_consumeLines h next res [] t).mono fun fs r hfs => ⟨?_, fun _ => ?_⟩
    · intro pre e post heq hpending haborted
      rcases split_append heq with ⟨mid, hmid, -⟩ | ⟨mid, hmid, rfl⟩
      · have hr := (hbroken pre e mid hmid hpending haborted).2
        cases hr
      · rw [← List.append_assoc m.log, ← hlog] at haborted
        obtain ⟨hpost, hr⟩ := hfs mid e post hmid hpending haborted
        exact ⟨hpost, abort, hr, fun _ => rfl⟩
    · obtain ⟨x, hx, hact⟩ := hrequested
      exact ⟨x, List.mem_append_left _ hx, hact⟩
  · rintro es err t ⟨⟨hes, -⟩, -⟩
    have hsilent := chunksOf_silent hes
    refine ⟨?_, fun hne => absurd hsilent hne⟩
    rintro pre e post rfl hpending -
    rw [chunksOf_append, hpending.chunksOf_cons, List.append_eq_nil_iff] at hsilent
    exact ⟨hsilent.2, err, rfl, fun hne => absurd hsilent.1 hne⟩

lemma cut_streamOne (messages : List ChatMessage) (options : RequestOptions)
    (cfg : ProviderCallConfig) (m : Machine) :
    Emits Machine.log (streamOne runtime cfg messages (deliver runtime) options) m fun es r =>
      Cut runtime abort m.log es (answer r) := by
  unfold streamOne
  have herror : ∀ rq res, Quiet (Silent rq) (describeHttpError runtime res) :=
    fun rq => quiet_describeHttpError (waits_silent rq)
  cases cfg.provider with
  | gemini => exact cut_streamLines h (herror _) _ m
  | anthropic => exact cut_streamLines h (herror _) _ m
  | ollama => exact cut_streamLines h quiet_ollama _ m
  | openai => exact cut_streamLines h (herror _) _ m
  | groq => exact cut_streamLines h (herror _) _ m

end

/-! ### From one candidate to the next -/

/-- At each moment of an abort, the run stops exactly when the candidate has passed on text. -/
def Heeds {α : Type} (runtime : Runtime) (abort : Thrown) (log es : List Event)
    (r : Except AgentError α) : Prop :=
  ∀ pre e post, Cancelled runtime log es pre e post → (Stopped abort e post r ↔ Begun pre e)

/-- The same of a run from the `i`-th candidate on, which needs a request to reject with an error of
a candidate. -/
structure Fallen (runtime : Runtime) (abort : Thrown) (log : List Event) (i : ℕ) (es : List Event)
    (r : Except AgentError JsStr) : Prop where
  heeds : Heeds runtime abort log es r
  later : ∀ e ∈ es, i ≤ e.candidate
  rethrown : ∀ err, r = .error (.rethrown err) → Requested es

section

variable {runtime : Runtime} {abort : Thrown} {log es fs : List Event} {i : ℕ}

lemma heeds_nil {α : Type} {r : Except AgentError α} : Heeds runtime abort log [] r := by
  intro pre e post hcancelled
  simpa using hcancelled.split

lemma fallen_nil {r : Except AgentError JsStr} (h : ∀ err, r ≠ .error (.rethrown err)) :
    Fallen runtime abort log i [] r :=
  ⟨heeds_nil, by simp, fun err hr => absurd hr (h err)⟩

/-- With the settling of the only call, a run is over. -/
lemma Cancelled.inside {s e : Event} {pre post : List Event}
    (h : Cancelled runtime log (es ++ [s]) pre e post) :
    ∃ mid, es = pre ++ e :: mid ∧ post = mid ++ [s] := by
  rcases split_append h.split with h' | ⟨mid, hmid, -⟩
  · exact h'
  · cases mid with
    | nil =>
      cases hmid
      exact absurd rfl h.goesOn
    | cons d mid => simp at hmid

variable (hi : ∀ e ∈ es, e.candidate = i)
include hi

/-- Settling is of the candidate as well. -/
lemma candidate_settled {result : Except Thrown JsStr} :
    ∀ e ∈ es ++ [⟨i, .settled result⟩], e.candidate = i := by
  intro e he
  rcases List.mem_append.mp he with he | he
  · exact hi e he
  · cases List.mem_singleton.mp he
    rfl

lemma Cut.answered {text : JsStr} (h : Cut runtime abort log es (.ok text)) :
    Fallen runtime abort log i (es ++ [⟨i, .settled (.ok text)⟩]) (.ok text) where
  heeds := by
    intro pre e post hcancelled
    obtain ⟨mid, hmid, -⟩ := hcancelled.inside
    obtain ⟨-, err, herr, -⟩ := h.broken pre e mid hmid hcancelled.pending hcancelled.aborted
    cases herr
  later := fun e he => (candidate_settled hi e he).ge
  rethrown := nofun

/-- A call that has passed on text ends the run with its error, which then is the abort. -/
lemma Cut.broke {err : Thrown} (h : Cut runtime abort log es (.error err))
    (hchunks : chunksOf es ≠ []) :
    Fallen runtime abort log i (es ++ [⟨i, .settled (.error err)⟩])
      (.error (.rethrown err)) where
  heeds := by
    intro pre e post hcancelled
    obtain ⟨mid, rfl, rfl⟩ := hcancelled.inside
    obtain ⟨hmid, err', herr, habort⟩ :=
      h.broken pre e mid rfl hcancelled.pending hcancelled.aborted
    cases herr
    rw [chunksOf_append, hcancelled.pending.chunksOf_cons, hmid, List.append_nil] at hchunks
    obtain rfl := habort hchunks
    have he : e.candidate = i := hi e (by simp)
    refine iff_of_true ⟨fun x hx request result hact => ?_, rfl⟩ ?_
    · have hmem : x ∈ (pre ++ e :: mid) ++ [⟨i, .settled (.error err)⟩] := by
        rw [List.append_assoc]
        exact List.mem_append_right _ (List.mem_cons_of_mem _ hx)
      rw [candidate_settled hi x hmem, he]
    · obtain ⟨x, hx, text, htext⟩ := mem_chunksOf.mp hchunks
      exact ⟨x, hx, by rw [hi x (by simp [hx]), he], text, htext⟩
  later := fun e he => (candidate_settled hi e he).ge
  rethrown := by
    intro _ _
    obtain ⟨x, hx, hact⟩ := h.requested hchunks
    exact ⟨x, List.mem_append_left _ hx, hact⟩

/-- After a call that has passed on nothing, no abort before is heeded any more. -/
lemma Fallen.next {result : Except Thrown JsStr} {r : Except AgentError JsStr}
    (hchunks : chunksOf es = [])
    (h : Fallen runtime abort (log ++ es ++ [⟨i, .settled result⟩]) (i + 1) fs r) :
    Fallen runtime abort log i (es ++ ([⟨i, .settled result⟩] ++ fs)) r := by
  rw [← List.append_assoc]
  have hfirst : ∀ e ∈ es ++ [⟨i, .settled result⟩], e.candidate = i := candidate_settled hi
  refine ⟨fun pre e post hcancelled => ?_, fun e he => ?_, fun err hr => ?_⟩
  · rcases split_append hcancelled.split with ⟨mid, hmid, rfl⟩ | ⟨mid, rfl, rfl⟩
    · have he : e.candidate = i := hfirst e (by rw [hmid]; simp)
      refine iff_of_false ?_ ?_
      · rintro ⟨hnone, hr⟩
        obtain ⟨x, hx, request, result, hact⟩ := h.rethrown abort hr
        have hle := hnone x (List.mem_append_right _ hx) request result hact
        have hge := h.later x hx
        omega
      · rintro ⟨x, hx, -, text, htext⟩
        have hx : x ∈ es ++ [⟨i, .settled result⟩] := by
          rw [hmid]
          exact List.mem_append_left _ hx
        exact chunksOf_ne_nil hx htext (by rw [chunksOf_append_settled, hchunks])
    · have hcancelled' : Cancelled runtime (log ++ es ++ [⟨i, .settled result⟩])
          (mid ++ e :: post) mid e post := by
        refine ⟨rfl, hcancelled.goesOn, hcancelled.pending, ?_⟩
        simpa using hcancelled.aborted
      rw [h.heeds mid e post hcancelled']
      refine ⟨fun ⟨x, hx, hact⟩ => ⟨x, List.mem_append_right _ hx, hact⟩, ?_⟩
      rintro ⟨x, hx, hsame, hact⟩
      rcases List.mem_append.mp hx with hx | hx
      · have hlater := h.later e (by simp)
        rw [← hsame, hfirst x hx] at hlater
        omega
      · exact ⟨x, hx, hsame, hact⟩
  · rcases List.mem_append.mp he with he | he
    · exact (hfirst e he).ge
    · exact Nat.le_of_succ_le (h.later e he)
  · obtain ⟨x, hx, hact⟩ := h.rethrown err hr
    exact ⟨x, List.mem_append_right _ hx, hact⟩

end

section

variable {runtime : Runtime} {abort : Thrown} (h : Honours runtime abort)
variable (messages : List ChatMessage) (options : RequestOptions)

lemma exhaustedError_ne (attempts : List FailedAttempt) (err : Thrown) :
    exhaustedError attempts ≠ .rethrown err := by
  unfold exhaustedError
  split_ifs <;> simp

include h in
lemma fallen_fallback (candidates : List ProviderCallConfig) :
    ∀ (i : ℕ) (attempts : List FailedAttempt) (m : Machine), Emits Machine.log
      (fallback runtime messages options i candidates attempts) m fun es r =>
        Fallen runtime abort m.log i es (answer r) := by
  induction candidates with
  | nil =>
    exact fun i attempts m => emits_throw
      (fallen_nil fun err herr => exhaustedError_ne attempts err (Except.error.inj herr))
  | cons c rest ih =>
    intro i attempts m
    have hcut := cut_streamOne h messages options c
      { m with current := i, startedStreaming := false }
    refine emits_fallback_cons runtime messages options hcut ?_ ?_ ?_ ?_
    · exact fun es text hcall hes => Cut.answered hcall.candidate_eq hes
    · exact fun es last e hcall hes hchunks => Cut.broke hcall.candidate_eq hes hchunks
    · exact fun es last hcall hes hchunks =>
        Fallen.next hcall.candidate_eq hchunks (fallen_nil nofun)
    · exact fun es last message hcall hes hchunks => (ih (i + 1) _ _).mono fun fs r hfs =>
        Fallen.next hcall.candidate_eq hchunks hfs

end

/-! ### Without a stream -/

section

variable {rq : ProviderCallConfig → Except Thrown FetchRequest} {i : ℕ}
variable {cs : List ProviderCallConfig} {attempts : List FailedAttempt} {es : List Event}
variable {r : Except AgentError JsValue}

/-- Nothing is passed on. -/
lemma silent_of_tries (h : Tries rq i cs attempts es r) : chunksOf es = [] := by
  induction h with
  | exhausted i attempts => rfl
  | answered honce text =>
    rw [chunksOf_append, chunksOf_silent fun e he => (honce e he).2]
    rfl
  | unreadable honce =>
    rw [chunksOf_append, chunksOf_silent fun e he => (honce e he).2]
    rfl
  | next honce htail ih =>
    rw [chunksOf_append, chunksOf_silent fun e he => (honce e he).2, chunksOf_append, ih]
    rfl

/-- No error of a candidate gets out. -/
lemma tries_ne_rethrown (h : Tries rq i cs attempts es r) (err : Thrown) :
    r ≠ .error (.rethrown err) := by
  induction h with
  | exhausted i attempts => exact fun hr => exhaustedError_ne attempts err (Except.error.inj hr)
  | answered honce text => simp
  | unreadable honce => simp
  | next honce htail ih => exact ih

lemma heeds_of_tries {runtime : Runtime} {abort : Thrown} {log : List Event}
    (h : Tries rq i cs attempts es r) : Heeds runtime abort log es r := by
  intro pre e post hcancelled
  refine iff_of_false (fun hstopped => tries_ne_rethrown h abort hstopped.2) ?_
  rintro ⟨x, hx, -, text, htext⟩
  refine chunksOf_ne_nil ?_ htext (silent_of_tries h)
  rw [hcancelled.split]
  exact List.mem_append_left _ hx

end

/-! ### What an abort stops -/

/-- **Aborts.** Whatever the configuration and at whatever moment the signal is aborted, the run
stops and rejects with the abort exactly when the candidate of that moment has passed on text. -/
theorem stopped_iff_begun (runtime : Runtime) (abort : Thrown) (h : Honours runtime abort)
    (cfg : AgentConfig) (prompt : Prompt) (options : RequestOptions) (m : Machine) :
    Emits Machine.log (complete runtime cfg prompt options) m
        (fun es r => Heeds runtime abort m.log es (answer r)) ∧
      Emits Machine.log (streamComplete runtime cfg prompt options) m
        fun es r => Heeds runtime abort m.log es (answer r) := by
  unfold complete streamComplete
  extract_lets candidates
  split_ifs with hnil
  · exact ⟨emits_throw heeds_nil, emits_throw heeds_nil⟩
  · refine ⟨?_, ?_⟩
    · exact (tries_completeFrom runtime (messagesOf prompt) options _ 0 [] m).mono fun es r hes =>
        heeds_of_tries hes
    · exact (fallen_fallback h (messagesOf prompt) options _ 0 [] m).mono fun es r hes => hes.heeds

namespace Sample

def passesOn : Event → Bool
  | ⟨_, .chunk _⟩ => true
  | _ => false

/-- The signal is aborted from the start, or by the callback. -/
def signal (early : Bool) (log : List Event) : Bool := early || log.any passesOn

def abort : Thrown := .error (js "The user aborted a request.")

/-- A browser whose local server answers with one line. -/
def browser (early : Bool) : Runtime where
  fetch := fun log _ => if signal early log then .error abort else
    .ok { status := 200, body := some ⟨[[]], none⟩, json := .ok .null }
  aborted := signal early
  interrupted := fun log => if signal early log then some abort else none
  encodeURIComponent := fun s => .ok s
  parseUrl := fun url => .ok ⟨js "localhost", js "http:", url⟩
  parse := fun _ => some (.object [(js "message", .object [(js "content", .string (js "Hi"))])])
  nullMessage := fun _ => []
  toText := fun _ => .ok []
  decode := fun _ _ => js "{}\n"
  onChunk := fun _ _ => none

/-- The local server first, and another provider to fall back to. -/
def config : AgentConfig where
  providers := [⟨.ollama, js "llama3.2", []⟩, ⟨.openai, js "gpt-4o-mini", [js "sk-x"]⟩]
  ollamaUrl := js "http://localhost:11434"

lemma honours (early : Bool) : Honours (browser early) abort where
  stays := by
    intro log es haborted
    have haborted' : signal early log = true := haborted
    show signal early (log ++ es) = true
    simp only [signal, List.any_append, ← Bool.or_assoc] at haborted' ⊢
    rw [haborted', Bool.true_or]
  fetch := by
    intro log i request haborted
    have haborted' : signal early log = true := by
      simpa [browser, signal, passesOn] using haborted
    exact if_pos haborted'
  body := by
    intro log i result haborted _
    have haborted' : signal early log = true := by
      simpa [browser, signal, passesOn] using haborted
    exact if_pos haborted'

end Sample

/-- An abort out of the callback stops the run. -/
theorem stopped_by_callback : answer ((streamComplete (Sample.browser false) Sample.config
    (.text (js "hi")) {}).run {}) = .error (.rethrown Sample.abort) := by
  obtain ⟨es, hlog, hes⟩ := (stopped_iff_begun _ _ (Sample.honours false) Sample.config
    (.text (js "hi")) {} {}).2
  obtain ⟨fetched, read, hsplit⟩ : ∃ fetched read, es = [fetched, read, ⟨0, .chunk (js "Hi")⟩] ++
      ⟨0, .read (.error Sample.abort)⟩ :: [⟨0, .settled (.error Sample.abort)⟩] :=
    ⟨_, _, by exact hlog.symm⟩
  have haborted : (Sample.browser false).aborted ([] ++ [fetched, read, ⟨0, .chunk (js "Hi")⟩] ++
      [⟨0, .read (.error Sample.abort)⟩]) := by
    simp [Sample.browser, Sample.signal, Sample.passesOn]
  have hbegun : Begun [fetched, read, ⟨0, .chunk (js "Hi")⟩] ⟨0, .read (.error Sample.abort)⟩ :=
    ⟨⟨0, .chunk (js "Hi")⟩, by simp, rfl, js "Hi", rfl⟩
  exact ((hes _ _ _ ⟨hsplit, nofun, nofun, haborted⟩).mpr hbegun).2

/-- Every abort stops the run. -/
def AlwaysStops {α : Type}
    (run : Runtime → AgentConfig → Prompt → RequestOptions → EStateM AgentError Machine α) : Prop :=
  ∀ (runtime : Runtime) (abort : Thrown), Honours runtime abort → ∀ (cfg : AgentConfig)
    (prompt : Prompt) (options : RequestOptions) (m : Machine),
      Emits Machine.log (run runtime cfg prompt options) m fun es r => ∀ pre e post,
        Cancelled runtime m.log es pre e post → Stopped abort e post (answer r)

/-- A signal that is aborted from the start does not keep a run from its second candidate. -/
theorem falls_through : ¬ AlwaysStops complete ∧ ¬ AlwaysStops streamComplete := by
  refine ⟨fun h => ?_, fun h => ?_⟩
  all_goals
    obtain ⟨es, hlog, hes⟩ := h _ _ (Sample.honours true) Sample.config (.text (js "hi")) {} {}
    obtain ⟨request, settled, post, hsplit⟩ : ∃ request settled post, es =
        [] ++ ⟨0, .fetched request (.error Sample.abort)⟩ :: settled :: post :=
      ⟨_, _, _, by exact hlog.symm⟩
    have hstopped := hes _ _ _ ⟨hsplit, nofun, trivial, rfl⟩
    cases hstopped.2

end ModelDispatcher.Cancellation
