import ModelDispatcher.Streaming

/-!
`complete` answers with the first candidate that resolves: what its loop leaves in the log, and
what this says of the calls, of the answer and of the error of a run.
-/

namespace ModelDispatcher.Completion

open Lib.Logged Lib.Js BrowserAgent Streaming

/-! ### The call of one candidate -/

/-- The acts a call may leave that passes nothing on. -/
def Silent (request : Except Thrown FetchRequest) (act : Act) : Prop :=
  Allowed request act ∧ ∀ text, act ≠ .chunk text

lemma waits_silent (request : Except Thrown FetchRequest) : Waits request (Silent request) :=
  ⟨fun _ _ h => ⟨h, nofun⟩, ⟨trivial, nofun⟩, fun _ => ⟨trivial, nofun⟩, fun _ => ⟨trivial, nofun⟩⟩

section

variable (runtime : Runtime) (messages : List ChatMessage) (options : RequestOptions)

/-- The request a candidate's call fetches, where it can be built. -/
def completeRequestOf (cfg : ProviderCallConfig) : Except Thrown FetchRequest :=
  match cfg.provider with
  | .gemini => Gemini.completeRequest runtime cfg messages options
  | .anthropic => .ok (Anthropic.request cfg messages options false)
  | .ollama => Ollama.request runtime cfg messages options false
  | .openai => .ok (OpenAICompatible.request cfg messages options openaiUrl false)
  | .groq => .ok (OpenAICompatible.request cfg messages options groqUrl false)

variable {runtime}

lemma quiet_completeJson {request : Except Thrown FetchRequest} {describe : Response → Run JsStr}
    (h : ∀ res, Quiet (Silent request) (describe res)) (key : JsStr) (part : JsValue → JsValue) :
    Quiet (Silent request) (completeJson runtime request describe key part) := by
  refine quiet_bind (quiet_exchange (waits_silent request) h) fun res => ?_
  refine quiet_bind (quiet_readJson (waits_silent request) res) fun data => ?_
  exact quiet_bind (quiet_orThrow _) fun value => quiet_pure _

variable (runtime) in
lemma quiet_completeOne (cfg : ProviderCallConfig) :
    Quiet (Silent (completeRequestOf runtime messages options cfg))
      (completeOne runtime cfg messages options) := by
  unfold completeOne completeRequestOf
  have herror : ∀ request res, Quiet (Silent request) (describeHttpError runtime res) :=
    fun request => quiet_describeHttpError (waits_silent request)
  cases cfg.provider with
  | gemini => exact quiet_completeJson (herror _) _ _
  | anthropic => exact quiet_completeJson (herror _) _ _
  | ollama => exact quiet_completeJson quiet_ollama _ _
  | openai => exact quiet_completeJson (herror _) _ _
  | groq => exact quiet_completeJson (herror _) _ _

end

/-! ### From one candidate to the next -/

/-- The events of one candidate's call. -/
def Once (request : Except Thrown FetchRequest) (i : ℕ) (es : List Event) : Prop :=
  ∀ e ∈ es, e.candidate = i ∧ Silent request e.act

/-- The calls of a run from the `i`-th candidate on, after some failed attempts. -/
inductive Tries (requestOf : ProviderCallConfig → Except Thrown FetchRequest) :
    ℕ → List ProviderCallConfig → List FailedAttempt → List Event → Except AgentError JsValue → Prop
  | exhausted (i : ℕ) (attempts : List FailedAttempt) :
    Tries requestOf i [] attempts [] (.error (exhaustedError attempts))
  | answered {i : ℕ} {c : ProviderCallConfig} {rest : List ProviderCallConfig}
      {attempts : List FailedAttempt} {es : List Event} (h : Once (requestOf c) i es)
      (text : JsValue) :
    Tries requestOf i (c :: rest) attempts (es ++ [⟨i, .completed (.ok text)⟩]) (.ok text)
  | unreadable {i : ℕ} {c : ProviderCallConfig} {rest : List ProviderCallConfig}
      {attempts : List FailedAttempt} {es : List Event} (h : Once (requestOf c) i es) :
    Tries requestOf i (c :: rest) attempts (es ++ [⟨i, .completed (.error .nullish)⟩])
      (.error .typeError)
  | next {i : ℕ} {c : ProviderCallConfig} {rest : List ProviderCallConfig}
      {attempts : List FailedAttempt} {es fs : List Event} {message : Option JsStr}
      {r : Except AgentError JsValue} (h : Once (requestOf c) i es)
      (htail : Tries requestOf (i + 1) rest (attempts ++ [⟨c.provider, message⟩]) fs r) :
    Tries requestOf i (c :: rest) attempts
      (es ++ ([⟨i, .completed (.error (.value message))⟩] ++ fs)) r

lemma tries_completeFrom (runtime : Runtime) (messages : List ChatMessage)
    (options : RequestOptions) (candidates : List ProviderCallConfig) :
    ∀ (i : ℕ) (attempts : List FailedAttempt) (m : Machine), Emits Machine.log
      (completeFrom runtime messages options i candidates attempts) m fun es r =>
        Tries (completeRequestOf runtime messages options) i candidates attempts es (answer r) := by
  induction candidates with
  | nil => exact fun i attempts m => emits_throw (.exhausted i attempts)
  | cons c rest ih =>
    intro i attempts m
    refine emits_step rfl (List.append_nil _).symm ?_
    obtain ⟨es, r, hrun, hlog, hes⟩ := attempt_emits (ε := AgentError)
      (quiet_completeOne runtime messages options c { m with current := i } [])
    refine emits_step hrun hlog ?_
    refine emits_step rfl rfl ?_
    have honce : Once (completeRequestOf runtime messages options c) i es := hes.tagged
    have hcurrent : (finalState r).current = i := hes.current
    rw [hcurrent]
    cases r with
    | ok text m' => exact emits_pure (.answered honce text)
    | error e m' =>
      cases e with
      | nullish => exact emits_throw (.unreadable honce)
      | value message => exact (ih (i + 1) _ _).mono fun fs r hfs => .next honce hfs

/-! ### The outcomes of a run -/

/-- The outcome of each call, with its candidate. -/
def outcomesOf (es : List Event) : List (ℕ × Except Thrown JsValue) :=
  es.filterMap fun
    | ⟨i, .completed result⟩ => some (i, result)
    | _ => none

@[simp] lemma outcomesOf_append (es fs : List Event) :
    outcomesOf (es ++ fs) = outcomesOf es ++ outcomesOf fs := List.filterMap_append

@[simp] lemma outcomesOf_nil : outcomesOf [] = [] := rfl

@[simp] lemma outcomesOf_completed (i : ℕ) (result : Except Thrown JsValue) (es : List Event) :
    outcomesOf (⟨i, .completed result⟩ :: es) = (i, result) :: outcomesOf es := rfl

/-- A call on its own has no outcome yet. -/
lemma Once.outcomesOf {request : Except Thrown FetchRequest} {i : ℕ} {es : List Event}
    (h : Once request i es) : outcomesOf es = [] := by
  refine List.filterMap_eq_nil_iff.mpr fun e he => ?_
  obtain ⟨j, act⟩ := e
  cases act with
  | completed result => exact (h _ he).2.1.elim
  | _ => rfl

/-- The candidates from the `i`-th on reject with the errors, one after the other. -/
def rejections : ℕ → List JsStr → List (ℕ × Except Thrown JsValue)
  | _, [] => []
  | i, error :: errors => (i, .error (.error error)) :: rejections (i + 1) errors

/-- The entry of a candidate that rejected. -/
def failed (c : ProviderCallConfig) (error : JsStr) : FailedAttempt := ⟨c.provider, some error⟩

/-- Whatever rejects, rejects with an error. -/
def Rejecting (es : List Event) : Prop :=
  ∀ i e, (i, .error e) ∈ outcomesOf es → ∃ message, e = .error message

section

variable {rq : ProviderCallConfig → Except Thrown FetchRequest} {i : ℕ}
variable {cs : List ProviderCallConfig} {attempts : List FailedAttempt} {es : List Event}
variable {r : Except AgentError JsValue}

/-- Either the first candidates reject and the next one resolves, or all of them reject. -/
lemma Tries.outcome (h : Tries rq i cs attempts es r) (hrejecting : Rejecting es) :
    ∃ errors : List JsStr,
      (∃ text, errors.length < cs.length ∧ r = .ok text ∧
        outcomesOf es = rejections i errors ++ [(i + errors.length, .ok text)]) ∨
      (errors.length = cs.length ∧ outcomesOf es = rejections i errors ∧
        r = .error (exhaustedError (attempts ++ List.zipWith failed cs errors))) := by
  induction h with
  | exhausted i attempts => exact ⟨[], .inr ⟨rfl, rfl, by simp⟩⟩
  | answered honce text =>
    refine ⟨[], .inl ⟨text, by simp, rfl, ?_⟩⟩
    simp [honce.outcomesOf, rejections]
  | @unreadable i c rest attempts es honce =>
    obtain ⟨message, hmessage⟩ := hrejecting i .nullish (by simp)
    cases hmessage
  | @next i c rest attempts es fs message r honce htail ih =>
    obtain ⟨error, herror⟩ := hrejecting i (.value message) (by simp)
    cases herror
    have hrest : Rejecting fs := fun j e he => hrejecting j e (by simp [he])
    have houtcomes : ∀ rest, outcomesOf fs = rest → outcomesOf (es ++
        ([⟨i, .completed (.error (.value (some error)))⟩] ++ fs)) =
          (i, .error (.error error)) :: rest := by
      rintro rest rfl
      simp [honce.outcomesOf, Thrown.error]
    obtain ⟨errors, ⟨text, hlength, hr, hfs⟩ | ⟨hlength, hfs, hr⟩⟩ := ih hrest
    · refine ⟨error :: errors, .inl ⟨text, by simpa using hlength, hr, ?_⟩⟩
      rw [houtcomes _ hfs, rejections, List.length_cons, Nat.add_right_comm, Nat.add_assoc]
      rfl
    · refine ⟨error :: errors, .inr ⟨by simpa using hlength, houtcomes _ hfs, ?_⟩⟩
      rw [hr, List.zipWith_cons_cons, List.append_assoc]
      rfl

lemma Once.block {request : Except Thrown FetchRequest} (h : Once request i es)
    {result : Except Thrown JsValue} :
    ∀ e ∈ es ++ [⟨i, .completed result⟩], e.candidate = i ∧ Asked request e :=
  settled_block (fun e he => ⟨(h e he).1, (h e he).2.1⟩) nofun

/-- Only candidates with an outcome leave events. -/
lemma Tries.called (h : Tries rq i cs attempts es r) :
    ∀ e ∈ es, ∃ result, (e.candidate, result) ∈ outcomesOf es := by
  induction h with
  | exhausted i attempts => simp
  | answered honce text =>
    intro e he
    exact ⟨.ok text, by rw [(honce.block e he).1]; simp⟩
  | unreadable honce =>
    intro e he
    exact ⟨.error .nullish, by rw [(honce.block e he).1]; simp⟩
  | @next i c rest attempts es fs message r honce htail ih =>
    intro e he
    rw [← List.append_assoc] at he ⊢
    rcases List.mem_append.mp he with he | he
    · exact ⟨.error (.value message), by rw [(honce.block e he).1]; simp⟩
    · obtain ⟨result, hresult⟩ := ih e he
      exact ⟨result, by rw [outcomesOf_append]; exact List.mem_append_right _ hresult⟩

lemma Tries.blocks (h : Tries rq i cs attempts es r) :
    Blocks Event.candidate (fun c => Asked (rq c)) i cs es := by
  induction h with
  | exhausted i attempts => exact .nil i []
  | answered honce text => exact blocks_single honce.block
  | unreadable honce => exact blocks_single honce.block
  | next honce htail ih =>
    rw [← List.append_assoc]
    exact .cons honce.block ih

/-- A candidate is called only after those before it have rejected. -/
lemma Tries.along (h : Tries rq i cs attempts es r) : Along (fun pre e => ∀ j, i ≤ j →
    j < e.candidate → ∃ err, (j, .error err) ∈ outcomesOf pre) es := by
  induction h with
  | exhausted i attempts => exact along_nil
  | answered honce text =>
    rintro pre e post heq j hij hje
    have := (honce.block e (by rw [heq]; simp)).1
    omega
  | unreadable honce =>
    rintro pre e post heq j hij hje
    have := (honce.block e (by rw [heq]; simp)).1
    omega
  | @next i c rest attempts es fs message r honce htail ih =>
    rw [← List.append_assoc]
    refine along_append ?_ ?_
    · rintro pre e post heq j hij hje
      have := (honce.block e (by rw [heq]; simp)).1
      omega
    · rintro pre e post heq j hij hje
      rcases Nat.eq_or_lt_of_le hij with rfl | hij
      · exact ⟨.value message, by simp⟩
      · obtain ⟨err, herr⟩ := ih pre e post heq j hij hje
        exact ⟨err, by simp [herr]⟩

lemma Tries.ne_noProviderConfigured (h : Tries rq i cs attempts es r) :
    r ≠ .error .noProviderConfigured := by
  induction h with
  | exhausted i attempts =>
    unfold exhaustedError
    split_ifs <;> simp
  | answered honce text => simp
  | unreadable honce => simp
  | next honce htail ih => exact ih

end

/-! ### The first success -/

/-- What `complete` guarantees of the events of a run over some candidates and of its result. -/
structure FirstSuccess (requestOf : ProviderCallConfig → Except Thrown FetchRequest)
    (candidates : List ProviderCallConfig) (es : List Event) (r : Except AgentError JsValue) :
    Prop where
  unconfigured : r = .error .noProviderConfigured ↔ candidates = []
  uncalled : candidates = [] → es = []
  called : ∀ e ∈ es, ∃ result, (e.candidate, result) ∈ outcomesOf es
  fetched : ∀ e ∈ es, ∀ request result, e.act = .fetched request result →
    ∃ c, candidates[e.candidate]? = some c ∧ requestOf c = .ok request
  inOrder : Along (fun pre e => ∀ j < e.candidate, ∃ err, (j, .error err) ∈ outcomesOf pre) es
  outcome : candidates ≠ [] → Rejecting es → ∃ errors : List JsStr,
    (∃ text, errors.length < candidates.length ∧ r = .ok text ∧
      outcomesOf es = rejections 0 errors ++ [(errors.length, .ok text)]) ∨
    (errors.length = candidates.length ∧ outcomesOf es = rejections 0 errors ∧
      r = .error (.allProvidersExhausted (List.zipWith failed candidates errors)))

/-- Every entry has a message that can be printed. -/
lemma all_failed (candidates : List ProviderCallConfig) (errors : List JsStr) :
    (List.zipWith failed candidates errors).all (·.error.isSome) := by
  induction candidates generalizing errors with
  | nil => rfl
  | cons c rest ih =>
    cases errors with
    | nil => rfl
    | cons e errors => simpa [failed] using ih errors

lemma Tries.firstSuccess {rq : ProviderCallConfig → Except Thrown FetchRequest}
    {cs : List ProviderCallConfig} {es : List Event} {r : Except AgentError JsValue}
    (h : Tries rq 0 cs [] es r) (hcs : cs ≠ []) : FirstSuccess rq cs es r where
  unconfigured := iff_of_false h.ne_noProviderConfigured hcs
  uncalled := fun hnil => absurd hnil hcs
  called := h.called
  fetched := by
    intro e he request result hact
    obtain ⟨c, hc, hasked⟩ := h.blocks.owned e he
    exact ⟨c, hc, hasked request result hact⟩
  inOrder := fun pre e post heq j hj => h.along pre e post heq j (Nat.zero_le j) hj
  outcome := by
    intro _ hrejecting
    obtain ⟨errors, ⟨text, hlength, hr, hes⟩ | ⟨hlength, hes, hr⟩⟩ := h.outcome hrejecting
    · exact ⟨errors, .inl ⟨text, hlength, hr, by rw [hes, Nat.zero_add]⟩⟩
    · refine ⟨errors, .inr ⟨hlength, hes, ?_⟩⟩
      rw [hr, List.nil_append, exhaustedError, if_pos (all_failed cs errors)]

/-- **The first success answers.** Whatever the configuration and whatever the candidates do. -/
theorem complete_firstSuccess (runtime : Runtime) (cfg : AgentConfig) (prompt : Prompt)
    (options : RequestOptions) (m : Machine) :
    Emits Machine.log (complete runtime cfg prompt options) m fun es r =>
      FirstSuccess (completeRequestOf runtime (messagesOf prompt) options) (candidatesOf cfg) es
        (answer r) := by
  unfold complete
  extract_lets candidates
  split_ifs with hnil
  · rw [show candidatesOf cfg = [] from hnil]
    refine emits_throw ⟨by simp, fun _ => rfl, ?_, ?_, along_nil, ?_⟩ <;> simp
  · exact (tries_completeFrom runtime (messagesOf prompt) options _ 0 [] m).mono fun es r h =>
      h.firstSuccess hnil

end ModelDispatcher.Completion
