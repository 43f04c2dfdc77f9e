import ModelDispatcher.Turns

/-!
One run of the invocation handler, exactly: what it makes of each failure, which events every
attempt leaves, and how the loops over the attempts and over the keys end, as a function of what
the vendor answers.
-/

namespace ModelDispatcher.Rotation

open Lib.Text Lib.Floats Lib.Logged DataTypes Exceptions Config Providers Quota Security Machines
open Handlers ModelInvocationHandler Turns

/-! ### What a failure leads to -/

inductive Reaction
  /-- The same key again, after a delay. -/
  | retry
  /-- `FALLBACK`: the key is done. -/
  | leave
  | stop
  | raised (e : BuiltinError)
  deriving DecidableEq

/-- The reaction to a failure that is not retried. -/
def settled (k : KeySlot) (c : ErrorClass) : Reaction :=
  if isFallbackWorthy c || isRetryable c then .leave
  else if c = .auth && k.hasMoreCredentials then .leave
  else .stop

section

variable (h : ModelInvocationHandler) (k : KeySlot) (exc : VendorError) (attempt : ℕ)

def reaction : Reaction :=
  let c := k.provider.classifyError exc
  if isRetryable c && attempt < h.maxAttempts then .retry
  else if h.consultsHint k c attempt then
    match k.provider.retryAfterSeconds exc with
    | .error e => .raised e
    | .ok none => .retry
    | .ok (some x) => if x.le h.rateLimitMaxWait then .retry else settled k c
  else settled k c

/-- The vendor's hint is looked at before the reaction is known. -/
def hints : List Event :=
  let c := k.provider.classifyError exc
  if isRetryable c && attempt < h.maxAttempts then []
  else if h.consultsHint k c attempt then [.hinted k.provider exc]
  else []

/-- The wait before a retry: through, or raised. -/
def nap : Except PyException Unit := do
  let d ← (h.backoffDelay attempt k.provider exc).mapError .builtin
  sleep d

/-- The events of a reaction. -/
def Reaction.events : Reaction → List Event
  | .retry => [.backedOff k.provider attempt exc (h.backoffDelay attempt k.provider exc)]
  | _ => []

/-- How an attempt ends on a reaction. -/
def Reaction.ending : Reaction → Except PyException Attempted
  | .retry => (nap h k exc attempt).map fun _ => .again
  | .leave => .ok (if k.hasMoreCredentials then .nextKey else .done .fallback)
  | .stop => .ok (.done .stop)
  | .raised e => .error (.builtin e)

/-- What `_on_error` answers on a reaction. -/
def Reaction.verdict : Reaction → Except PyException (Option HandlerOutcome)
  | .retry => .ok none
  | .leave => .ok (some .fallback)
  | .stop => .ok (some .stop)
  | .raised e => .error (.builtin e)

def failureRecord : AttemptRecord where
  providerName := k.provider.name
  errorClass := some (k.provider.classifyError exc)
  detail := some exc.text
  credentialRef := k.credential.map (·.secretRef)

/-- Everything an attempt leaves after its failed call. -/
def afterFailure : List Event :=
  .recorded (failureRecord k exc) ::
    (hints h k exc attempt ++ (reaction h k exc attempt).events h k exc attempt)

end

/-! ### The grammar of a run -/

/-- An event that reconciles a served call. -/
def Event.settles : Event → Bool
  | .recorded _ => true
  | .committed .. => true
  | _ => false

/-- A call, its answer, and what was done before the next call. -/
structure Attempt where
  call : Call
  result : CallResult
  aftermath : List Event

def Attempt.events (a : Attempt) : List Event := .called a.call a.result :: a.aftermath

section

variable (h : ModelInvocationHandler) (w : World) (c : InvocationContext)

def callOf (k : KeySlot) (attempt : ℕ) : Call :=
  ⟨k.provider, c.request, k.apiKey, k.credential, k.index, attempt⟩

/-- What the vendor answers on a key, after a log. -/
def answerTo (k : KeySlot) (l : List Event) : CallResult :=
  w.complete l k.provider c.request k.apiKey

/-- An attempt and its end, on an answer. -/
inductive AttemptRun (k : KeySlot) (attempt : ℕ) :
    CallResult → Attempt → Except PyException Attempted → Prop
  | served {response : CompletionResponse} {tail : List Event}
      (htail : ∀ e ∈ tail, Event.settles e) :
      AttemptRun k attempt (.returned response)
        ⟨callOf c k attempt, .returned response, tail⟩ (.ok (.done .success))
  | library (e : ModelDispatcherError) :
      AttemptRun k attempt (.raisedLibrary e)
        ⟨callOf c k attempt, .raisedLibrary e, []⟩ (.error (.library e))
  | failed (exc : VendorError) :
      AttemptRun k attempt (.raised exc)
        ⟨callOf c k attempt, .raised exc, afterFailure h k exc attempt⟩
        ((reaction h k exc attempt).ending h k exc attempt)

/-- The end of an attempt that is the last one with its key. -/
inductive LeavesKey :
    Except PyException Attempted → Except PyException (Option HandlerOutcome) → Prop
  | nextKey : LeavesKey (.ok .nextKey) (.ok none)
  | done (o : HandlerOutcome) : LeavesKey (.ok (.done o)) (.ok (some o))
  | raised (e : PyException) : LeavesKey (.error e) (.error e)

/-- The end of a key that is the last one of its candidate. -/
inductive LeavesPool :
    Except PyException (Option HandlerOutcome) → Except PyException HandlerOutcome → Prop
  | done (o : HandlerOutcome) : LeavesPool (.ok (some o)) (.ok o)
  | raised (e : PyException) : LeavesPool (.error e) (.error e)

/-- The attempts left with a key, from an attempt number on and after a log. -/
inductive SlotRun (k : KeySlot) : List Event → ℕ → ℕ → List Attempt →
    Except PyException (Option HandlerOutcome) → Prop
  | spent (l : List Event) (attempt : ℕ) : SlotRun k l 0 attempt [] (.ok none)
  | again {l : List Event} {n attempt : ℕ} {a : Attempt} {as : List Attempt}
      {out : Except PyException (Option HandlerOutcome)}
      (ha : AttemptRun h c k attempt (answerTo w c k l) a (.ok .again))
      (hrest : SlotRun k (l ++ a.events) n (attempt + 1) as out) :
      SlotRun k l (n + 1) attempt (a :: as) out
  | ended {l : List Event} {n attempt : ℕ} {a : Attempt} {v : Except PyException Attempted}
      {out : Except PyException (Option HandlerOutcome)}
      (ha : AttemptRun h c k attempt (answerTo w c k l) a v) (hleaves : LeavesKey v out) :
      SlotRun k l (n + 1) attempt [a] out

/-- The keys left of a candidate, from an index on and after a log. -/
inductive PoolRun (p : ModelProvider) (more : Bool) : List Event → List (Option Credential) →
    ℕ → List Attempt → Except PyException HandlerOutcome → Prop
  | exhausted (l : List Event) (index : ℕ) : PoolRun p more l [] index [] (.ok .fallback)
  | next {l : List Event} {credential : Option Credential} {rest : List (Option Credential)}
      {index : ℕ} {as bs : List Attempt} {out : Except PyException HandlerOutcome}
      (hslot : SlotRun h w c ⟨p, credential, index, !rest.isEmpty, more⟩ l h.maxAttempts.toNat 1
        as (.ok none))
      (hrest : PoolRun p more (l ++ as.flatMap Attempt.events) rest (index + 1) bs out) :
      PoolRun p more l (credential :: rest) index (as ++ bs) out
  | ended {l : List Event} {credential : Option Credential} {rest : List (Option Credential)}
      {index : ℕ} {as : List Attempt} {v : Except PyException (Option HandlerOutcome)}
      {out : Except PyException HandlerOutcome}
      (hslot : SlotRun h w c ⟨p, credential, index, !rest.isEmpty, more⟩ l h.maxAttempts.toNat 1
        as v)
      (hleaves : LeavesPool v out) : PoolRun p more l (credential :: rest) index as out

end

/-! ### The handler follows the grammar -/

section

variable {h : ModelInvocationHandler} {w : World} {c : InvocationContext} {k : KeySlot}
variable {s : Machine}

lemma emits_emit {α : Type} {e : Event} {f : PUnit → Run α}
    {Q : List Event → EStateM.Result PyException Machine α → Prop}
    (hf : Emits Machine.log (f ⟨⟩) { s with log := s.log ++ [e] } fun fs r => Q (e :: fs) r) :
    Emits Machine.log (emit e >>= f) s Q :=
  emits_step rfl rfl hf

lemma emits_update {α : Type} {g : Scratch → Scratch} {f : PUnit → Run α}
    {Q : List Event → EStateM.Result PyException Machine α → Prop}
    (hf : Emits Machine.log (f ⟨⟩) { s with scratch := g s.scratch } Q) :
    Emits Machine.log (updateScratch g >>= f) s Q :=
  emits_step rfl (List.append_nil s.log).symm hf

lemma emits_record {α : Type} {r : AttemptRecord} {f : PUnit → Run α}
    {Q : List Event → EStateM.Result PyException Machine α → Prop}
    (hf : Emits Machine.log (f ⟨⟩)
      { s with
        scratch := { s.scratch with attempts := s.scratch.attempts ++ [r] }
        log := s.log ++ [.recorded r] } fun fs r' => Q (.recorded r :: fs) r') :
    Emits Machine.log (recordAttempt r >>= f) s Q :=
  emits_step rfl rfl hf

lemma emits_complete {α : Type} {attempt : ℕ} {f : CallResult → Run α}
    {Q : List Event → EStateM.Result PyException Machine α → Prop}
    (hf : Emits Machine.log (f (answerTo w c k s.log))
      { s with log := s.log ++ [.called (callOf c k attempt) (answerTo w c k s.log)] }
      fun fs r => Q (.called (callOf c k attempt) (answerTo w c k s.log) :: fs) r) :
    Emits Machine.log (complete w c k attempt >>= f) s Q :=
  emits_step rfl rfl hf

lemma emits_giveUp (exc : VendorError) :
    Emits Machine.log (giveUp k (k.provider.classifyError exc) exc) s fun es r =>
      es = [] ∧ answer r = (settled k (k.provider.classifyError exc)).verdict := by
  unfold giveUp settled
  split_ifs
  · exact emits_pure ⟨rfl, rfl⟩
  · exact emits_pure ⟨rfl, rfl⟩
  · exact emits_update (emits_pure ⟨rfl, rfl⟩)

lemma emits_onError (exc : VendorError) (attempt : ℕ) :
    Emits Machine.log (h.onError k exc attempt) s fun es r =>
      es = .recorded (failureRecord k exc) :: hints h k exc attempt ∧
        answer r = (reaction h k exc attempt).verdict := by
  unfold hints reaction
  refine emits_record ?_
  dsimp only
  split_ifs with hretry hconsult
  · exact emits_pure ⟨rfl, rfl⟩
  · refine emits_emit ?_
    cases k.provider.retryAfterSeconds exc with
    | error e => exact emits_throw ⟨rfl, rfl⟩
    | ok hint =>
      cases hint with
      | none => exact emits_pure ⟨rfl, rfl⟩
      | some x =>
        change Emits Machine.log (if x.le h.rateLimitMaxWait then _ else _) _ _
        dsimp only
        split_ifs
        · exact emits_pure ⟨rfl, rfl⟩
        · refine (emits_giveUp exc).mono ?_
          rintro es r ⟨rfl, hr⟩
          exact ⟨rfl, hr⟩
  · refine (emits_giveUp exc).mono ?_
    rintro es r ⟨rfl, hr⟩
    exact ⟨rfl, hr⟩

lemma emits_backoff (exc : VendorError) (attempt : ℕ) :
    Emits Machine.log (h.backoff k exc attempt) s fun es r =>
      es = [.backedOff k.provider attempt exc (h.backoffDelay attempt k.provider exc)] ∧
        answer r = nap h k exc attempt := by
  unfold backoff nap
  refine emits_emit ?_
  cases h.backoffDelay attempt k.provider exc with
  | error e => exact emits_throw ⟨rfl, rfl⟩
  | ok d =>
    change Emits Machine.log (orRaise (sleep d)) _ _
    cases hsleep : sleep d with
    | error e => exact emits_throw ⟨rfl, hsleep.symm⟩
    | ok u => exact emits_pure ⟨rfl, hsleep.symm⟩

lemma emits_onSuccess (response : CompletionResponse) :
    Emits Machine.log (onSuccess w c k response) s fun es r =>
      (∀ e ∈ es, Event.settles e) ∧ answer r = .ok .success := by
  refine emits_record (emits_update (emits_get ?_))
  cases s.scratch.reservation with
  | none => exact emits_pure ⟨by simp [Event.settles], rfl⟩
  | some d => exact emits_step rfl rfl (emits_pure ⟨by simp [Event.settles], rfl⟩)

/-- A run appends the events of some attempts, and they and its answer are as the predicate
says. -/
def Attempts {α : Type} (x : Run α) (s : Machine)
    (Q : List Attempt → Except PyException α → Prop) : Prop :=
  Emits Machine.log x s fun es r => ∃ as, es = as.flatMap Attempt.events ∧ Q as (answer r)

/-- **One attempt.** -/
lemma emits_attemptOnce (attempt : ℕ) :
    Emits Machine.log (h.attemptOnce w c k attempt) s fun es r =>
      ∃ a, es = Attempt.events a ∧
        AttemptRun h c k attempt (answerTo w c k s.log) a (answer r) := by
  unfold attemptOnce
  refine emits_complete ?_
  cases answerTo w c k s.log with
  | returned response =>
    refine emits_bind (emits_onSuccess response) ?_ ?_
    · rintro es o t ⟨hes, ho⟩
      cases ho
      exact emits_pure ⟨_, by rw [List.append_nil]; rfl, .served hes⟩
    · rintro es e t ⟨-, he⟩
      cases he
  | raisedLibrary e => exact emits_throw ⟨_, rfl, .library e⟩
  | raised exc =>
    have hrun : ∀ {fs out}, fs = afterFailure h k exc attempt →
        out = (reaction h k exc attempt).ending h k exc attempt →
        ∃ a, .called (callOf c k attempt) (.raised exc) :: fs = Attempt.events a ∧
          AttemptRun h c k attempt (.raised exc) a out := by
      rintro fs out rfl rfl
      exact ⟨_, rfl, .failed exc⟩
    unfold afterFailure at hrun
    refine emits_bind (emits_onError exc attempt) ?_ ?_
    · rintro es v t ⟨rfl, hv⟩
      cases hreaction : reaction h k exc attempt with
      | retry =>
        rw [hreaction] at hv hrun
        cases hv
        refine emits_bind (emits_backoff exc attempt) ?_ ?_
        · rintro es u t ⟨rfl, hnap⟩
          exact emits_pure (hrun (by simp [Reaction.events]) (by rw [Reaction.ending, ← hnap]; rfl))
        · rintro es e t ⟨rfl, hnap⟩
          exact hrun (by simp [Reaction.events]) (by rw [Reaction.ending, ← hnap]; rfl)
      | leave =>
        rw [hreaction] at hv hrun
        cases hv
        exact emits_pure (hrun (by simp [Reaction.events]) rfl)
      | stop =>
        rw [hreaction] at hv hrun
        cases hv
        exact emits_pure (hrun (by simp [Reaction.events]) rfl)
      | raised e =>
        rw [hreaction] at hv
        cases hv
    · rintro es e t ⟨rfl, hv⟩
      cases hreaction : reaction h k exc attempt with
      | raised e =>
        rw [hreaction] at hv hrun
        cases hv
        exact hrun (by simp [Reaction.events]) rfl
      | _ =>
        rw [hreaction] at hv
        cases hv

lemma emits_attemptLoop (n attempt : ℕ) :
    Attempts (h.attemptLoop w c k n attempt) s (SlotRun h w c k s.log n attempt) := by
  induction n generalizing s attempt with
  | zero => exact emits_pure ⟨[], rfl, .spent _ _⟩
  | succ n ih =>
    refine emits_bind (emits_attemptOnce attempt).located ?_ ?_
    · rintro es v t ⟨⟨a, rfl, hrun⟩, hlog⟩
      cases v with
      | again =>
        refine (ih (attempt + 1)).mono ?_
        rintro fs r ⟨as, rfl, hrest⟩
        rw [show t.log = s.log ++ a.events from hlog] at hrest
        exact ⟨a :: as, rfl, .again hrun hrest⟩
      | nextKey => exact emits_pure ⟨[a], by simp, .ended hrun .nextKey⟩
      | done o => exact emits_pure ⟨[a], by simp, .ended hrun (.done o)⟩
    · rintro es e t ⟨⟨a, rfl, hrun⟩, -⟩
      exact ⟨[a], by simp, .ended hrun (.raised e)⟩

lemma emits_keyLoop (p : ModelProvider) (more : Bool) (keys : List (Option Credential))
    (index : ℕ) :
    Attempts (h.keyLoop w c p more keys index) s (PoolRun h w c p more s.log keys index) := by
  induction keys generalizing s index with
  | nil => exact emits_pure ⟨[], rfl, .exhausted _ _⟩
  | cons credential rest ih =>
    refine emits_bind (emits_attemptLoop _ 1).located ?_ ?_
    · rintro es v t ⟨⟨as, rfl, hrun⟩, hlog⟩
      cases v with
      | none =>
        refine (ih (index + 1)).mono ?_
        rintro fs r ⟨bs, rfl, hrest⟩
        rw [show t.log = s.log ++ as.flatMap Attempt.events from hlog] at hrest
        exact ⟨as ++ bs, List.flatMap_append.symm, .next hrun hrest⟩
      | some o => exact emits_pure ⟨as, by simp, .ended hrun (.done o)⟩
    · rintro es e t ⟨⟨as, rfl, hrun⟩, -⟩
      exact ⟨as, rfl, .ended hrun (.raised e)⟩

end

/-! ### The attempts of a log -/

def Event.isCall : Event → Bool
  | .called .. => true
  | _ => false

/-- The attempts among some events, in order. -/
def attempts : List Event → List Attempt
  | [] => []
  | .called call result :: es =>
    ⟨call, result, es.takeWhile fun e => !Event.isCall e⟩ :: attempts es
  | _ :: es => attempts es

lemma attempts_append_of_no_call {es fs : List Event} (hes : ∀ e ∈ es, Event.isCall e = false) :
    attempts (es ++ fs) = attempts fs := by
  induction es with
  | nil => rfl
  | cons e es ih =>
    have hrest := ih fun e' he' => hes e' (by simp [he'])
    have he := hes e (by simp)
    cases e <;> first | exact hrest | cases he

/-- Attempts without a call in their aftermath are read back off their events. -/
lemma attempts_flatMap {as : List Attempt}
    (has : ∀ a ∈ as, ∀ e ∈ a.aftermath, Event.isCall e = false) :
    attempts (as.flatMap Attempt.events) = as := by
  induction as with
  | nil => rfl
  | cons a as ih =>
    have ha := has a (by simp)
    have hrest := ih fun b hb => has b (by simp [hb])
    have hfirst : (as.flatMap Attempt.events).takeWhile (fun e => !Event.isCall e) = [] := by
      cases as <;> rfl
    rw [List.flatMap_cons, Attempt.events, List.cons_append, attempts,
      attempts_append_of_no_call ha, hrest, List.takeWhile_append_of_pos (by simpa using ha),
      hfirst, List.append_nil]

lemma callsIn_flatMap {as : List Attempt}
    (has : ∀ a ∈ as, ∀ e ∈ a.aftermath, Event.isCall e = false) :
    callsIn (as.flatMap Attempt.events) = as.map fun a => (a.call, a.result) := by
  induction as with
  | nil => rfl
  | cons a as ih =>
    have hnone : callsIn a.aftermath = [] := by
      refine callsIn_eq_nil fun e he call result heq => ?_
      have hcall := has a (by simp) e he
      rw [heq] at hcall
      cases hcall
    rw [List.flatMap_cons, callsIn_append, ih fun b hb => has b (by simp [hb]), Attempt.events,
      callsIn_called, hnone]
    rfl

section

variable {h : ModelInvocationHandler} {w : World} {c : InvocationContext} {k : KeySlot}

lemma afterFailure_no_call (exc : VendorError) (attempt : ℕ) :
    ∀ e ∈ afterFailure h k exc attempt, Event.isCall e = false := by
  have hhints : ∀ e ∈ hints h k exc attempt, Event.isCall e = false := by
    unfold hints
    dsimp only
    split_ifs <;> simp [Event.isCall]
  have hevents : ∀ r : Reaction, ∀ e ∈ r.events h k exc attempt, Event.isCall e = false := by
    intro r
    cases r <;> simp [Reaction.events, Event.isCall]
  intro e he
  rcases List.mem_cons.mp he with rfl | he
  · rfl
  · rcases List.mem_append.mp he with he | he
    · exact hhints e he
    · exact hevents _ e he

/-- An attempt of the run with a key: its call, and what its failure leaves. -/
structure Made (h : ModelInvocationHandler) (c : InvocationContext) (k : KeySlot) (a : Attempt) :
    Prop where
  call : a.call = callOf c k a.call.attempt
  one_le : 1 ≤ a.call.attempt
  le_max : a.call.attempt ≤ h.maxAttempts.toNat
  aftermath : ∀ exc, a.result = .raised exc →
    a.aftermath = afterFailure h k exc a.call.attempt
  settled : (∀ exc, a.result ≠ .raised exc) → ∀ e ∈ a.aftermath, Event.settles e

/-- No second call is made within an attempt. -/
lemma Made.no_call {a : Attempt} (hmade : Made h c k a) :
    ∀ e ∈ a.aftermath, Event.isCall e = false := by
  by_cases hfailed : ∃ exc, a.result = .raised exc
  · obtain ⟨exc, hexc⟩ := hfailed
    rw [hmade.aftermath exc hexc]
    exact afterFailure_no_call exc _
  · intro e he
    have hsettles := hmade.settled (not_exists.mp hfailed) e he
    cases e <;> first | rfl | cases hsettles

lemma AttemptRun.call_eq {attempt : ℕ} {result : CallResult} {a : Attempt}
    {out : Except PyException Attempted} (ha : AttemptRun h c k attempt result a out) :
    a.call = callOf c k attempt := by
  cases ha <;> rfl

lemma AttemptRun.ending_eq {attempt : ℕ} {result : CallResult} {a : Attempt}
    {out : Except PyException Attempted} (ha : AttemptRun h c k attempt result a out)
    {exc : VendorError} (hexc : a.result = .raised exc) :
    out = (reaction h k exc attempt).ending h k exc attempt := by
  cases ha <;> cases hexc
  rfl

lemma AttemptRun.made {attempt : ℕ} {result : CallResult} {a : Attempt}
    {out : Except PyException Attempted} (ha : AttemptRun h c k attempt result a out)
    (h1 : 1 ≤ attempt) (hmax : attempt ≤ h.maxAttempts.toNat) : Made h c k a := by
  cases ha with
  | served htail => exact ⟨rfl, h1, hmax, nofun, fun _ => htail⟩
  | library e => exact ⟨rfl, h1, hmax, nofun, by simp⟩
  | failed exc =>
    refine ⟨rfl, h1, hmax, ?_, fun hnot => absurd rfl (hnot exc)⟩
    rintro exc' hexc
    cases hexc
    rfl

/-- Every attempt with a key is made by the loop, at its own number. -/
lemma SlotRun.made {l : List Event} {n attempt : ℕ} {as : List Attempt}
    {out : Except PyException (Option HandlerOutcome)} (hs : SlotRun h w c k l n attempt as out)
    (h1 : 1 ≤ attempt) (hmax : attempt + n = h.maxAttempts.toNat + 1) :
    ∀ a ∈ as, Made h c k a ∧ attempt ≤ a.call.attempt := by
  induction hs with
  | spent => simp
  | again ha _ ih =>
    intro a hmem
    rcases List.mem_cons.mp hmem with rfl | hmem
    · exact ⟨ha.made h1 (by omega), by rw [ha.call_eq]; rfl⟩
    · obtain ⟨hmade, hle⟩ := ih (by omega) (by omega) a hmem
      exact ⟨hmade, by omega⟩
  | ended ha =>
    intro a hmem
    rw [List.mem_singleton.mp hmem]
    exact ⟨ha.made h1 (by omega), by rw [ha.call_eq]; rfl⟩

/-- The slot of a call among so many keys. -/
def slotOf (more : Bool) (total : ℕ) (call : Call) : KeySlot :=
  ⟨call.provider, call.credential, call.index, call.index + 1 < total, more⟩

/-- The slot of an attempt with the first of some keys. -/
lemma SlotRun.slot_eq {p : ModelProvider} {more : Bool} {credential : Option Credential}
    {rest : List (Option Credential)} {index : ℕ} {l : List Event} {as : List Attempt}
    {v : Except PyException (Option HandlerOutcome)}
    (hs : SlotRun h w c ⟨p, credential, index, !rest.isEmpty, more⟩ l h.maxAttempts.toNat 1 as v) :
    ∀ a ∈ as, slotOf more (index + (credential :: rest).length) a.call =
      ⟨p, credential, index, !rest.isEmpty, more⟩ := by
  intro a ha
  have hmore : decide (index + 1 < index + (credential :: rest).length) = !rest.isEmpty := by
    cases rest <;> simp
  rw [(hs.made le_rfl (Nat.add_comm _ _) a ha).1.call]
  unfold slotOf callOf
  dsimp only
  rw [hmore]

/-- Every attempt of a run is made with the key of its call. -/
lemma PoolRun.made {p : ModelProvider} {more : Bool} {l : List Event}
    {keys : List (Option Credential)} {index : ℕ} {as : List Attempt}
    {out : Except PyException HandlerOutcome} (hp : PoolRun h w c p more l keys index as out) :
    ∀ a ∈ as, Made h c (slotOf more (index + keys.length) a.call) a ∧ index ≤ a.call.index := by
  have hfirst : ∀ {credential : Option Credential} {rest : List (Option Credential)} {index l as v},
      SlotRun h w c ⟨p, credential, index, !rest.isEmpty, more⟩ l h.maxAttempts.toNat 1 as v →
      ∀ a ∈ as, Made h c (slotOf more (index + (credential :: rest).length) a.call) a ∧
        index ≤ a.call.index := by
    intro credential rest index l as v hslot a hmem
    obtain ⟨hmade, -⟩ := hslot.made le_rfl (Nat.add_comm _ _) a hmem
    rw [hslot.slot_eq a hmem]
    exact ⟨hmade, by rw [hmade.call]; rfl⟩
  induction hp with
  | exhausted => simp
  | next hslot _ ih =>
    intro a hmem
    rcases List.mem_append.mp hmem with hmem | hmem
    · exact hfirst hslot a hmem
    · obtain ⟨hmade, hle⟩ := ih a hmem
      rw [Nat.add_right_comm] at hmade
      exact ⟨hmade, by omega⟩
  | ended hslot => exact hfirst hslot

end

/-! ### Runs of the handler -/

section

variable (h : ModelInvocationHandler) (w : World) (c : InvocationContext) (s : Machine)

/-- A run of the handler. -/
def invoked : EStateM.Result PyException Machine HandlerOutcome := (h.handle w c).run s

/-- The events a run appends. -/
def trace : List Event := (finalState (invoked h w c s)).log.drop s.log.length

/-- The attempts of a run. -/
def tried : List Attempt := attempts (trace h w c s)

/-- The keys a run goes over. -/
abbrev keys : List (Option Credential) := keysOf s.scratch.credentials

/-- **A run of the handler** for its current candidate follows the grammar. -/
theorem invoked_run {p : ModelProvider} {rest : List ModelProvider}
    (hp : c.candidates = p :: rest) :
    PoolRun h w c p (!rest.isEmpty) s.log (keys s) 0 (tried h w c s) (answer (invoked h w c s)) ∧
      callsIn (trace h w c s) = (tried h w c s).map fun a => (a.call, a.result) := by
  have hhandle : Attempts (h.handle w c) s
      (PoolRun h w c p (!rest.isEmpty) s.log (keys s) 0) := by
    unfold handle
    rw [hp]
    exact emits_get (emits_keyLoop p _ _ 0)
  obtain ⟨es, hlog, as, rfl, hrun⟩ := hhandle
  have htrace : trace h w c s = as.flatMap Attempt.events := by
    rw [trace, show (finalState (invoked h w c s)).log = s.log ++ as.flatMap Attempt.events
      from hlog, List.drop_left]
  have hnone : ∀ a ∈ as, ∀ e ∈ a.aftermath, Event.isCall e = false :=
    fun a ha => (hrun.made a ha).1.no_call
  rw [tried, htrace, attempts_flatMap hnone, callsIn_flatMap hnone]
  exact ⟨hrun, rfl⟩

/-- Without a candidate nothing is tried. -/
lemma tried_nil (hp : c.candidates = []) : tried h w c s = [] := by
  unfold tried trace invoked handle
  rw [hp]
  change attempts (s.log.drop s.log.length) = []
  rw [List.drop_length]
  rfl

/-- The slot of a call of a run. -/
def slotIn (call : Call) : KeySlot :=
  slotOf (decide (1 < c.candidates.length)) (keys s).length call

/-- Facts about the attempts of a run, from those of the grammar. -/
lemma tried_forall {P : Bool → ℕ → List Attempt → Prop} (hnil : ∀ more total, P more total [])
    (hrun : ∀ p more as out, PoolRun h w c p more s.log (keys s) 0 as out →
      P more (keys s).length as) :
    P (decide (1 < c.candidates.length)) (keys s).length (tried h w c s) := by
  cases hp : c.candidates with
  | nil =>
    rw [tried_nil h w c s hp]
    exact hnil _ _
  | cons p rest =>
    have hmore : decide (1 < (p :: rest).length) = !rest.isEmpty := by cases rest <;> simp
    rw [hmore]
    exact hrun p _ _ _ (invoked_run h w c s hp).1

/-- Every attempt of a run is made with the key of its call. -/
lemma tried_made : ∀ a ∈ tried h w c s, Made h c (slotIn c s a.call) a := by
  refine tried_forall h w c s
    (P := fun more total as => ∀ a ∈ as, Made h c (slotOf more total a.call) a) (by simp) ?_
  intro p more as out hpool a ha
  have hmade := (hpool.made a ha).1
  rwa [Nat.zero_add] at hmade

end

end ModelDispatcher.Rotation
