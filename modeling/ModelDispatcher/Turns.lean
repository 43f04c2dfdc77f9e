import ModelDispatcher.Chain
import ModelDispatcher.Lib.Runs

/-!
What one model turn leaves in the log, said without the program: a grammar of the events of an
attempt, of a key, of the keys of a candidate, of a pass over the handlers and of the turn,
each with the way it ends.

The grammar leaves open what the vendors answer and which failures are retried; it fixes the
order of the calls between components and the data they carry.
-/

namespace ModelDispatcher.Turns

open Lib.Text Lib.Floats Lib.Logged Lib.Runs DataTypes Exceptions Config Providers Quota Security
open Machines Handlers ModelInvocationHandler

/-- What a turn is about: the wiring, the request and the tenant. -/
structure Turn where
  world : World
  security : SecuritySettings
  handler : ModelInvocationHandler
  request : CompletionRequest
  tenant : TenantContext

/-- How a key, a candidate or a turn ends. A turn that runs out of candidates has raised. -/
inductive Ended
  | failed
  | served (response : CompletionResponse)
  | raised (e : PyException)

/-- How an attempt ends: with another one on the same key, or for good. -/
inductive AttemptEnded
  | again
  | ended (e : Ended)

/-- A retry's delay that cannot be computed or slept raises; otherwise the key is tried again. -/
def napEnds (delay : Except BuiltinError PyFloat) : AttemptEnded :=
  match delay with
  | .error e => .ended (.raised (.builtin e))
  | .ok d => match sleep d with
    | .error e => .ended (.raised e)
    | .ok () => .again

variable (T : Turn)

/-- The hint of a failure was looked at, or not. -/
inductive HintLog (p : ModelProvider) (exc : VendorError) : List Event → Prop
  | skipped : HintLog p exc []
  | looked {hint : Option PyFloat} (h : p.retryAfterSeconds exc = .ok hint) :
      HintLog p exc [.hinted p exc]

/-- After the record of a failure. -/
inductive AfterFailure (p : ModelProvider) (exc : VendorError) (attempt : ℕ) :
    List Event → AttemptEnded → Prop
  | gaveUp {hs : List Event} (h : HintLog p exc hs) : AfterFailure p exc attempt hs (.ended .failed)
  | stopped {hs : List Event} (h : HintLog p exc hs) (e : ModelDispatcherError) :
      AfterFailure p exc attempt hs (.ended (.raised (.library e)))
  | badHint {e : BuiltinError} (h : p.retryAfterSeconds exc = .error e) :
      AfterFailure p exc attempt [.hinted p exc] (.ended (.raised (.builtin e)))
  | napped {hs : List Event} (h : HintLog p exc hs) {delay : Except BuiltinError PyFloat}
      (hdelay : T.handler.backoffDelay attempt p exc = delay) :
      AfterFailure p exc attempt (hs ++ [.backedOff p attempt exc delay]) (napEnds delay)

/-- A pooled key of a candidate, under the reservation its pass holds. -/
structure Key where
  provider : ModelProvider
  credential : Option Credential
  index : ℕ
  reservation : QuotaDecision

def Key.apiKey (k : Key) : Option PyStr := k.credential.bind Credential.rawKey

def Key.ref (k : Key) : Option PyStr := k.credential.map (·.secretRef)

/-- The call an attempt makes. -/
def callOf (k : Key) (attempt : ℕ) : Call :=
  ⟨k.provider, T.request, k.apiKey, k.credential, k.index, attempt⟩

def successRecord (k : Key) : AttemptRecord :=
  { providerName := k.provider.name, credentialRef := k.ref }

def failureRecord (k : Key) (exc : VendorError) : AttemptRecord :=
  { providerName := k.provider.name, errorClass := some (k.provider.classifyError exc),
    detail := some exc.text, credentialRef := k.ref }

/-- The vendor may answer a call on the key so. -/
def Answers (k : Key) (result : CallResult) : Prop :=
  ∃ log, T.world.complete log k.provider T.request k.apiKey = result

inductive AttemptLog (k : Key) (attempt : ℕ) : List Event → AttemptEnded → Prop
  | served {response : CompletionResponse} (hres : Answers T k (.returned response)) :
      AttemptLog k attempt
        [.called (callOf T k attempt) (.returned response), .recorded (successRecord k),
          .committed T.tenant k.reservation response.usage] (.ended (.served response))
  | library {e : ModelDispatcherError} (hres : Answers T k (.raisedLibrary e)) :
      AttemptLog k attempt [.called (callOf T k attempt) (.raisedLibrary e)]
        (.ended (.raised (.library e)))
  | failed {exc : VendorError} {es : List Event} {out : AttemptEnded}
      (hres : Answers T k (.raised exc)) (h : AfterFailure T k.provider exc attempt es out) :
      AttemptLog k attempt
        (.called (callOf T k attempt) (.raised exc) :: .recorded (failureRecord k exc) :: es) out

/-- The attempts left with a key, from an attempt number on. -/
inductive KeyLog (k : Key) : ℕ → ℕ → List Event → Ended → Prop
  | spent (attempt : ℕ) : KeyLog k 0 attempt [] .failed
  | again {n attempt : ℕ} {es fs : List Event} {out : Ended}
      (h : AttemptLog T k attempt es .again) (hrest : KeyLog k n (attempt + 1) fs out) :
      KeyLog k (n + 1) attempt (es ++ fs) out
  | ended {n attempt : ℕ} {es : List Event} {out : Ended}
      (h : AttemptLog T k attempt es (.ended out)) : KeyLog k (n + 1) attempt es out

/-- The keys left of a candidate, from an index on. -/
inductive KeysLog (p : ModelProvider) (d : QuotaDecision) :
    List (Option Credential) → ℕ → List Event → Ended → Prop
  | exhausted (index : ℕ) : KeysLog p d [] index [] .failed
  | next {credential : Option Credential} {rest : List (Option Credential)} {index : ℕ}
      {es fs : List Event} {out : Ended}
      (h : KeyLog T ⟨p, credential, index, d⟩ T.handler.maxAttempts.toNat 1 es .failed)
      (hrest : KeysLog p d rest (index + 1) fs out) :
      KeysLog p d (credential :: rest) index (es ++ fs) out
  | ended {credential : Option Credential} {rest : List (Option Credential)} {index : ℕ}
      {es : List Event} {out : Ended}
      (h : KeyLog T ⟨p, credential, index, d⟩ T.handler.maxAttempts.toNat 1 es out)
      (hout : out ≠ .failed) : KeysLog p d (credential :: rest) index es out

/-- The perimeter, the credentials and the quota have let a candidate through. -/
def admitted (p : ModelProvider) (creds : List Credential) (q : QuotaState)
    (d : QuotaDecision) : List Event :=
  [.validated T.request T.tenant (.ok ()), .resolved p (.ok creds),
    .reserved p (p.estimateTokens T.request) q (.ok d)]

/-- The reservation of a candidate on a quota state. -/
def reservation (p : ModelProvider) (q : QuotaState) : Except BuiltinError QuotaDecision :=
  answer ((QuotaManager.reserve T.world.monotonic T.tenant (p.estimateTokens T.request)
    p.name).run q)

/-- One pass over the handlers for a candidate. -/
inductive PassLog (p : ModelProvider) : List Event → Ended → Prop
  | rejected {e : PyException}
      (h : PerimeterValidator.validate T.security T.request T.tenant = .error e) :
      PassLog p [.validated T.request T.tenant (.error e)] (.raised e)
  | unresolved {e : ModelDispatcherError}
      (hv : PerimeterValidator.validate T.security T.request T.tenant = .ok ())
      (h : CredentialResolver.resolveCandidates T.tenant p = .error e) :
      PassLog p [.validated T.request T.tenant (.ok ()), .resolved p (.error e)]
        (.raised (.library e))
  | unjudged {creds : List Credential} {q : QuotaState} {e : BuiltinError}
      (hv : PerimeterValidator.validate T.security T.request T.tenant = .ok ())
      (hc : CredentialResolver.resolveCandidates T.tenant p = .ok creds)
      (h : reservation T p q = .error e) :
      PassLog p [.validated T.request T.tenant (.ok ()), .resolved p (.ok creds),
        .reserved p (p.estimateTokens T.request) q (.error e)] (.raised (.builtin e))
  | deniedNext {creds : List Credential} {q : QuotaState} {d : QuotaDecision}
      (hv : PerimeterValidator.validate T.security T.request T.tenant = .ok ())
      (hc : CredentialResolver.resolveCandidates T.tenant p = .ok creds)
      (h : reservation T p q = .ok d) (hd : ¬ d.granted) :
      PassLog p (admitted T p creds q d) .failed
  | deniedStop {creds : List Credential} {q : QuotaState} {d : QuotaDecision}
      (hv : PerimeterValidator.validate T.security T.request T.tenant = .ok ())
      (hc : CredentialResolver.resolveCandidates T.tenant p = .ok creds)
      (h : reservation T p q = .ok d) (hd : ¬ d.granted) (e : ModelDispatcherError) :
      PassLog p (admitted T p creds q d) (.raised (.library e))
  | invoked {creds : List Credential} {q : QuotaState} {d : QuotaDecision} {es : List Event}
      {out : Ended} (hv : PerimeterValidator.validate T.security T.request T.tenant = .ok ())
      (hc : CredentialResolver.resolveCandidates T.tenant p = .ok creds)
      (h : reservation T p q = .ok d) (hd : d.granted)
      (hkeys : KeysLog T p d (keysOf creds) 0 es out) :
      PassLog p (admitted T p creds q d ++ es) out

/-- The candidates left of a turn. -/
inductive TurnLog : List ModelProvider → List Event → Ended → Prop
  | exhausted (message : FString) :
      TurnLog [] [] (.raised (.library (.allProvidersExhausted message)))
  | next {p : ModelProvider} {rest : List ModelProvider} {es fs : List Event} {out : Ended}
      (h : PassLog T p es .failed) (hrest : TurnLog rest fs out) :
      TurnLog (p :: rest) (.passStarted :: es ++ fs) out
  | ended {p : ModelProvider} {rest : List ModelProvider} {es : List Event} {out : Ended}
      (h : PassLog T p es out) (hout : out ≠ .failed) :
      TurnLog (p :: rest) (.passStarted :: es) out

/-! ### The state, read off the log -/

/-- The attempt records among some events. -/
def recordsIn (es : List Event) : List AttemptRecord :=
  es.filterMap fun
    | .recorded r => some r
    | _ => none

@[simp] lemma recordsIn_nil : recordsIn [] = [] := rfl
@[simp] lemma recordsIn_called (c : Call) (r : CallResult) (es : List Event) :
    recordsIn (.called c r :: es) = recordsIn es := rfl
@[simp] lemma recordsIn_recorded (r : AttemptRecord) (es : List Event) :
    recordsIn (.recorded r :: es) = r :: recordsIn es := rfl
@[simp] lemma recordsIn_append (es fs : List Event) :
    recordsIn (es ++ fs) = recordsIn es ++ recordsIn fs := List.filterMap_append

/-- The provider calls among some events, with their results. -/
def callsIn (es : List Event) : List (Call × CallResult) :=
  es.filterMap fun
    | .called call result => some (call, result)
    | _ => none

@[simp] lemma callsIn_nil : callsIn [] = [] := rfl
@[simp] lemma callsIn_called (c : Call) (r : CallResult) (es : List Event) :
    callsIn (.called c r :: es) = (c, r) :: callsIn es := rfl
@[simp] lemma callsIn_recorded (r : AttemptRecord) (es : List Event) :
    callsIn (.recorded r :: es) = callsIn es := rfl
@[simp] lemma callsIn_append (es fs : List Event) :
    callsIn (es ++ fs) = callsIn es ++ callsIn fs := List.filterMap_append

lemma mem_callsIn {es : List Event} {x : Call × CallResult} :
    x ∈ callsIn es ↔ .called x.1 x.2 ∈ es := by
  constructor
  · intro h
    obtain ⟨e, he, hx⟩ := List.mem_filterMap.mp h
    cases e <;> cases hx
    exact he
  · exact fun h => List.mem_filterMap.mpr ⟨_, h, rfl⟩

lemma callsIn_eq_nil {es : List Event} (h : ∀ e ∈ es, ∀ call result, e ≠ .called call result) :
    callsIn es = [] := by
  refine List.eq_nil_iff_forall_not_mem.mpr fun x hx => ?_
  exact h _ (mem_callsIn.mp hx) _ _ rfl

/-- The event does not touch the quota state. -/
def Event.inert : Event → Bool
  | .reserved .. => false
  | .committed .. => false
  | _ => true

/-- What an event does to the quota state. -/
inductive QuotaStep : QuotaState → Event → QuotaState → Prop
  | inert {q : QuotaState} {e : Event} (h : Event.inert e) : QuotaStep q e q
  | reserved {q : QuotaState} (p : ModelProvider) (estimate : ℤ) :
      QuotaStep q
        (.reserved p estimate q (answer
          ((QuotaManager.reserve T.world.monotonic T.tenant estimate p.name).run q)))
        (finalState ((QuotaManager.reserve T.world.monotonic T.tenant estimate p.name).run q))
  | committed {q : QuotaState} (d : QuotaDecision) (u : Usage) :
      QuotaStep q (.committed T.tenant d u)
        (finalState ((QuotaManager.commit T.world.monotonic T.tenant d u).run q))

/-- The events account for the records and the quota state between two machines. -/
structure Traced (s : Machine) (es : List Event) (t : Machine) : Prop where
  records : t.scratch.attempts = s.scratch.attempts ++ recordsIn es
  quota : Steps (QuotaStep T) s.quota es t.quota

variable {T}

lemma Traced.trans {s t u : Machine} {es fs : List Event} (h : Traced T s es t)
    (h' : Traced T t fs u) : Traced T s (es ++ fs) u :=
  ⟨by rw [h'.records, h.records, recordsIn_append, List.append_assoc], h.quota.append h'.quota⟩

lemma Traced.nil {s t : Machine} (hr : t.scratch.attempts = s.scratch.attempts)
    (hq : t.quota = s.quota) : Traced T s [] t :=
  ⟨by simp [hr, recordsIn], by rw [hq]; exact .refl⟩

lemma Traced.inert {s t : Machine} {e : Event} (he : Event.inert e)
    (hr : t.scratch.attempts = s.scratch.attempts ++ recordsIn [e]) (hq : t.quota = s.quota) :
    Traced T s [e] t :=
  ⟨hr, by rw [hq]; exact Steps.single (.inert he)⟩

/-! ### Facts about every event of a part -/

section Forall

variable {P : Event → Prop}

lemma HintLog.forall {p : ModelProvider} {exc : VendorError} {es : List Event}
    (h : HintLog p exc es) (hP : P (.hinted p exc)) : ∀ e ∈ es, P e := by
  cases h with
  | skipped => simp
  | looked => simpa using hP

lemma AfterFailure.forall {p : ModelProvider} {exc : VendorError} {attempt : ℕ}
    {es : List Event} {out : AttemptEnded} (h : AfterFailure T p exc attempt es out)
    (hhint : P (.hinted p exc)) (hnap : ∀ delay, P (.backedOff p attempt exc delay)) :
    ∀ e ∈ es, P e := by
  cases h with
  | gaveUp hs => exact hs.forall hhint
  | stopped hs => exact hs.forall hhint
  | badHint => simpa using hhint
  | napped hs =>
    intro e he
    rcases List.mem_append.mp he with he | he
    · exact hs.forall hhint e he
    · rw [List.mem_singleton.mp he]
      exact hnap _

lemma KeyLog.forall {k : Key} {n attempt : ℕ} {es : List Event} {out : Ended}
    (h : KeyLog T k n attempt es out)
    (hP : ∀ a es out, attempt ≤ a → a < attempt + n → AttemptLog T k a es out → ∀ e ∈ es, P e) :
    ∀ e ∈ es, P e := by
  induction h with
  | spent => simp
  | again h _ ih =>
    intro e he
    rcases List.mem_append.mp he with he | he
    · exact hP _ _ _ le_rfl (by omega) h e he
    · exact ih (fun a es out ha hn => hP a es out (by omega) (by omega)) e he
  | ended h => exact hP _ _ _ le_rfl (by omega) h

lemma KeysLog.forall {p : ModelProvider} {d : QuotaDecision} {keys : List (Option Credential)}
    {index : ℕ} {es : List Event} {out : Ended} (h : KeysLog T p d keys index es out)
    (hP : ∀ credential ∈ keys, ∀ j a es out, 1 ≤ a → a ≤ T.handler.maxAttempts.toNat →
      AttemptLog T ⟨p, credential, j, d⟩ a es out → ∀ e ∈ es, P e) : ∀ e ∈ es, P e := by
  induction h with
  | exhausted => simp
  | next h _ ih =>
    intro e he
    rcases List.mem_append.mp he with he | he
    · exact h.forall (fun a es out ha hn => hP _ (by simp) _ a es out ha (by omega)) e he
    · exact ih (fun c hc => hP c (by simp [hc])) e he
  | ended h => exact h.forall fun a es out ha hn => hP _ (by simp) _ a es out ha (by omega)

lemma TurnLog.forall {candidates : List ModelProvider} {es : List Event} {out : Ended}
    (h : TurnLog T candidates es out) (hstart : P .passStarted)
    (hP : ∀ p ∈ candidates, ∀ es out, PassLog T p es out → ∀ e ∈ es, P e) :
    ∀ e ∈ es, P e := by
  induction h with
  | exhausted => simp
  | next h _ ih =>
    intro e he
    rcases List.mem_append.mp he with he | he
    · rcases List.mem_cons.mp he with rfl | he
      · exact hstart
      · exact hP _ (by simp) _ _ h e he
    · exact ih (fun p hp => hP p (by simp [hp])) e he
  | ended h =>
    intro e he
    rcases List.mem_cons.mp he with rfl | he
    · exact hstart
    · exact hP _ (by simp) _ _ h e he

end Forall

/-- A failure never ends in a response. -/
lemma AfterFailure.not_served {p : ModelProvider} {exc : VendorError} {attempt : ℕ}
    {es : List Event} {out : Ended} (h : AfterFailure T p exc attempt es (.ended out)) :
    out = .failed ∨ ∃ e, out = .raised e := by
  generalize hout : AttemptEnded.ended out = o at h
  cases h with
  | gaveUp => cases hout; exact .inl rfl
  | stopped => cases hout; exact .inr ⟨_, rfl⟩
  | badHint => cases hout; exact .inr ⟨_, rfl⟩
  | napped =>
    unfold napEnds at hout
    split at hout
    · cases hout; exact .inr ⟨_, rfl⟩
    · split at hout
      · cases hout; exact .inr ⟨_, rfl⟩
      · cases hout

/-! ### Facts that concatenation keeps -/

/-- A pass starts, or makes one of its checks. -/
def Event.isCheck : Event → Bool
  | .passStarted => true
  | .validated .. => true
  | .resolved .. => true
  | .reserved .. => true
  | _ => false

section Closed

variable {R : List Event → Prop} (hnil : R []) (happend : ∀ {es fs}, R es → R fs → R (es ++ fs))

include hnil happend

lemma closed_of_checks (hcheck : ∀ e, Event.isCheck e → R [e]) {es : List Event}
    (h : ∀ e ∈ es, Event.isCheck e) : R es := by
  induction es with
  | nil => exact hnil
  | cons e es ih =>
    exact happend (hcheck e (h e (by simp))) (ih fun e' he' => h e' (by simp [he']))

variable (hattempt : ∀ k a es out, AttemptLog T k a es out → R es)

include hattempt

lemma KeyLog.closed {k : Key} {n attempt : ℕ} {es : List Event} {out : Ended}
    (h : KeyLog T k n attempt es out) : R es := by
  induction h with
  | spent => exact hnil
  | again h _ ih => exact happend (hattempt _ _ _ _ h) ih
  | ended h => exact hattempt _ _ _ _ h

lemma KeysLog.closed {p : ModelProvider} {d : QuotaDecision} {keys : List (Option Credential)}
    {index : ℕ} {es : List Event} {out : Ended} (h : KeysLog T p d keys index es out) : R es := by
  induction h with
  | exhausted => exact hnil
  | next h _ ih => exact happend (h.closed hnil happend hattempt) ih
  | ended h => exact h.closed hnil happend hattempt

variable (hcheck : ∀ e, Event.isCheck e → R [e])

include hcheck

lemma PassLog.closed {p : ModelProvider} {es : List Event} {out : Ended}
    (h : PassLog T p es out) : R es := by
  have hchecks : ∀ {es : List Event}, (∀ e ∈ es, Event.isCheck e) → R es :=
    closed_of_checks hnil happend hcheck
  cases h with
  | rejected => exact hcheck _ rfl
  | unresolved => exact hchecks (by simp [Event.isCheck])
  | unjudged => exact hchecks (by simp [Event.isCheck])
  | deniedNext => exact hchecks (by simp [admitted, Event.isCheck])
  | deniedStop => exact hchecks (by simp [admitted, Event.isCheck])
  | invoked _ _ _ _ hkeys =>
    exact happend (hchecks (by simp [admitted, Event.isCheck]))
      (hkeys.closed hnil happend hattempt)

lemma TurnLog.closed {candidates : List ModelProvider} {es : List Event} {out : Ended}
    (h : TurnLog T candidates es out) : R es := by
  induction h with
  | exhausted => exact hnil
  | next h _ ih =>
    have hpass := happend (hcheck .passStarted rfl) (h.closed hnil happend hattempt hcheck)
    exact happend hpass ih
  | ended h => exact happend (hcheck .passStarted rfl) (h.closed hnil happend hattempt hcheck)

end Closed

/-! ### Passes -/

def Event.startsPass : Event → Bool
  | .passStarted => true
  | _ => false

/-- The events of each pass over the handlers, without the mark it starts with. -/
def passes : List Event → List (List Event)
  | [] => []
  | e :: es =>
    if Event.startsPass e then es.takeWhile (fun e => !Event.startsPass e) :: passes es
    else passes es

lemma AttemptLog.not_startsPass {k : Key} {attempt : ℕ} {es : List Event} {out : AttemptEnded}
    (h : AttemptLog T k attempt es out) : ∀ e ∈ es, Event.startsPass e = false := by
  cases h with
  | served => simp [Event.startsPass]
  | library => simp [Event.startsPass]
  | failed _ h =>
    have hes := h.forall (P := fun e => Event.startsPass e = false) rfl fun _ => rfl
    simpa [Event.startsPass] using hes

lemma PassLog.not_startsPass {p : ModelProvider} {es : List Event} {out : Ended}
    (h : PassLog T p es out) : ∀ e ∈ es, Event.startsPass e = false := by
  cases h with
  | rejected => simp [Event.startsPass]
  | unresolved => simp [Event.startsPass]
  | unjudged => simp [Event.startsPass]
  | deniedNext => simp [admitted, Event.startsPass]
  | deniedStop => simp [admitted, Event.startsPass]
  | @invoked creds q d _ _ _ _ _ _ hkeys =>
    have hadm : ∀ e ∈ admitted T p creds q d, Event.startsPass e = false := by
      simp [admitted, Event.startsPass]
    intro e he
    rcases List.mem_append.mp he with he | he
    · exact hadm e he
    · exact hkeys.forall (fun c _ j a es out _ _ h => h.not_startsPass) e he

lemma passes_append_of_not_start {es fs : List Event}
    (h : ∀ e ∈ es, Event.startsPass e = false) : passes (es ++ fs) = passes fs := by
  induction es with
  | nil => rfl
  | cons e es ih =>
    rw [List.cons_append, passes, if_neg (by simp [h e])]
    exact ih fun e' he' => h e' (by simp [he'])

/-- A turn starts with a pass, if it does anything. -/
lemma TurnLog.head {candidates : List ModelProvider} {es : List Event} {out : Ended}
    (h : TurnLog T candidates es out) : es = [] ∨ ∃ es', es = .passStarted :: es' := by
  cases h with
  | exhausted => exact .inl rfl
  | next => exact .inr ⟨_, rfl⟩
  | ended => exact .inr ⟨_, rfl⟩

lemma passes_next {p : ModelProvider} {es fs : List Event} {out out' : Ended}
    {rest : List ModelProvider} (h : PassLog T p es out) (hrest : TurnLog T rest fs out') :
    passes (.passStarted :: es ++ fs) = es :: passes fs := by
  have hes := h.not_startsPass
  rw [List.cons_append, passes, if_pos (show Event.startsPass .passStarted = true from rfl),
    passes_append_of_not_start hes, List.takeWhile_append_of_pos (by simpa using hes)]
  rcases hrest.head with rfl | ⟨fs', rfl⟩
  · simp
  · simp [Event.startsPass]

lemma passes_ended {p : ModelProvider} {es : List Event} {out : Ended} (h : PassLog T p es out) :
    passes (.passStarted :: es) = [es] := by
  simpa [passes] using passes_next h (.exhausted [])

/-- Every event of a turn is in one of its passes, after the mark. -/
lemma TurnLog.flatMap_passes {candidates : List ModelProvider} {es : List Event} {out : Ended}
    (h : TurnLog T candidates es out) : (passes es).flatMap (.passStarted :: ·) = es := by
  induction h with
  | exhausted => rfl
  | next h hrest ih => rw [passes_next h hrest, List.flatMap_cons, ih, List.cons_append]
  | ended h => simp [passes_ended h]

/-- The passes of a turn are passes for its candidates, in order. -/
lemma TurnLog.passes_forall {candidates : List ModelProvider} {es : List Event} {out : Ended}
    (h : TurnLog T candidates es out) :
    ∀ body ∈ passes es, ∃ p ∈ candidates, ∃ out, PassLog T p body out := by
  induction h with
  | exhausted => simp [passes]
  | next h hrest ih =>
    rw [passes_next h hrest]
    intro body hb
    rcases List.mem_cons.mp hb with rfl | hb
    · exact ⟨_, by simp, _, h⟩
    · obtain ⟨p, hp, out, hlog⟩ := ih body hb
      exact ⟨p, by simp [hp], out, hlog⟩
  | ended h =>
    rw [passes_ended h]
    intro body hb
    rw [List.mem_singleton.mp hb]
    exact ⟨_, by simp, _, h⟩

end ModelDispatcher.Turns
