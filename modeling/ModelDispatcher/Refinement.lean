import ModelDispatcher.Turns

/-!
The fallback chain refines the grammar of a turn: whatever the vendors answer, what an
execution appends to the log is a turn that ends as the execution does, and it accounts for
the attempt records and the quota state.
-/

namespace ModelDispatcher.Refinement

open Lib.Text Lib.Binary64 Lib.Floats Lib.Logged Lib.Runs DataTypes Exceptions Config Providers
open Quota Security Machines Handlers ModelInvocationHandler Chain Turns

variable (T : Turn) {α β : Type} {s : Machine}

/-- The program appends events that account for the state, and they are as the predicate
says. -/
def Logs (x : Run α) (s : Machine)
    (Q : List Event → EStateM.Result PyException Machine α → Prop) : Prop :=
  Emits Machine.log x s fun es r => Traced T s es (finalState r) ∧ Q es r

/-! ### One rule for each step -/

variable {T} {Q : List Event → EStateM.Result PyException Machine β → Prop}

lemma logs_mono {x : Run α} {P P' : List Event → EStateM.Result PyException Machine α → Prop}
    (h : Logs T x s P) (hP : ∀ es r, Traced T s es (finalState r) → P es r → P' es r) :
    Logs T x s P' :=
  Emits.mono h fun es r hr => ⟨hr.1, hP es r hr.1 hr.2⟩

lemma logs_pure {b : β} (h : Q [] (.ok b s)) : Logs T (pure b) s Q :=
  emits_pure ⟨.nil rfl rfl, h⟩

lemma logs_throw {e : PyException} (h : Q [] (.error e s)) : Logs T (throw e : Run β) s Q :=
  emits_throw ⟨.nil rfl rfl, h⟩

lemma logs_bind {x : Run α} {f : α → Run β}
    {P : List Event → EStateM.Result PyException Machine α → Prop} (hx : Logs T x s P)
    (hok : ∀ es a t, Traced T s es t → P es (.ok a t) →
      Logs T (f a) t fun fs r => Q (es ++ fs) r)
    (herror : ∀ es e t, P es (.error e t) → Q es (.error e t)) : Logs T (x >>= f) s Q :=
  emits_bind hx (fun es a t h => Emits.mono (hok es a t h.1 h.2) fun _ _ h' =>
    ⟨h.1.trans h'.1, h'.2⟩) fun es e t h => ⟨h.1, herror es e t h.2⟩

lemma logs_get {f : Machine → Run β} (h : Logs T (f s) s Q) : Logs T (get >>= f) s Q := h

/-- A first part whose run is known. -/
lemma logs_step {x : Run α} {f : α → Run β} {a : α} {t : Machine} {es : List Event}
    (hx : x.run s = .ok a t) (hlog : t.log = s.log ++ es) (ht : Traced T s es t)
    (h : Logs T (f a) t fun fs r => Q (es ++ fs) r) : Logs T (x >>= f) s Q :=
  emits_step hx hlog (Emits.mono h fun _ _ h' => ⟨ht.trans h'.1, h'.2⟩)

/-- An event that leaves the records and the quota alone. -/
lemma logs_emit {e : Event} {f : PUnit → Run β} (he : Event.inert e) (hr : recordsIn [e] = [])
    (h : Logs T (f ⟨⟩) { s with log := s.log ++ [e] } fun fs r => Q (e :: fs) r) :
    Logs T (emit e >>= f) s Q :=
  logs_step rfl rfl (.inert he (by simp [hr]) rfl) h

/-- A change of the scratch that keeps the records. -/
lemma logs_update {g : Scratch → Scratch} {f : PUnit → Run β}
    (hg : (g s.scratch).attempts = s.scratch.attempts)
    (h : Logs T (f ⟨⟩) { s with scratch := g s.scratch } Q) :
    Logs T (updateScratch g >>= f) s Q :=
  logs_step rfl (by simp) (.nil hg rfl) h

lemma logs_record {r : AttemptRecord} {f : PUnit → Run β}
    (h : Logs T (f ⟨⟩)
      { s with
        scratch := { s.scratch with attempts := s.scratch.attempts ++ [r] }
        log := s.log ++ [.recorded r] } fun fs r' => Q (.recorded r :: fs) r') :
    Logs T (recordAttempt r >>= f) s Q :=
  logs_step rfl rfl (.inert rfl rfl rfl) h

lemma logs_orRaise {x : Except PyException α} {f : α → Run β}
    (hok : ∀ a, x = .ok a → Logs T (f a) s Q)
    (herror : ∀ e, x = .error e → Q [] (.error e s)) : Logs T (orRaise x >>= f) s Q := by
  cases x with
  | ok a => exact hok a rfl
  | error e => exact emits_throw ⟨.nil rfl rfl, herror e rfl⟩

lemma mapError_eq_ok {ε ε' : Type} {f : ε → ε'} {x : Except ε α} {a : α}
    (h : x.mapError f = .ok a) : x = .ok a := by
  cases x with
  | error e => cases h
  | ok b => cases h; rfl

lemma mapError_eq_error {ε ε' : Type} {f : ε → ε'} {x : Except ε α} {e : ε'}
    (h : x.mapError f = .error e) : ∃ e', x = .error e' ∧ e = f e' := by
  cases x with
  | error e' => cases h; exact ⟨e', rfl, rfl⟩
  | ok b => cases h

/-- A logged reservation. -/
lemma logs_reserve {p : ModelProvider} {estimate : ℤ}
    {f : Except BuiltinError QuotaDecision → Run β}
    (h : ∀ result q, result = answer ((QuotaManager.reserve T.world.monotonic T.tenant estimate
        p.name).run s.quota) →
      Logs T (f result)
        { s with quota := q, log := s.log ++ [.reserved p estimate s.quota result] }
        fun fs r => Q (.reserved p estimate s.quota result :: fs) r) :
    Logs T (reserve T.world T.tenant estimate p >>= f) s Q :=
  logs_step rfl rfl ⟨by simp [recordsIn], Steps.single (.reserved p estimate)⟩ (h _ _ rfl)

/-- A logged commit. -/
lemma logs_commit {d : QuotaDecision} {u : Usage} {f : PUnit → Run β}
    (h : ∀ q, Logs T (f ⟨⟩) { s with quota := q, log := s.log ++ [.committed T.tenant d u] }
      fun fs r => Q (.committed T.tenant d u :: fs) r) :
    Logs T (commit T.world T.tenant d u >>= f) s Q :=
  logs_step rfl rfl ⟨by simp [recordsIn], Steps.single (.committed d u)⟩ (h _)

/-! ### One attempt -/

/-- A handler's result ends a candidate as the executor will read it. -/
inductive Ends : EStateM.Result PyException Machine HandlerOutcome → Ended → Prop
  | success {t : Machine} {response : CompletionResponse}
      (h : t.scratch.response = some response) : Ends (.ok .success t) (.served response)
  | fallback (t : Machine) : Ends (.ok .fallback t) .failed
  | stop {t : Machine} {e : ModelDispatcherError} (h : t.scratch.error = some e) :
      Ends (.ok .stop t) (.raised (.library e))
  | raised (e : PyException) (t : Machine) : Ends (.error e t) (.raised e)

/-- The key a slot of the handler's loops stands for. -/
def keyOf (k : KeySlot) (d : QuotaDecision) : Key := ⟨k.provider, k.credential, k.index, d⟩

/-- The context of a turn on the candidates left. -/
def context (T : Turn) (candidates : List ModelProvider) : InvocationContext :=
  ⟨T.request, T.tenant, candidates⟩

variable {k : KeySlot} {d : QuotaDecision} {cs : List ModelProvider}

/-- A logged call. -/
lemma logs_complete {attempt : ℕ} {f : CallResult → Run β}
    (h : ∀ result, Answers T (keyOf k d) result →
      Logs T (f result) { s with log := s.log ++ [.called (callOf T (keyOf k d) attempt) result] }
        fun fs r => Q (.called (callOf T (keyOf k d) attempt) result :: fs) r) :
    Logs T (complete T.world (context T cs) k attempt >>= f) s Q :=
  logs_step rfl rfl (.inert rfl (by simp [recordsIn]) rfl) (h _ ⟨s.log, rfl⟩)

lemma logs_onSuccess (hres : s.scratch.reservation = some d) (response : CompletionResponse) :
    Logs T (onSuccess T.world (context T cs) k response) s fun es r =>
      es = [.recorded (successRecord (keyOf k d)), .committed T.tenant d response.usage] ∧
        Ends r (.served response) := by
  refine logs_record (logs_update rfl (logs_get ?_))
  simp only [hres]
  exact logs_commit fun q => logs_pure ⟨rfl, .success rfl⟩

/-- What a failure is answered with, and the hint events that led there. -/
inductive Verdict (k : KeySlot) (exc : VendorError) (reservation : Option QuotaDecision) :
    List Event → EStateM.Result PyException Machine (Option HandlerOutcome) → Prop
  | retry {hs : List Event} {t : Machine} (h : HintLog k.provider exc hs)
      (hres : t.scratch.reservation = reservation) : Verdict k exc reservation hs (.ok none t)
  | fallback {hs : List Event} {t : Machine} (h : HintLog k.provider exc hs)
      (hres : t.scratch.reservation = reservation) :
      Verdict k exc reservation hs (.ok (some .fallback) t)
  | stop {hs : List Event} {t : Machine} {e : ModelDispatcherError}
      (h : HintLog k.provider exc hs) (he : t.scratch.error = some e) :
      Verdict k exc reservation hs (.ok (some .stop) t)
  | badHint {e : BuiltinError} {t : Machine} (h : k.provider.retryAfterSeconds exc = .error e) :
      Verdict k exc reservation [.hinted k.provider exc] (.error (.builtin e) t)

lemma logs_giveUp (errorClass : ErrorClass) (exc : VendorError) {hs : List Event}
    (hhs : HintLog k.provider exc hs) :
    Logs T (giveUp k errorClass exc) s fun es r =>
      es = [] ∧ Verdict k exc s.scratch.reservation hs r := by
  unfold giveUp
  split_ifs
  · exact logs_pure ⟨rfl, .fallback hhs rfl⟩
  · exact logs_pure ⟨rfl, .fallback hhs rfl⟩
  · exact logs_update rfl (logs_pure ⟨rfl, .stop hhs rfl⟩)

lemma logs_onError (exc : VendorError) (attempt : ℕ) :
    Logs T (T.handler.onError k exc attempt) s fun es r =>
      ∃ hs, es = .recorded (failureRecord (keyOf k d) exc) :: hs ∧
        Verdict k exc s.scratch.reservation hs r := by
  refine logs_record ?_
  split_ifs
  · exact logs_pure ⟨[], rfl, .retry .skipped rfl⟩
  · -- a rate limit with nowhere better to go looks at the vendor's hint
    refine logs_emit rfl rfl (logs_orRaise (fun hint hhint => ?_) fun e he => ?_)
    · have hlooked : HintLog k.provider exc [.hinted k.provider exc] :=
        .looked (mapError_eq_ok hhint)
      rcases hint with _ | x
      · exact logs_pure ⟨_, rfl, .retry hlooked rfl⟩
      · dsimp only
        split_ifs
        · exact logs_pure ⟨_, rfl, .retry hlooked rfl⟩
        · refine logs_mono (logs_giveUp _ exc hlooked) ?_
          rintro es r - ⟨rfl, hv⟩
          exact ⟨_, rfl, hv⟩
    · obtain ⟨e, hr, rfl⟩ := mapError_eq_error he
      exact ⟨_, rfl, .badHint hr⟩
  · refine logs_mono (logs_giveUp _ exc .skipped) ?_
    rintro es r - ⟨rfl, hv⟩
    exact ⟨_, rfl, hv⟩

/-- An attempt's result, as the attempt loop will read it. -/
inductive AttemptEnds (k : KeySlot) (reservation : Option QuotaDecision) :
    EStateM.Result PyException Machine Attempted → AttemptEnded → Prop
  | again {t : Machine} (hres : t.scratch.reservation = reservation) :
      AttemptEnds k reservation (.ok .again t) .again
  | nextKey {t : Machine} (hres : t.scratch.reservation = reservation) :
      AttemptEnds k reservation (.ok .nextKey t) (.ended .failed)
  | done {o : HandlerOutcome} {t : Machine} {out : Ended} (h : Ends (.ok o t) out)
      (hlast : out = .failed → k.hasMoreCredentials = false) :
      AttemptEnds k reservation (.ok (.done o) t) (.ended out)
  | raised (e : PyException) (t : Machine) :
      AttemptEnds k reservation (.error e t) (.ended (.raised e))

/-- The wait before a retry goes through, or raises as its delay says. -/
inductive Napped (delay : Except BuiltinError PyFloat) (s : Machine) :
    EStateM.Result PyException Machine PUnit → Prop
  | slept {t : Machine} (h : napEnds delay = .again) (hscratch : t.scratch = s.scratch) :
      Napped delay s (.ok ⟨⟩ t)
  | raised {e : PyException} {t : Machine} (h : napEnds delay = .ended (.raised e)) :
      Napped delay s (.error e t)

lemma logs_backoff (exc : VendorError) (attempt : ℕ) :
    Logs T (T.handler.backoff k exc attempt) s fun es r =>
      es = [.backedOff k.provider attempt exc (T.handler.backoffDelay attempt k.provider exc)] ∧
        Napped (T.handler.backoffDelay attempt k.provider exc) s r := by
  unfold backoff
  cases hdelay : T.handler.backoffDelay attempt k.provider exc with
  | error e => exact logs_emit rfl rfl (logs_throw ⟨rfl, .raised rfl⟩)
  | ok x =>
    refine logs_emit rfl rfl ?_
    change Logs T (orRaise (sleep x)) _ _
    cases hsleep : sleep x with
    | error e => exact logs_throw ⟨rfl, .raised (by simp [napEnds, hsleep])⟩
    | ok u => exact logs_pure ⟨rfl, .slept (by simp [napEnds, hsleep]) rfl⟩

lemma logs_attemptOnce (hres : s.scratch.reservation = some d) (attempt : ℕ) :
    Logs T (T.handler.attemptOnce T.world (context T cs) k attempt) s fun es r =>
      ∃ out, AttemptLog T (keyOf k d) attempt es out ∧ AttemptEnds k (some d) r out := by
  refine logs_complete (d := d) fun result hans => ?_
  cases result with
  | returned response =>
    refine logs_bind (logs_onSuccess (by exact hres) response) ?_ ?_
    · rintro es o t - ⟨rfl, h⟩
      exact logs_pure ⟨_, .served hans, .done h (by simp)⟩
    · rintro es e t ⟨-, h⟩
      cases h
  | raisedLibrary e => exact logs_throw ⟨_, .library hans, .raised _ _⟩
  | raised exc =>
    refine logs_bind (logs_onError (d := d) exc attempt) ?_ ?_
    · rintro es v t - ⟨hs, rfl, hv⟩
      cases hv with
      | retry hhs hres' =>
        -- the wait before the next attempt may raise
        refine logs_bind (logs_backoff exc attempt) ?_ ?_
        · rintro es v u - ⟨rfl, hnap⟩
          cases hnap with
          | slept hagain hscratch =>
            refine logs_pure ⟨.again, ?_, .again ((congrArg Scratch.reservation hscratch).trans
              (hres'.trans hres))⟩
            rw [List.append_nil]
            exact .failed hans (hagain ▸ .napped hhs rfl)
        · rintro es e u ⟨rfl, hnap⟩
          cases hnap with
          | raised hover => exact ⟨_, .failed hans (hover ▸ .napped hhs rfl), .raised _ _⟩
      | fallback hhs hres' =>
        dsimp only
        split_ifs with hmore
        · refine logs_pure ⟨_, ?_, .nextKey (hres'.trans hres)⟩
          rw [List.append_nil]
          exact .failed hans (.gaveUp hhs)
        · refine logs_pure ⟨_, ?_, .done (.fallback t) fun _ => by simpa using hmore⟩
          rw [List.append_nil]
          exact .failed hans (.gaveUp hhs)
      | stop hhs he =>
        refine logs_pure ⟨_, ?_, .done (.stop he) (by simp)⟩
        rw [List.append_nil]
        exact .failed hans (.stopped hhs _)
    · rintro es e t ⟨hs, rfl, hv⟩
      cases hv with
      | badHint h => exact ⟨_, .failed hans (.badHint h), .raised _ _⟩

/-! ### The loops over attempts and keys -/

/-- A key's result, as the loop over the keys will read it. -/
inductive KeyEnds (k : KeySlot) (reservation : Option QuotaDecision) :
    EStateM.Result PyException Machine (Option HandlerOutcome) → Ended → Prop
  | next {t : Machine} (hres : t.scratch.reservation = reservation) :
      KeyEnds k reservation (.ok none t) .failed
  | done {o : HandlerOutcome} {t : Machine} {out : Ended} (h : Ends (.ok o t) out)
      (hlast : out = .failed → k.hasMoreCredentials = false) :
      KeyEnds k reservation (.ok (some o) t) out
  | raised (e : PyException) (t : Machine) : KeyEnds k reservation (.error e t) (.raised e)

lemma logs_attemptLoop (hres : s.scratch.reservation = some d) (n attempt : ℕ) :
    Logs T (T.handler.attemptLoop T.world (context T cs) k n attempt) s fun es r =>
      ∃ out, KeyLog T (keyOf k d) n attempt es out ∧ KeyEnds k (some d) r out := by
  induction n generalizing s attempt with
  | zero => exact logs_pure ⟨_, .spent attempt, .next hres⟩
  | succ n ih =>
    refine logs_bind (logs_attemptOnce hres attempt) ?_ ?_
    · rintro es v t - ⟨out, hlog, hv⟩
      cases hv with
      | again hres' =>
        refine logs_mono (ih hres' (attempt + 1)) ?_
        rintro fs r - ⟨out', hrest, hr⟩
        exact ⟨out', .again hlog hrest, hr⟩
      | nextKey hres' =>
        refine logs_pure ⟨_, ?_, .next hres'⟩
        rw [List.append_nil]
        exact .ended hlog
      | done h hlast =>
        refine logs_pure ⟨_, ?_, .done h hlast⟩
        rw [List.append_nil]
        exact .ended hlog
    · rintro es e t ⟨out, hlog, hv⟩
      cases hv with
      | raised => exact ⟨_, .ended hlog, .raised e t⟩

lemma logs_keyLoop (p : ModelProvider) (hasMoreProviders : Bool)
    (hres : s.scratch.reservation = some d) (keys : List (Option Credential)) (index : ℕ) :
    Logs T (T.handler.keyLoop T.world (context T cs) p hasMoreProviders keys index) s fun es r =>
      ∃ out, KeysLog T p d keys index es out ∧ Ends r out := by
  induction keys generalizing s index with
  | nil => exact logs_pure ⟨_, .exhausted index, .fallback s⟩
  | cons credential rest ih =>
    refine logs_bind (logs_attemptLoop hres _ 1) ?_ ?_
    · rintro es v t - ⟨out, hlog, hv⟩
      cases hv with
      | next hres' =>
        refine logs_mono (ih hres' (index + 1)) ?_
        rintro fs r - ⟨out', hrest, hr⟩
        exact ⟨out', .next hlog hrest, hr⟩
      | @done o t out h hlast =>
        by_cases hfailed : out = .failed
        · -- only the last key falls back out of the loop
          subst hfailed
          have hrest : rest = [] := by simpa using hlast rfl
          subst hrest
          exact logs_pure ⟨_, .next hlog (.exhausted _), h⟩
        · refine logs_pure ⟨_, ?_, h⟩
          rw [List.append_nil]
          exact .ended hlog hfailed
    · rintro es e t ⟨out, hlog, hv⟩
      cases hv with
      | raised => exact ⟨_, .ended hlog (by simp), .raised e t⟩

/-! ### The handlers and the executor -/

lemma logs_onDeny {p : ModelProvider} {rest : List ModelProvider} (decision : QuotaDecision) :
    Logs T (onDeny (context T cs) p rest decision) s fun es r =>
      es = [] ∧ (r = .ok .fallback s ∨ ∃ e, r = .error (.library e) s) := by
  unfold onDeny
  dsimp only
  split_ifs
  · exact logs_pure ⟨rfl, .inl rfl⟩
  · exact logs_throw ⟨rfl, .inr ⟨_, rfl⟩⟩

/-- The invocation handler, on the credentials and the reservation of its pass. -/
lemma logs_handle {p : ModelProvider} {rest : List ModelProvider} {creds : List Credential}
    (hcreds : s.scratch.credentials = creds) (hres : s.scratch.reservation = some d) :
    Logs T (T.handler.handle T.world (context T (p :: rest))) s fun es r =>
      ∃ out, KeysLog T p d (keysOf creds) 0 es out ∧ Ends r out := by
  subst hcreds
  exact logs_keyLoop p _ hres _ 0

/-- The chain of a gateway, for a turn of its settings. -/
def turnOf (w : World) (settings : GatewaySettings) (request : CompletionRequest)
    (tenant : TenantContext) : Turn where
  world := w
  security := settings.security
  handler := { maxAttempts := settings.retryMaxAttempts }
  request := request
  tenant := tenant

/-- The handlers of a turn's chain. -/
def chainOf (T : Turn) : FallbackChain :=
  [perimeterHandler T.security, credentialHandler, quotaHandler T.world,
    T.handler.handle T.world]

/-- The perimeter handler: passed or raised. -/
inductive PerimeterEnds (T : Turn) :
    List Event → EStateM.Result PyException Machine HandlerOutcome → Prop
  | passed {t : Machine} (h : PerimeterValidator.validate T.security T.request T.tenant = .ok ()) :
      PerimeterEnds T [.validated T.request T.tenant (.ok ())] (.ok .proceed t)
  | rejected {e : PyException} {t : Machine}
      (h : PerimeterValidator.validate T.security T.request T.tenant = .error e) :
      PerimeterEnds T [.validated T.request T.tenant (.error e)] (.error e t)

lemma logs_perimeter :
    Logs T (perimeterHandler T.security (context T cs)) s (PerimeterEnds T) := by
  refine logs_emit rfl rfl ?_
  change Logs T (orRaise (PerimeterValidator.validate T.security T.request T.tenant) >>= _) _
    fun fs r => PerimeterEnds T
      (.validated T.request T.tenant
        (PerimeterValidator.validate T.security T.request T.tenant) :: fs) r
  refine logs_orRaise (fun u hu => ?_) fun e he => ?_
  · rw [hu]
    exact logs_pure (.passed hu)
  · rw [he]
    exact .rejected he

/-- The credential handler on a candidate: resolved or raised. -/
inductive CredentialEnds (T : Turn) (p : ModelProvider) :
    List Event → EStateM.Result PyException Machine HandlerOutcome → Prop
  | resolved {creds : List Credential} {t : Machine}
      (h : CredentialResolver.resolveCandidates T.tenant p = .ok creds)
      (hcreds : t.scratch.credentials = creds) :
      CredentialEnds T p [.resolved p (.ok creds)] (.ok .proceed t)
  | unresolved {e : ModelDispatcherError} {t : Machine}
      (h : CredentialResolver.resolveCandidates T.tenant p = .error e) :
      CredentialEnds T p [.resolved p (.error e)] (.error (.library e) t)

lemma logs_credential (p : ModelProvider) (rest : List ModelProvider) :
    Logs T (credentialHandler (context T (p :: rest))) s (CredentialEnds T p) := by
  refine logs_emit rfl rfl ?_
  change Logs T (orRaise ((CredentialResolver.resolveCandidates T.tenant p).mapError _) >>= _) _
    fun fs r => CredentialEnds T p
      (.resolved p (CredentialResolver.resolveCandidates T.tenant p) :: fs) r
  refine logs_orRaise (fun creds hc => ?_) fun e he => ?_
  · have hc := mapError_eq_ok hc
    rw [hc]
    exact logs_update rfl (logs_pure (.resolved hc rfl))
  · obtain ⟨e, hc, rfl⟩ := mapError_eq_error he
    rw [hc]
    exact .unresolved hc

/-- The quota handler on a candidate: granted, denied or raised. -/
inductive QuotaEnds (T : Turn) (p : ModelProvider) (s : Machine) :
    List Event → EStateM.Result PyException Machine HandlerOutcome → Prop
  | granted {d : QuotaDecision} {t : Machine} (h : reservation T p s.quota = .ok d)
      (hd : d.granted) (hcreds : t.scratch.credentials = s.scratch.credentials)
      (hres : t.scratch.reservation = some d) :
      QuotaEnds T p s [.reserved p (p.estimateTokens T.request) s.quota (.ok d)] (.ok .proceed t)
  | deniedNext {d : QuotaDecision} {t : Machine} (h : reservation T p s.quota = .ok d)
      (hd : ¬ d.granted) :
      QuotaEnds T p s [.reserved p (p.estimateTokens T.request) s.quota (.ok d)] (.ok .fallback t)
  | deniedStop {d : QuotaDecision} {e : ModelDispatcherError} {t : Machine}
      (h : reservation T p s.quota = .ok d) (hd : ¬ d.granted) :
      QuotaEnds T p s [.reserved p (p.estimateTokens T.request) s.quota (.ok d)]
        (.error (.library e) t)
  | unjudged {e : BuiltinError} {t : Machine} (h : reservation T p s.quota = .error e) :
      QuotaEnds T p s [.reserved p (p.estimateTokens T.request) s.quota (.error e)]
        (.error (.builtin e) t)

lemma logs_quota (p : ModelProvider) (rest : List ModelProvider) :
    Logs T (quotaHandler T.world (context T (p :: rest))) s (QuotaEnds T p s) := by
  refine logs_reserve fun result q hresult => ?_
  change result = reservation T p s.quota at hresult
  cases result with
  | error e => exact logs_throw (.unjudged hresult.symm)
  | ok d =>
    refine logs_orRaise (fun a ha => ?_) fun e he => by cases he
    cases ha
    split_ifs with hd
    · refine logs_mono (logs_onDeny d) ?_
      rintro es r - ⟨rfl, rfl | ⟨e, rfl⟩⟩
      · exact .deniedNext hresult.symm (not_not_intro hd)
      · exact .deniedStop hresult.symm (not_not_intro hd)
    · exact logs_update rfl (logs_pure (.granted hresult.symm hd rfl rfl))

/-- The walk of one pass. -/
lemma logs_walk (p : ModelProvider) (rest : List ModelProvider) :
    Logs T (FallbackChain.walk (context T (p :: rest)) (chainOf T)) s fun es r =>
      ∃ out, PassLog T p es out ∧ Ends r out := by
  refine logs_bind logs_perimeter ?_ ?_
  swap
  · intro es e t h
    cases h with
    | rejected hv => exact ⟨_, .rejected hv, .raised e t⟩
  intro es o t _ h
  cases h with | passed hv
  refine logs_bind (logs_credential p rest) ?_ ?_
  swap
  · intro es e u h
    cases h with
    | unresolved hc => exact ⟨_, .unresolved hv hc, .raised _ u⟩
  intro es o u _ h
  cases h with | resolved hc hcreds
  refine logs_bind (logs_quota p rest) ?_ ?_
  swap
  · intro es e v h
    cases h with
    | deniedStop h hd => exact ⟨_, .deniedStop hv hc h hd _, .raised _ v⟩
    | unjudged h => exact ⟨_, .unjudged hv hc h, .raised _ v⟩
  intro es o v _ h
  cases h with
  | deniedNext h hd => exact logs_pure ⟨_, .deniedNext hv hc h hd, .fallback v⟩
  | granted h hd hcreds' hres =>
    -- the invocation handler has the last word
    refine logs_bind (logs_handle (hcreds'.trans hcreds) hres) ?_ ?_
    · rintro es o x - ⟨out, hkeys, hends⟩
      have hpass := PassLog.invoked hv hc h hd hkeys
      cases hends with
      | success hr => exact logs_pure ⟨_, by simpa [admitted] using hpass, .success hr⟩
      | fallback => exact logs_pure ⟨_, by simpa [admitted] using hpass, .fallback x⟩
      | stop he => exact logs_pure ⟨_, by simpa [admitted] using hpass, .stop he⟩
    · rintro es e x ⟨out, hkeys, hends⟩
      have hpass := PassLog.invoked hv hc h hd hkeys
      cases hends with
      | raised => exact ⟨_, hpass, .raised e x⟩

/-- A turn's result, as the caller of the chain sees it. -/
inductive TurnEnds : EStateM.Result PyException Machine CompletionResponse → Ended → Prop
  | served (response : CompletionResponse) (t : Machine) :
      TurnEnds (.ok response t) (.served response)
  | raised (e : PyException) (t : Machine) : TurnEnds (.error e t) (.raised e)

lemma logs_loop (candidates : List ModelProvider) :
    Logs T (FallbackChain.loop (chainOf T) T.request T.tenant candidates) s fun es r =>
      ∃ out, TurnLog T candidates es out ∧ TurnEnds r out := by
  induction candidates generalizing s with
  | nil => exact logs_throw ⟨_, .exhausted _, .raised _ s⟩
  | cons p rest ih =>
    refine logs_bind (P := fun es r => ∃ fs out, es = .passStarted :: fs ∧ PassLog T p fs out ∧
      Ends r out) ?_ ?_ ?_
    · refine logs_emit rfl rfl (logs_mono (logs_walk p rest) ?_)
      rintro es r - ⟨out, hpass, hends⟩
      exact ⟨es, out, rfl, hpass, hends⟩
    · rintro es o t - ⟨fs, out, rfl, hpass, hends⟩
      cases hends with
      | success hr =>
        refine logs_get ?_
        simp only [hr]
        exact logs_pure ⟨_, by simpa using TurnLog.ended hpass (by simp), .served _ t⟩
      | stop he =>
        refine logs_get ?_
        simp only [he]
        exact logs_throw ⟨_, by simpa using TurnLog.ended hpass (by simp), .raised _ t⟩
      | fallback =>
        refine logs_update rfl (logs_mono ih ?_)
        rintro gs r - ⟨out', hrest, hr⟩
        exact ⟨out', .next hpass hrest, hr⟩
    · rintro es e t ⟨fs, out, rfl, hpass, hends⟩
      cases hends with
      | raised => exact ⟨_, .ended hpass (by simp), .raised e t⟩

/-- **The chain refines the grammar of a turn.** -/
theorem logs_execute (candidates : List ModelProvider) :
    Logs T ((chainOf T).execute (context T candidates)) s fun es r =>
      ∃ out, TurnLog T candidates es out ∧ TurnEnds r out := by
  unfold FallbackChain.execute
  split_ifs with h
  · have h : candidates = [] := h
    subst h
    exact logs_throw ⟨_, .exhausted _, .raised _ s⟩
  · exact logs_loop candidates

/-- An execution of a gateway's chain on a fresh context, over a quota state. -/
def executed (w : World) (settings : GatewaySettings) (c : InvocationContext) (q : QuotaState) :
    EStateM.Result PyException Machine CompletionResponse :=
  ((buildChain w settings).execute c).run { quota := q }

/-- The log of an execution is a turn, and it accounts for its records and its quota state. -/
theorem executed_turn (w : World) (settings : GatewaySettings) (c : InvocationContext)
    (q : QuotaState) :
    ∃ out, TurnLog (turnOf w settings c.request c.tenant) c.candidates
        (finalState (executed w settings c q)).log out ∧
      TurnEnds (executed w settings c q) out ∧
      Traced (turnOf w settings c.request c.tenant) { quota := q }
        (finalState (executed w settings c q)).log (finalState (executed w settings c q)) := by
  obtain ⟨es, hlog, htraced, out, hturn, hends⟩ :=
    logs_execute (T := turnOf w settings c.request c.tenant) (s := { quota := q }) c.candidates
  have hlog : (finalState (executed w settings c q)).log = es := hlog
  rw [hlog]
  exact ⟨out, hturn, hends, htraced⟩

/-! ### A small setting -/

namespace Sample

def provider (name : String) (tier : ModelTier) : ModelProvider where
  name := py name
  tier := tier
  capabilities := ProviderCapability.none
  estimateTokens := fun _ => 10
  classifyError := fun e => if e.text = py "429" then .rateLimit else .transient

def tenant : TenantContext := { tenantId := py "t", quota := ⟨10, 100, 1000, ofRat (9 / 10)⟩ }

def request : CompletionRequest :=
  { messages := [{ role := .user, content := some (py "hi") }], tenant := py "t" }

def response : CompletionResponse where
  message := { role := .assistant, content := some (py "hello") }
  usage := ⟨3, 4⟩
  providerName := py "p"
  tier := .free

/-- A vendor that fails with an exception's text until the log is long enough. -/
def world (text : String) (failing : ℕ) : World where
  monotonic := fun _ => 0
  complete := fun log _ _ _ =>
    if log.length < failing then .raised { typeName := py "Error", text := py text }
    else .returned response

end Sample

end ModelDispatcher.Refinement
