import Mathlib.Tactic.Positivity
import ModelDispatcher.Delivery

/-!
Which exceptions leave a dispatch: a dispatch raises an exception that is not the library's
exactly when one of its steps was given an input that its code does not guard against.

Such an input is a text that cannot be encoded or a number that cannot be printed at the
perimeter, a verdict without a floor, a quota cap that no float holds, or a retry hint that
cannot be parsed or slept. Exceptions of vendors and of tools never leave.
-/

namespace ModelDispatcher.Escapes

open Lib.Text Lib.Binary64 Lib.Floats Lib.Logged DataTypes Exceptions RetryHints Config Providers
open Quota Security Routing Machines Handlers ModelInvocationHandler Chain Orchestration Gateway
open Turns Refinement Dispatches Delivery

/-! ### Delays -/

/-- A failure whose next delay cannot be computed or slept: its hint is malformed, not a number
or more than a second in the past, or it has none and the exponent is too large. -/
def DelayFault (attempt : ℕ) (exc : VendorError) : Prop :=
  MalformedHint exc ∨
    (extractRetryAfterSeconds exc = .ok none ∧ 1024 ≤ attempt - 1) ∨
    ∃ hint, extractRetryAfterSeconds exc = .ok (some hint) ∧
      (hint = .nan ∨ hint.lt (ofRat (-1)))

lemma sleeps_hint_iff (hint : PyFloat) :
    sleepCheck ((hint.add (ofRat 1)).min (ofRat 120)) = .sleeps ↔
      ¬ (hint = .nan ∨ hint.lt (ofRat (-1))) := by
  have hone : ofRat 1 = .fin (Finite.ofInt 1 (by decide)) := ofRat_eq _ _ (by norm_num)
  have hpast : ofRat (-1) = .fin (Finite.ofInt (-1) (by decide)) := ofRat_eq _ _ (by norm_num)
  rw [sleeps_min_short 120 (by decide) (by norm_num), hone, hpast]
  cases hint with
  | nan => simp [Double.add]
  | inf neg => simp [Double.add, Double.lt]
  | fin x =>
    have hfin : (Double.fin x).add (.fin (Finite.ofInt 1 (by decide))) ≠ .nan :=
      Double.fin_add_ne_nan
    simp only [hfin, ne_eq, not_false_eq_true, true_and, reduceCtorEq, false_or, Double.lt_fin,
      Double.negative_add, Finite.val_lt_val, Finite.int_ofInt]
    constructor <;> intro h <;> omega

/-- The exponential delay can always be slept. -/
lemma sleeps_exponential {n : ℕ} (h : n < 1024) :
    sleepCheck ((Double.mul (ofRat (1 / 20)) (ofRat (2 ^ n))).min (ofRat 2)) = .sleeps := by
  have hstep : (1 / 20 : ℚ) < overflowBound := lt_overflowBound <|
    (by norm_num : (1 / 20 : ℚ) ≤ 1).trans (one_le_pow₀ one_le_two)
  obtain ⟨q, hq, hmul⟩ := Double.mul_ofRat (by positivity) hstep (by positivity)
    (two_pow_lt_overflowBound h)
  rw [sleeps_min_short 2 (by decide) (by norm_num), hmul]
  exact ⟨Double.rounded_ne_nan, by simp [Double.negative_rounded]⟩

lemma napEnds_of_sleeps {d : PyFloat} (h : sleepCheck d = .sleeps) : napEnds (.ok d) = .again := by
  simp [napEnds, sleep, h]

lemma napEnds_of_not_sleeps {d : PyFloat} (h : sleepCheck d ≠ .sleeps) :
    ∃ e, napEnds (.ok d) = .ended (.raised (.builtin e)) := by
  cases hd : sleepCheck d with
  | sleeps => exact absurd hd h
  | valueError => exact ⟨.valueError, by simp [napEnds, sleep, hd]⟩
  | overflowError => exact ⟨.overflowError, by simp [napEnds, sleep, hd]⟩

/-- The delay of a retry raises exactly on a fault, and what it raises is not the library's. -/
lemma napEnds_backoffDelay (n : ℤ) {p : ModelProvider} (attempt : ℕ) {exc : VendorError}
    (hp : p.retryAfterSeconds = extractRetryAfterSeconds) {delay : Except BuiltinError PyFloat}
    (hdelay : ModelInvocationHandler.backoffDelay { maxAttempts := n } attempt p exc = delay) :
    (napEnds delay = .again ∧ ¬ DelayFault attempt exc) ∨
      ((∃ e, napEnds delay = .ended (.raised (.builtin e))) ∧ DelayFault attempt exc) := by
  subst hdelay
  unfold ModelInvocationHandler.backoffDelay DelayFault
  rw [hp]
  cases hx : extractRetryAfterSeconds exc with
  | error e =>
    obtain ⟨-, hmal⟩ := extractRetryAfterSeconds_error_iff.mp hx
    exact .inr ⟨⟨e, rfl⟩, .inl hmal⟩
  | ok hint =>
    have hwell := not_malformedHint_of_ok hx
    cases hint with
    | none =>
      by_cases hexp : attempt - 1 < 1024
      · refine .inl ⟨?_, by simp [hwell, hexp]⟩
        simp only [bind, Except.bind, Double.twoPow, hexp, if_true]
        exact napEnds_of_sleeps (sleeps_exponential hexp)
      · refine .inr ⟨⟨.overflowError, ?_⟩, by simpa [hwell] using hexp⟩
        simp [bind, Except.bind, Double.twoPow, hexp, napEnds]
    | some hint =>
      by_cases hbad : hint = .nan ∨ hint.lt (ofRat (-1))
      · refine .inr ⟨?_, by simp [hbad]⟩
        exact napEnds_of_not_sleeps (mt (sleeps_hint_iff hint).mp (not_not.mpr hbad))
      · refine .inl ⟨?_, by simpa [hwell] using hbad⟩
        exact napEnds_of_sleeps ((sleeps_hint_iff hint).mpr hbad)

/-! ### Faults -/

/-- An exception that is not the library's. -/
def Foreign (e : PyException) : Prop := e.isLibrary = false

def Ended.IsForeign : Ended → Prop
  | .raised e => Foreign e
  | _ => False

def AttemptEnded.IsForeign : AttemptEnded → Prop
  | .ended out => Ended.IsForeign out
  | .again => False

@[simp] lemma foreign_builtin (e : BuiltinError) : Foreign (.builtin e) := rfl
@[simp] lemma not_foreign_library (e : ModelDispatcherError) : ¬ Foreign (.library e) := by
  simp [Foreign, PyException.isLibrary]

/-- A step that was given an input its code does not guard against. -/
def Fault (w : World) (settings : GatewaySettings) (tenant : TenantContext) : Event → Prop
  | .validated request _ _ => PerimeterValidator.PerimeterFault settings.security request tenant
  | .routed complexity _ => settings.routing.complexityFloor.get? complexity = none
  | .reserved _ estimate q _ =>
    CapOverflows (QuotaManager.checks w.monotonic q.store q.ticks tenant estimate)
  | .hinted _ exc => MalformedHint exc
  | .backedOff _ attempt exc _ => DelayFault attempt exc
  | _ => False

section

variable {w : World} {settings : GatewaySettings} {tenant : TenantContext}

/-- Some step was at fault. -/
def Faulty (w : World) (settings : GatewaySettings) (tenant : TenantContext)
    (es : List Event) : Prop :=
  ∃ e ∈ es, Fault w settings tenant e

@[simp] lemma faulty_nil : ¬ Faulty w settings tenant [] := by simp [Faulty]

@[simp] lemma faulty_cons {e : Event} {es : List Event} :
    Faulty w settings tenant (e :: es) ↔
      Fault w settings tenant e ∨ Faulty w settings tenant es := by
  simp [Faulty]

@[simp] lemma faulty_append {es fs : List Event} :
    Faulty w settings tenant (es ++ fs) ↔
      Faulty w settings tenant es ∨ Faulty w settings tenant fs := by
  simp [Faulty, or_and_right, exists_or]

variable {request : CompletionRequest} {p : ModelProvider}

lemma not_faulty_of_hintLog {exc : VendorError} {es : List Event}
    (hp : p.retryAfterSeconds = extractRetryAfterSeconds) (h : HintLog p exc es) :
    ¬ Faulty w settings tenant es := by
  cases h with
  | skipped => exact faulty_nil
  | looked h =>
    rw [hp] at h
    simpa [Fault] using not_malformedHint_of_ok h

lemma faulty_afterFailure_iff {exc : VendorError} {attempt : ℕ} {es : List Event}
    {out : AttemptEnded} (hp : p.retryAfterSeconds = extractRetryAfterSeconds)
    (h : AfterFailure (turnOf w settings request tenant) p exc attempt es out) :
    Faulty w settings tenant es ↔ AttemptEnded.IsForeign out := by
  cases h with
  | gaveUp hs => simp [not_faulty_of_hintLog hp hs, AttemptEnded.IsForeign, Ended.IsForeign]
  | stopped hs e => simp [not_faulty_of_hintLog hp hs, AttemptEnded.IsForeign, Ended.IsForeign]
  | badHint h =>
    rw [hp] at h
    obtain ⟨-, hmal⟩ := extractRetryAfterSeconds_error_iff.mp h
    simp [Fault, hmal, AttemptEnded.IsForeign, Ended.IsForeign]
  | napped hs hdelay =>
    rcases napEnds_backoffDelay settings.retryMaxAttempts attempt hp hdelay with
      ⟨hnap, hfault⟩ | ⟨⟨e, hnap⟩, hfault⟩
    · simp [not_faulty_of_hintLog hp hs, hnap, hfault, Fault, AttemptEnded.IsForeign]
    · simp [hnap, hfault, Fault, AttemptEnded.IsForeign, Ended.IsForeign]

lemma faulty_attemptLog_iff {k : Key} {attempt : ℕ} {es : List Event} {out : AttemptEnded}
    (hp : k.provider.retryAfterSeconds = extractRetryAfterSeconds)
    (h : AttemptLog (turnOf w settings request tenant) k attempt es out) :
    Faulty w settings tenant es ↔ AttemptEnded.IsForeign out := by
  cases h with
  | served => simp [Fault, AttemptEnded.IsForeign, Ended.IsForeign]
  | library => simp [Fault, AttemptEnded.IsForeign, Ended.IsForeign]
  | failed _ h => simp [Fault, faulty_afterFailure_iff hp h]

lemma faulty_keyLog_iff {k : Key} {n attempt : ℕ} {es : List Event} {out : Ended}
    (hp : k.provider.retryAfterSeconds = extractRetryAfterSeconds)
    (h : KeyLog (turnOf w settings request tenant) k n attempt es out) :
    Faulty w settings tenant es ↔ Ended.IsForeign out := by
  induction h with
  | spent => simp [Ended.IsForeign]
  | again h _ ih =>
    have hattempt := faulty_attemptLog_iff hp h
    simpa [AttemptEnded.IsForeign] using (faulty_append.trans (or_congr hattempt ih))
  | ended h => exact faulty_attemptLog_iff hp h

lemma faulty_keysLog_iff {d : QuotaDecision} {keys : List (Option Credential)} {index : ℕ}
    {es : List Event} {out : Ended} (hp : p.retryAfterSeconds = extractRetryAfterSeconds)
    (h : KeysLog (turnOf w settings request tenant) p d keys index es out) :
    Faulty w settings tenant es ↔ Ended.IsForeign out := by
  induction h with
  | exhausted => simp [Ended.IsForeign]
  | next h _ ih =>
    have hkey := faulty_keyLog_iff hp h
    simpa [Ended.IsForeign] using (faulty_append.trans (or_congr hkey ih))
  | ended h => exact faulty_keyLog_iff hp h

/-! ### Passes and turns -/

lemma perimeterFault_iff {e : PyException}
    (h : PerimeterValidator.validate settings.security request tenant = .error e) :
    PerimeterValidator.PerimeterFault settings.security request tenant ↔ Foreign e := by
  rw [← PerimeterValidator.validate_escapes_iff, h]
  simp [Foreign]

lemma not_perimeterFault
    (h : PerimeterValidator.validate settings.security request tenant = .ok ()) :
    ¬ PerimeterValidator.PerimeterFault settings.security request tenant := by
  rw [← PerimeterValidator.validate_escapes_iff, h]
  simp

/-- A reservation raises exactly when a cap that is reached is too large for a float. -/
lemma reservation_error_iff {q : QuotaState} :
    (∃ e, reservation (turnOf w settings request tenant) p q = .error e) ↔
      CapOverflows (QuotaManager.checks w.monotonic q.store q.ticks tenant
        (p.estimateTokens request)) := by
  have hjudge := fun {e} => @judge_error_iff tenant.quota.softLimitRatio
    (QuotaManager.checks w.monotonic q.store q.ticks tenant (p.estimateTokens request))
    .allow none e
  have hrun : reservation (turnOf w settings request tenant) p q =
      answer ((QuotaManager.reserve w.monotonic tenant (p.estimateTokens request) p.name).run q) :=
    rfl
  rw [hrun, QuotaManager.reserve_run]
  cases h : judge tenant.quota.softLimitRatio (QuotaManager.checks w.monotonic q.store q.ticks
    tenant (p.estimateTokens request)) .allow none with
  | error e => simp [answer, (hjudge.mp h).2]
  | ok v =>
    have hfits : ¬ CapOverflows (QuotaManager.checks w.monotonic q.store q.ticks tenant
        (p.estimateTokens request)) := fun hcap => by
      have herror := hjudge.mpr ⟨rfl, hcap⟩
      rw [h] at herror
      cases herror
    obtain ⟨o, b⟩ := v
    cases o <;> simp [answer, hfits]

lemma not_capOverflows {q : QuotaState} {d : QuotaDecision}
    (h : reservation (turnOf w settings request tenant) p q = .ok d) :
    ¬ CapOverflows (QuotaManager.checks w.monotonic q.store q.ticks tenant
      (p.estimateTokens request)) := by
  rw [← @reservation_error_iff w settings, h]
  simp

lemma not_faulty_admitted {creds : List Credential} {q : QuotaState} {d : QuotaDecision}
    (hv : PerimeterValidator.validate settings.security request tenant = .ok ())
    (h : reservation (turnOf w settings request tenant) p q = .ok d) :
    ¬ Faulty w settings tenant (admitted (turnOf w settings request tenant) p creds q d) := by
  simp [admitted, Fault, turnOf, not_perimeterFault hv, not_capOverflows h]

lemma faulty_passLog_iff {es : List Event} {out : Ended}
    (hp : p.retryAfterSeconds = extractRetryAfterSeconds)
    (h : PassLog (turnOf w settings request tenant) p es out) :
    Faulty w settings tenant es ↔ Ended.IsForeign out := by
  have hmeasured : PerimeterValidator.validate settings.security request tenant = .ok () → _ :=
    not_perimeterFault
  have hadmitted : ∀ {creds q d}, PerimeterValidator.validate settings.security request tenant =
      .ok () → reservation (turnOf w settings request tenant) p q = .ok d →
      ¬ Faulty w settings tenant (admitted (turnOf w settings request tenant) p creds q d) :=
    not_faulty_admitted
  cases h with
  | rejected h => simpa [Fault, turnOf, Ended.IsForeign] using perimeterFault_iff h
  | unresolved hv => simp [Fault, turnOf, hmeasured hv, Ended.IsForeign]
  | unjudged hv _ h =>
    have hcap := reservation_error_iff.mp ⟨_, h⟩
    simp [Fault, turnOf, hcap, Ended.IsForeign]
  | deniedNext hv _ h => simpa [Ended.IsForeign] using hadmitted hv h
  | deniedStop hv _ h => simpa [Ended.IsForeign] using hadmitted hv h
  | invoked hv _ h _ hkeys =>
    rw [faulty_append, or_iff_right (hadmitted hv h)]
    exact faulty_keysLog_iff hp hkeys

lemma faulty_turnLog_iff {candidates : List ModelProvider} {es : List Event} {out : Ended}
    (hp : ∀ p ∈ candidates, p.retryAfterSeconds = extractRetryAfterSeconds)
    (h : TurnLog (turnOf w settings request tenant) candidates es out) :
    Faulty w settings tenant es ↔ Ended.IsForeign out := by
  induction h with
  | exhausted => simp [Ended.IsForeign]
  | next h _ ih =>
    have hpass := faulty_passLog_iff (hp _ (by simp)) h
    simpa [Fault, Ended.IsForeign, hpass] using ih fun p hmem => hp p (by simp [hmem])
  | ended h => simpa [Fault] using faulty_passLog_iff (hp _ (by simp)) h

/-! ### Whole dispatches -/

lemma not_faulty_messages (ms : List Message) :
    ¬ Faulty w settings tenant (ms.map .appended) := by
  simp [Faulty, Fault]

/-- The exception a run raised is not the library's. -/
def EscapesBy (out : Option PyException) : Prop := ∃ e, out = some e ∧ Foreign e

lemma faulty_loopLog_iff {candidates : List ModelProvider} {n : ℕ} {es : List Event}
    {out : Option PyException}
    (hp : ∀ p ∈ candidates, p.retryAfterSeconds = extractRetryAfterSeconds)
    (h : LoopLog w settings tenant candidates n request es out) :
    Faulty w settings tenant es ↔ EscapesBy out := by
  induction h with
  | stopped => simp [EscapesBy]
  | raised h => simpa [EscapesBy, Ended.IsForeign] using faulty_turnLog_iff hp h
  | completed h => simpa [EscapesBy, Ended.IsForeign, Fault] using faulty_turnLog_iff hp h
  | followed results h _ ih =>
    have hturn := faulty_turnLog_iff hp h
    have hmessages := @not_faulty_messages w settings tenant
    rw [faulty_append, faulty_append, hturn, ih, or_iff_left (hmessages _)]
    simp [Ended.IsForeign]

lemma route_error_iff {r : ModelRouter} {c : TaskComplexity} :
    (∃ e, r.route request c = .error e) ↔ r.policy.complexityFloor.get? c = none := by
  unfold ModelRouter.route
  cases r.policy.complexityFloor.get? c <;> simp

lemma faulty_dispatchLog_iff {g : ModelGateway} {tools : Option ToolRegistry}
    {es : List Event} {out : Option PyException}
    (hinherit : ∀ p ∈ g.providers.all, p.retryAfterSeconds = extractRetryAfterSeconds)
    (h : DispatchLog w g request tenant tools es out) :
    Faulty w g.settings tenant es ↔ EscapesBy out := by
  have hroute := @route_error_iff request g.router (g.scorer request)
  cases h with
  | rejected h => simpa [Fault, EscapesBy] using perimeterFault_iff h
  | unrouted hv h =>
    have hfloor : g.settings.routing.complexityFloor.get? (g.scorer request) = none :=
      hroute.mp ⟨_, h⟩
    simp [Fault, EscapesBy, hfloor]
  | looped hv hr h =>
    have hfloor : g.settings.routing.complexityFloor.get? (g.scorer request) ≠ none :=
      fun hnone => by simpa [hr] using hroute.mpr hnone
    have hloop := faulty_loopLog_iff
      (fun p hp => hinherit p (ModelRouter.route_registered hr hp)) h
    simpa [Fault, not_perimeterFault hv, hfloor] using hloop

end

/-- A dispatch returns, or raises an exception of the library. -/
def staysInLibrary : Except PyException RunResult → Bool
  | .ok _ => true
  | .error e => e.isLibrary

/-- **Which errors escape.** When every provider inherits the extraction of retry hints, a
dispatch raises only exceptions of the library exactly when none of its steps is at fault. -/
theorem staysInLibrary_iff_no_fault (w : World) (g : ModelGateway) (request : CompletionRequest)
    (tenant : TenantContext) (tools : Option ToolRegistry) (q : QuotaState)
    (hinherit : ∀ p ∈ g.providers.all, p.retryAfterSeconds = extractRetryAfterSeconds) :
    staysInLibrary (answer (dispatched w g request tenant tools q)) ↔
      ∀ e ∈ (finalState (dispatched w g request tenant tools q)).log,
        ¬ Fault w g.settings tenant e := by
  obtain ⟨out, hlog, hends⟩ := dispatched_log w g request tenant tools q
  have hiff := faulty_dispatchLog_iff hinherit hlog
  have hescapes : staysInLibrary (answer (dispatched w g request tenant tools q)) ↔
      ¬ EscapesBy out := by
    generalize dispatched w g request tenant tools q = r at hends
    cases hends with
    | returned => simp [staysInLibrary, answer, EscapesBy]
    | raised e => simp [staysInLibrary, answer, EscapesBy, Foreign]
  rw [hescapes, ← hiff, Faulty]
  push Not
  rfl

/-- A vendor's text with a malformed duration makes the dispatch raise a `ValueError`. -/
theorem malformed_hint_escapes : ¬ ∀ (w : World) (g : ModelGateway)
    (request : CompletionRequest) (tenant : TenantContext) (tools : Option ToolRegistry)
    (q : QuotaState),
    (∀ p ∈ g.providers.all, p.retryAfterSeconds = extractRetryAfterSeconds) →
    staysInLibrary (answer (dispatched w g request tenant tools q)) := by
  intro h
  have hstays := h (Sample.world "try again in 1.2.3s" 100)
    (Sample.gateway {} (Sample.provider "p" .free)) Sample.request Sample.tenant none {} ?_
  · revert hstays
    decide +kernel
  · intro p hp
    rw [List.mem_singleton.mp hp]
    rfl

/-- A dispatch to one provider that keeps failing with a text that has no hint. -/
abbrev Sample.failing : EStateM.Result PyException Machine RunResult :=
  dispatched (Sample.world "503" 100) (Sample.gateway {} (Sample.provider "p" .free))
    Sample.request Sample.tenant none {}

/-- It raises an exception of the library, with no step at fault. -/
theorem transient_failures_at_no_fault :
    staysInLibrary (answer Sample.failing) ∧
      ∀ e ∈ (finalState Sample.failing).log,
        ¬ Fault (Sample.world "503" 100) {} Sample.tenant e := by
  have hstays : staysInLibrary (answer Sample.failing) := by decide +kernel
  refine ⟨hstays, (staysInLibrary_iff_no_fault (Sample.world "503" 100)
    (Sample.gateway {} (Sample.provider "p" .free)) Sample.request Sample.tenant none {} ?_).mp
    hstays⟩
  intro p hp
  rw [List.mem_singleton.mp hp]
  rfl

end ModelDispatcher.Escapes
