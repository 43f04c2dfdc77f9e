import ModelDispatcher.Async
import ModelDispatcher.Components
import ModelDispatcher.Escapes
import ModelDispatcher.Lib.Twins

/-!
The synchronous and the asynchronous dispatch are twins: run from one state they do the same,
unless the synchronous one is told to sleep for a negative time, which raises there and is no
wait at all on the event loop.
-/

namespace ModelDispatcher.Agreement

open Lib.Text Lib.Binary64 Lib.Floats Lib.Logged Lib.Dicts Lib.Twins DataTypes Exceptions Config
open Providers Quota Security Routing Machines Handlers ModelInvocationHandler Chain Orchestration
open Gateway Turns Dispatches Components Async Async.ModelInvocationHandler

/-! ### The two sleeps -/

/-- A retry after a failure whose hint is more than a second in the past, or NaN where the event
loop accepts it. -/
def Unclamped (refusesNaN : Bool) : Event → Prop
  | .backedOff p _ exc _ => ∃ hint, p.retryAfterSeconds exc = .ok (some hint) ∧
      (hint.lt (ofRat (-1)) ∨ hint = .nan ∧ refusesNaN = false)
  | _ => False

variable {w : AsyncWorld}

lemma sleep_of_sleeps {d : PyFloat} (h : sleepCheck d = .sleeps) :
    asleep w d = Handlers.ModelInvocationHandler.sleep d := by
  have hd : d ≠ .nan := by
    rintro rfl
    cases h
  simp [asleep, Handlers.ModelInvocationHandler.sleep, h, hd]

lemma sleep_of_not_sleeps {d : PyFloat} (h : sleepCheck d ≠ .sleeps) :
    ∃ e, Handlers.ModelInvocationHandler.sleep d = .error (.builtin e) := by
  unfold Handlers.ModelInvocationHandler.sleep
  cases hd : sleepCheck d with
  | sleeps => exact absurd hd h
  | valueError => exact ⟨_, rfl⟩
  | overflowError => exact ⟨_, rfl⟩

/-- A hint that is a number gives a delay that is one. -/
lemma delay_ne_nan {hint : PyFloat} (h : hint ≠ .nan) :
    (hint.add (ofRat 1)).min (ofRat 120) ≠ .nan := by
  rw [ofRat_eq 1 (by decide) (by norm_num)]
  exact Double.min_ne_nan (Double.add_ne_nan h) (Double.ofRat_ne_nan 120)

/-- The two sleeps on the delay of a hint: alike, or the synchronous one raises on a hint that
the event loop accepts. -/
lemma hint_cases (hint : PyFloat) {d : PyFloat} (hd : (hint.add (ofRat 1)).min (ofRat 120) = d) :
    (asleep w d = Handlers.ModelInvocationHandler.sleep d ∧
        ¬ (hint.lt (ofRat (-1)) ∨ hint = .nan ∧ w.refusesNaN = false)) ∨
      ((∃ e, Handlers.ModelInvocationHandler.sleep d = .error (.builtin e)) ∧
        asleep w d = .ok () ∧ (hint.lt (ofRat (-1)) ∨ hint = .nan ∧ w.refusesNaN = false)) := by
  subst hd
  by_cases hnan : hint = .nan
  · subst hnan
    have hd : (Double.nan.add (ofRat 1)).min (ofRat 120) = .nan := by simp
    rw [hd]
    cases hrefuses : w.refusesNaN with
    | true => exact .inl ⟨by simp [asleep, hrefuses]; rfl, by simp⟩
    | false => exact .inr ⟨⟨_, rfl⟩, by simp [asleep, hrefuses], by simp⟩
  · have hd := delay_ne_nan hnan
    by_cases hpast : hint.lt (ofRat (-1))
    · refine .inr ⟨sleep_of_not_sleeps ?_, by simp [asleep, hd], .inl hpast⟩
      exact mt (Escapes.sleeps_hint_iff hint).mp (not_not.mpr (.inr hpast))
    · refine .inl ⟨sleep_of_sleeps ((Escapes.sleeps_hint_iff hint).mpr ?_), ?_⟩
      · exact not_or.mpr ⟨hnan, hpast⟩
      · exact not_or.mpr ⟨hpast, fun h => hnan h.1⟩

/-- The delay of a retry: both sleeps treat it alike, or the failure's hint is unclamped and the
synchronous one raises. -/
lemma delay_cases (n : ℤ) (p : ModelProvider) (attempt : ℕ) (exc : VendorError)
    {delay : Except BuiltinError PyFloat}
    (hdelay : Handlers.ModelInvocationHandler.backoffDelay { maxAttempts := n } attempt p exc =
      delay) :
    ((∀ d, delay = .ok d → asleep w d = Handlers.ModelInvocationHandler.sleep d) ∧
        ¬ Unclamped w.refusesNaN (.backedOff p attempt exc delay)) ∨
      ((∃ d e, delay = .ok d ∧
          Handlers.ModelInvocationHandler.sleep d = .error (.builtin e) ∧
          asleep w d = .ok ()) ∧
        Unclamped w.refusesNaN (.backedOff p attempt exc delay)) := by
  subst hdelay
  unfold Handlers.ModelInvocationHandler.backoffDelay Unclamped
  dsimp only
  generalize p.retryAfterSeconds exc = x
  cases x with
  | error e => exact .inl ⟨by simp [bind, Except.bind], by simp⟩
  | ok hint =>
    cases hint with
    | none =>
      refine .inl ⟨?_, by simp⟩
      intro d hd
      by_cases hexp : attempt - 1 < 1024
      · simp only [bind, Except.bind, Double.twoPow, hexp, if_true] at hd
        cases hd
        exact sleep_of_sleeps (Escapes.sleeps_exponential hexp)
      · simp [bind, Except.bind, Double.twoPow, hexp] at hd
    | some hint =>
      refine (hint_cases (w := w) hint rfl).imp ?_ ?_
      · rintro ⟨hsame, hgood⟩
        refine ⟨?_, ?_⟩
        · rintro d hd
          cases hd
          exact hsame
        · rintro ⟨hint', h, hbad⟩
          cases h
          exact hgood hbad
      · rintro ⟨⟨e, hraises⟩, hyields, hbad⟩
        exact ⟨⟨_, e, rfl, hraises, hyields⟩, hint, rfl, hbad⟩

/-! ### Which components wait -/

/-- A retry's wait. -/
def IsNap : Event → Prop
  | .backedOff .. => True
  | _ => False

/-- The program appends events, but no wait. -/
abbrev Wakeful {α : Type} (x : Run α) : Prop := EmitsOnly Machine.log (fun e => ¬ IsNap e) x

/-- The program only appends to the log. -/
abbrev Appends {α : Type} (x : Run α) : Prop := EmitsOnly Machine.log (fun _ => True) x

lemma Wakeful.appends {α : Type} {x : Run α} (h : Wakeful x) : Appends x :=
  EmitsOnly.mono h fun _ _ => trivial

lemma Wakeful.clamped {α : Type} {x : Run α} (h : Wakeful x) (refusesNaN : Bool) :
    EmitsOnly Machine.log (fun e => ¬ Unclamped refusesNaN e) x := by
  refine EmitsOnly.mono h fun e he hbad => ?_
  cases e with
  | backedOff => exact he trivial
  | _ => exact hbad

section

variable {I : Event → Prop}

lemma emitsOnly_emit {e : Event} (h : I e) : EmitsOnly Machine.log I (emit e) :=
  fun _ => ⟨[e], rfl, by simpa using h⟩

lemma emitsOnly_update (f : Scratch → Scratch) : EmitsOnly Machine.log I (updateScratch f) :=
  fun _ => ⟨[], (List.append_nil _).symm, by simp⟩

lemma emitsOnly_onQuota {α : Type} (x : QuotaM α) : EmitsOnly Machine.log I (onQuota x) :=
  fun _ => ⟨[], (List.append_nil _).symm, by simp⟩

lemma emitsOnly_orRaise {α : Type} (x : Except PyException α) :
    EmitsOnly Machine.log I (orRaise x) := by
  cases x with
  | ok a => exact emitsOnly_pure a
  | error e => exact emitsOnly_throw e

end

lemma wakeful_compositional : Compositional fun _ x => Wakeful x where
  pure := emitsOnly_pure
  throw := emitsOnly_throw
  bind := emitsOnly_bind
  emit e he := emitsOnly_emit fun hnap => by
    cases e with
    | backedOff p attempt exc delay => exact he p attempt exc delay rfl
    | _ => exact hnap
  update := emitsOnly_update
  read _ hf := emitsOnly_bind emitsOnly_get hf

lemma wakeful_reserve (w : World) (tenant : TenantContext) (estimate : ℤ) (p : ModelProvider) :
    Wakeful (reserve w tenant estimate p) :=
  emitsOnly_bind emitsOnly_get fun _ => emitsOnly_bind (emitsOnly_onQuota _) fun _ =>
    emitsOnly_bind (emitsOnly_emit id) fun _ => emitsOnly_pure _

lemma wakeful_commit (w : World) (tenant : TenantContext) (d : QuotaDecision) (u : Usage) :
    Wakeful (commit w tenant d u) :=
  emitsOnly_bind (emitsOnly_emit id) fun _ => emitsOnly_bind (emitsOnly_onQuota _) fun _ =>
    emitsOnly_pure _

lemma wakeful_complete (w : World) (c : InvocationContext) (k : KeySlot) (attempt : ℕ) :
    Wakeful (complete w c k attempt) :=
  emitsOnly_bind emitsOnly_get fun _ => emitsOnly_bind (emitsOnly_emit id) fun _ =>
    emitsOnly_pure _

lemma wakeful_onSuccess (w : World) (c : InvocationContext) (k : KeySlot)
    (response : CompletionResponse) : Wakeful (onSuccess w c k response) :=
  wakeful_compositional.onSuccess (wakeful_commit w c.tenant) k response

variable (h : ModelInvocationHandler)

lemma wakeful_onError (k : KeySlot) (exc : VendorError) (attempt : ℕ) :
    Wakeful (h.onError k exc attempt) :=
  wakeful_compositional.onError h k exc attempt

/-! ### The asynchronous handler only appends -/

variable (w)

lemma appends_abackoff (k : KeySlot) (exc : VendorError) (attempt : ℕ) :
    Appends (abackoff h w k exc attempt) :=
  emitsOnly_bind (emitsOnly_emit trivial) fun _ => emitsOnly_bind (emitsOnly_orRaise _) fun _ =>
    emitsOnly_orRaise _

def isCall : Event → Bool
  | .called .. => true
  | _ => false

/-- An attempt makes a call. -/
lemma calls_aattemptOnce (c : InvocationContext) (k : KeySlot) (attempt : ℕ) (s : Machine) :
    Emits Machine.log (aattemptOnce h w c k attempt) s fun es _ => 0 < es.countP isCall := by
  unfold aattemptOnce
  refine emits_step rfl rfl ?_
  have hpos : ∀ (e : Event) (es : List Event), isCall e = true →
      0 < ([e] ++ es).countP isCall := by
    intro e es he
    rw [List.countP_append, List.countP_singleton, if_pos he]
    exact Nat.add_pos_left Nat.one_pos _
  cases w.acomplete s.log k.provider c.request k.apiKey with
  | returned response =>
    have hrest := emitsOnly_bind (wakeful_onSuccess w.toWorld c k response).appends
      fun outcome => emitsOnly_pure (Attempted.done outcome)
    exact (hrest _).mono fun es _ _ => hpos _ es rfl
  | raisedLibrary e => exact emits_throw (hpos _ _ rfl)
  | raised exc =>
    refine emits_bind (wakeful_onError h k exc attempt _) ?_ fun es _ _ _ => hpos _ _ rfl
    intro es out t _
    cases out with
    | none =>
      exact emits_bind (appends_abackoff w h k exc attempt t)
        (fun _ _ _ _ => emits_pure (hpos _ _ rfl)) fun _ _ _ _ => hpos _ _ rfl
    | some outcome => cases outcome <;> exact emits_pure (hpos _ _ rfl)

lemma appends_aattemptOnce (c : InvocationContext) (k : KeySlot) (attempt : ℕ) :
    Appends (aattemptOnce h w c k attempt) :=
  fun s => (calls_aattemptOnce w h c k attempt s).mono fun _ _ _ _ _ => trivial

lemma appends_aattemptLoop (c : InvocationContext) (k : KeySlot) (n attempt : ℕ) :
    Appends (aattemptLoop h w c k n attempt) := by
  induction n generalizing attempt with
  | zero => exact emitsOnly_pure _
  | succ n ih =>
    refine emitsOnly_bind (appends_aattemptOnce w h _ _ _) fun a => ?_
    cases a with
    | again => exact ih _
    | nextKey => exact emitsOnly_pure _
    | done => exact emitsOnly_pure _

lemma appends_akeyLoop (c : InvocationContext) (p : ModelProvider) (hasMoreProviders : Bool)
    (keys : List (Option Credential)) (index : ℕ) :
    Appends (akeyLoop h w c p hasMoreProviders keys index) := by
  induction keys generalizing index with
  | nil => exact emitsOnly_pure _
  | cons credential rest ih =>
    refine emitsOnly_bind (appends_aattemptLoop w h _ _ _ _) fun out => ?_
    cases out with
    | none => exact ih _
    | some outcome => exact emitsOnly_pure _

lemma appends_ahandle (c : InvocationContext) : Appends (ahandle h w c) := by
  unfold ahandle
  split
  · exact emitsOnly_pure _
  · exact emitsOnly_bind emitsOnly_get fun _ => appends_akeyLoop w h _ _ _ _ _

lemma calls_aattemptLoop (c : InvocationContext) (k : KeySlot) (n attempt : ℕ) (s : Machine) :
    Emits Machine.log (aattemptLoop h w c k (n + 1) attempt) s
      fun es _ => 0 < es.countP isCall := by
  refine emits_bind (calls_aattemptOnce w h c k attempt s) ?_ fun _ _ _ hpos => hpos
  intro es a t hpos
  have hgrown : ∀ fs : List Event, 0 < (es ++ fs).countP isCall := by
    intro fs
    rw [List.countP_append]
    exact Nat.add_pos_left hpos _
  cases a with
  | again => exact (appends_aattemptLoop w h c k n (attempt + 1) t).mono fun fs _ _ => hgrown fs
  | nextKey => exact emits_pure (hgrown [])
  | done => exact emits_pure (hgrown [])

/-! ### The handlers are twins -/

/-- From a state, the two programs do the same, or part on an unclamped hint. -/
abbrev Alike {α : Type} (ends : EStateM.Result PyException Machine α → Prop) (x y : Run α)
    (s : Machine) : Prop :=
  Twin Machine.log (Unclamped w.refusesNaN) (fun e => ∃ b, e = .builtin b) isCall ends x y s

variable {w}

lemma alike_refl {α : Type} {ends : EStateM.Result PyException Machine α → Prop} {x : Run α}
    {s : Machine} (hx : Wakeful x) : Alike w ends x x s :=
  twin_refl (hx.clamped _)

lemma finalState_orRaise {α : Type} (x : Except PyException α) (s : Machine) :
    finalState ((orRaise x).run s) = s := by
  cases x <;> rfl

/-- A wait logs its delay, then raises or not. -/
lemma run_backoff (k : KeySlot) (exc : VendorError) (attempt : ℕ) (s : Machine)
    {delay : Except BuiltinError PyFloat} (hdelay : h.backoffDelay attempt k.provider exc = delay) :
    let t := { s with log := s.log ++ [.backedOff k.provider attempt exc delay] }
    (h.backoff k exc attempt).run s =
        (orRaise ((delay.mapError .builtin).bind Handlers.ModelInvocationHandler.sleep)).run t ∧
      (abackoff h w k exc attempt).run s =
        (orRaise ((delay.mapError .builtin).bind (asleep w))).run t := by
  unfold Handlers.ModelInvocationHandler.backoff abackoff
  rw [hdelay]
  cases delay <;> exact ⟨rfl, rfl⟩

lemma alike_backoff (n : ℤ) (k : KeySlot) (exc : VendorError) (attempt : ℕ) (s : Machine) :
    Alike w (fun r => ∃ t, r = .ok ⟨⟩ t)
      (Handlers.ModelInvocationHandler.backoff { maxAttempts := n } k exc attempt)
      (abackoff { maxAttempts := n } w k exc attempt) s := by
  obtain ⟨delay, hdelay⟩ : ∃ delay, Handlers.ModelInvocationHandler.backoffDelay
      { maxAttempts := n } attempt k.provider exc = delay := ⟨_, rfl⟩
  obtain ⟨hsync, hasync⟩ := run_backoff (w := w) { maxAttempts := n } k exc attempt s hdelay
  refine ⟨[.backedOff k.provider attempt exc delay], ?_, ?_⟩
  · rw [hsync, finalState_orRaise]
  · rw [hsync, hasync]
    refine (delay_cases (w := w) n k.provider attempt exc hdelay).imp ?_ ?_
    · rintro ⟨hsame, hclamped⟩
      refine ⟨?_, by simpa using hclamped⟩
      cases delay with
      | error e => rfl
      | ok d =>
        have hd : (Except.ok d : Except BuiltinError PyFloat).mapError PyException.builtin =
          .ok d := rfl
        rw [hd, Except.bind, Except.bind, hsame d rfl]
    · rintro ⟨⟨d, e, rfl, hraises, hyields⟩, hbad⟩
      have hd : (Except.ok d : Except BuiltinError PyFloat).mapError PyException.builtin =
        .ok d := rfl
      rw [hd, Except.bind, Except.bind, hraises, hyields]
      exact ⟨⟨_, by simp, hbad⟩, ⟨_, _, rfl, e, rfl⟩, le_rfl, .inr ⟨_, rfl⟩⟩

/-! ### The loops of the invocation handler -/

/-- A failure is retried while attempts are left, or when nothing else is. -/
lemma onError_none (k : KeySlot) (exc : VendorError) (attempt : ℕ) :
    Yields (h.onError k exc attempt) fun out => out = none →
      attempt < h.maxAttempts ∨ (k.hasMoreCredentials = false ∧ k.hasMoreProviders = false) := by
  have hgiveUp : ∀ errorClass, Yields (giveUp k errorClass exc) fun out => out = none →
      attempt < h.maxAttempts ∨ (k.hasMoreCredentials = false ∧ k.hasMoreProviders = false) := by
    intro errorClass
    unfold giveUp
    split
    · exact yields_pure (by simp)
    · split
      · exact yields_pure (by simp)
      · exact yields_seq fun _ => yields_pure (by simp)
  refine yields_seq fun _ => ?_
  split
  · next hretry =>
    refine yields_pure fun _ => .inl ?_
    simp only [Bool.and_eq_true, decide_eq_true_eq] at hretry
    exact hretry.2
  · split
    · next hhint =>
      have hnone : k.hasMoreCredentials = false ∧ k.hasMoreProviders = false := by
        simp only [consultsHint, Bool.and_eq_true, Bool.not_eq_true'] at hhint
        exact ⟨hhint.1.1.2, hhint.1.2⟩
      refine yields_seq fun _ => yields_seq fun hint => ?_
      cases hint with
      | none => exact yields_pure fun _ => .inr hnone
      | some x =>
        dsimp only
        split
        · exact yields_pure fun _ => .inr hnone
        · exact hgiveUp _
    · exact hgiveUp _

section

variable (hw : w.acomplete = w.complete) {n : ℤ} {s : Machine}
include hw

lemma acomplete_eq (c : InvocationContext) (k : KeySlot) (attempt : ℕ) :
    acomplete w c k attempt = complete w.toWorld c k attempt := by
  unfold acomplete complete
  rw [hw]

/-- Where an attempt parts, the asynchronous side is about to try again. -/
lemma alike_attemptOnce (c : InvocationContext) (k : KeySlot) (attempt : ℕ) :
    Alike w (fun r => (∃ t, r = .ok .again t) ∧
        (attempt < n ∨ (k.hasMoreCredentials = false ∧ k.hasMoreProviders = false)))
      (attemptOnce { maxAttempts := n } w.toWorld c k attempt)
      (aattemptOnce { maxAttempts := n } w c k attempt) s := by
  unfold attemptOnce aattemptOnce
  rw [acomplete_eq hw]
  refine twin_bind_same ((wakeful_complete _ _ _ _).clamped _) ?_
  intro result t _
  cases result with
  | returned response =>
    exact alike_refl (emitsOnly_bind (wakeful_onSuccess _ _ _ _) fun _ => emitsOnly_pure _)
  | raisedLibrary e => exact alike_refl (emitsOnly_throw _)
  | raised exc =>
    refine twin_bind_same ((wakeful_onError _ _ _ _).clamped _) ?_
    intro out u hrun
    cases out with
    | none =>
      have hretried := onError_none _ k exc attempt t none (by rw [hrun]; rfl) rfl
      refine twin_bind (alike_backoff n k exc attempt u)
        (fun _ _ _ => alike_refl (emitsOnly_pure _)) (fun _ => emitsOnly_pure _) ?_ ?_
      · exact fun _ t _ => emits_pure (.inr ⟨⟨t, rfl⟩, hretried⟩)
      · rintro e t ⟨t', h⟩
        cases h
    | some outcome => cases outcome <;> exact alike_refl (emitsOnly_pure _)

/-- Where the attempts with a key part at the last one, no key and no provider is left. -/
lemma alike_attemptLoop (c : InvocationContext) (k : KeySlot) (m attempt : ℕ)
    (hm : attempt + m = n.toNat + 1) :
    Alike w (fun r => (∃ t, r = .ok none t) ∧
        k.hasMoreCredentials = false ∧ k.hasMoreProviders = false)
      (attemptLoop { maxAttempts := n } w.toWorld c k m attempt)
      (aattemptLoop { maxAttempts := n } w c k m attempt) s := by
  induction m generalizing attempt s with
  | zero => exact alike_refl (emitsOnly_pure _)
  | succ m ih =>
    refine twin_bind (alike_attemptOnce hw c k attempt) ?_ ?_ ?_ ?_
    · intro a t _
      cases a with
      | again => exact ih (attempt + 1) (by omega)
      | nextKey => exact alike_refl (emitsOnly_pure _)
      | done => exact alike_refl (emitsOnly_pure _)
    · intro a
      cases a with
      | again => exact appends_aattemptLoop _ _ _ _ _ _
      | nextKey => exact emitsOnly_pure _
      | done => exact emitsOnly_pure _
    · rintro a t ⟨⟨t', h⟩, hleft⟩
      cases h
      cases m with
      | zero =>
        have hlast : k.hasMoreCredentials = false ∧ k.hasMoreProviders = false :=
          hleft.resolve_left (by omega)
        exact emits_pure (.inr ⟨⟨t, rfl⟩, hlast⟩)
      | succ m =>
        exact (calls_aattemptLoop w _ c k m (attempt + 1) t).mono fun _ _ hpos => .inl hpos
    · rintro e t ⟨⟨t', h⟩, -⟩
      cases h

lemma alike_keyLoop (c : InvocationContext) (p : ModelProvider) (hasMoreProviders : Bool)
    (keys : List (Option Credential)) (index : ℕ) :
    Alike w (fun r => (∃ t, r = .ok .fallback t) ∧ hasMoreProviders = false)
      (keyLoop { maxAttempts := n } w.toWorld c p hasMoreProviders keys index)
      (akeyLoop { maxAttempts := n } w c p hasMoreProviders keys index) s := by
  induction keys generalizing index s with
  | nil => exact alike_refl (emitsOnly_pure _)
  | cons credential rest ih =>
    refine twin_bind (alike_attemptLoop hw c _ _ 1 (by rw [Nat.add_comm])) ?_ ?_ ?_ ?_
    · intro out t _
      cases out with
      | none => exact ih (index + 1)
      | some outcome => exact alike_refl (emitsOnly_pure _)
    · intro out
      cases out with
      | none => exact appends_akeyLoop _ _ _ _ _ _ _
      | some outcome => exact emitsOnly_pure _
    · rintro out t ⟨⟨t', h⟩, hkeys, hproviders⟩
      cases h
      have hrest : rest = [] := by simpa using hkeys
      subst hrest
      exact emits_pure (.inr ⟨⟨t, rfl⟩, hproviders⟩)
    · rintro e t ⟨⟨t', h⟩, -⟩
      cases h

/-- Where the handler parts, its candidate was the last one and is given up. -/
def GivesUp (c : InvocationContext) (r : EStateM.Result PyException Machine HandlerOutcome) :
    Prop :=
  (∃ t, r = .ok .fallback t) ∧ c.candidates.tail = []

lemma alike_handle (c : InvocationContext) :
    Alike w (GivesUp c) (handle { maxAttempts := n } w.toWorld c)
      (ahandle { maxAttempts := n } w c) s := by
  unfold handle ahandle GivesUp
  cases c.candidates with
  | nil => exact alike_refl (emitsOnly_pure _)
  | cons p rest =>
    refine twin_bind_same emitsOnly_get fun s _ _ => ?_
    refine (alike_keyLoop hw c p (!rest.isEmpty) _ 0).mono ?_
    rintro r ⟨hr, hrest⟩
    exact ⟨hr, by simpa using hrest⟩

end

/-! ### The executor of the chain -/

variable (w) in
structure TwinHandlers (x y : FallbackHandler) : Prop where
  alike : ∀ c s, Alike w (GivesUp c) (x c) (y c) s
  appends : ∀ c, Appends (y c)

lemma twinHandlers_refl {x : FallbackHandler} (h : ∀ c, Wakeful (x c)) : TwinHandlers w x x :=
  ⟨fun c _ => alike_refl (h c), fun c => (h c).appends⟩

lemma twin_buildChain (hw : w.acomplete = w.complete) (settings : GatewaySettings) :
    List.Forall₂ (TwinHandlers w) (buildChain w.toWorld settings) (abuildChain w settings) :=
  .cons (twinHandlers_refl fun _ => wakeful_compositional.perimeterHandler _)
    (.cons (twinHandlers_refl fun _ => wakeful_compositional.credentialHandler)
      (.cons (twinHandlers_refl fun c => wakeful_compositional.quotaHandler
          (wakeful_reserve w.toWorld c.tenant))
        (.cons ⟨fun c _ => alike_handle hw c, appends_ahandle w _⟩ .nil)))

/-- The asynchronous side has raised an exception of the library. -/
def RaisesLibrary {α : Type} (r : EStateM.Result PyException Machine α) : Prop :=
  ∃ e t, r = .error (.library e) t

section

variable {chain achain : FallbackChain} (hchain : List.Forall₂ (TwinHandlers w) chain achain)
variable {s : Machine}
include hchain

lemma appends_awalk (c : InvocationContext) : Appends (Async.FallbackChain.awalk c achain) := by
  induction hchain with
  | nil => exact emitsOnly_pure _
  | cons h _ ih =>
    refine emitsOnly_bind (h.appends c) fun outcome => ?_
    cases outcome with
    | proceed => exact ih
    | _ => exact emitsOnly_pure _

lemma alike_walk (c : InvocationContext) :
    Alike w (GivesUp c) (FallbackChain.walk c chain) (Async.FallbackChain.awalk c achain) s := by
  induction hchain generalizing s with
  | nil => exact alike_refl (emitsOnly_pure _)
  | cons h hrest ih =>
    refine twin_bind (h.alike c s) ?_ ?_ ?_ ?_
    · intro outcome t _
      cases outcome with
      | proceed => exact ih
      | _ => exact alike_refl (emitsOnly_pure _)
    · intro outcome
      cases outcome with
      | proceed => exact appends_awalk hrest c
      | _ => exact emitsOnly_pure _
    · rintro outcome t ⟨⟨t', h⟩, hlast⟩
      cases h
      exact emits_pure (.inr ⟨⟨t, rfl⟩, hlast⟩)
    · rintro e t ⟨⟨t', h⟩, -⟩
      cases h

lemma appends_aloop (request : CompletionRequest) (tenant : TenantContext)
    (candidates : List ModelProvider) :
    Appends (Async.FallbackChain.aloop achain request tenant candidates) := by
  induction candidates with
  | nil => exact emitsOnly_throw _
  | cons p rest ih =>
    refine emitsOnly_bind (emitsOnly_bind (emitsOnly_emit trivial) fun _ =>
      appends_awalk hchain _) fun outcome => ?_
    cases outcome with
    | proceed => exact emitsOnly_throw _
    | success => exact (Wakeful.appends wakeful_compositional.succeed)
    | fallback => exact emitsOnly_bind (emitsOnly_update _) fun _ => ih
    | stop => exact emitsOnly_bind emitsOnly_get fun _ => emitsOnly_throw _

lemma alike_loop (request : CompletionRequest) (tenant : TenantContext)
    (candidates : List ModelProvider) :
    Alike w RaisesLibrary (FallbackChain.loop chain request tenant candidates)
      (Async.FallbackChain.aloop achain request tenant candidates) s := by
  induction candidates generalizing s with
  | nil => exact alike_refl (emitsOnly_throw _)
  | cons p rest ih =>
    have hpass : Alike w (GivesUp ⟨request, tenant, p :: rest⟩)
        (FallbackChain.pass chain ⟨request, tenant, p :: rest⟩)
        (Async.FallbackChain.apass achain ⟨request, tenant, p :: rest⟩) s :=
      twin_bind_same (Wakeful.clamped (emitsOnly_emit id) _) fun _ _ _ => alike_walk hchain _
    refine twin_bind hpass ?_ ?_ ?_ ?_
    · intro outcome t _
      cases outcome with
      | proceed => exact alike_refl (emitsOnly_throw _)
      | success => exact alike_refl wakeful_compositional.succeed
      | fallback => exact twin_bind_same (emitsOnly_update _) fun _ _ _ => ih
      | stop => exact alike_refl (emitsOnly_bind emitsOnly_get fun _ => emitsOnly_throw _)
    · intro outcome
      cases outcome with
      | proceed => exact emitsOnly_throw _
      | success => exact (Wakeful.appends wakeful_compositional.succeed)
      | fallback =>
        exact emitsOnly_bind (emitsOnly_update _) fun _ => appends_aloop hchain _ _ _
      | stop => exact emitsOnly_bind emitsOnly_get fun _ => emitsOnly_throw _
    · -- the last candidate was given up: the next round finds none left
      rintro outcome t ⟨⟨t', h⟩, hlast⟩
      cases h
      have hrest : rest = [] := hlast
      subst hrest
      exact emits_step rfl (List.append_nil _).symm (emits_throw (.inr ⟨_, _, rfl⟩))
    · rintro e t ⟨⟨t', h⟩, -⟩
      cases h

lemma appends_adispatchTurn (tenant : TenantContext) (candidates : List ModelProvider)
    (st : ConversationState) :
    Appends (Async.AgentLoop.adispatchTurn achain tenant candidates st) := by
  refine emitsOnly_bind (emitsOnly_update _) fun _ => ?_
  unfold Async.FallbackChain.aexecute
  split
  · exact emitsOnly_throw _
  · exact appends_aloop hchain _ _ _

lemma alike_dispatchTurn (tenant : TenantContext) (candidates : List ModelProvider)
    (st : ConversationState) :
    Alike w RaisesLibrary (AgentLoop.dispatchTurn chain tenant candidates st)
      (Async.AgentLoop.adispatchTurn achain tenant candidates st) s := by
  refine twin_bind_same (emitsOnly_update _) fun _ _ _ => ?_
  unfold FallbackChain.execute Async.FallbackChain.aexecute
  split
  · exact alike_refl (emitsOnly_throw _)
  · exact alike_loop hchain _ _ _

end

/-! ### The agent loop -/

/-- A tool with a synchronous implementation, which its asynchronous one, if any, agrees with. -/
def TwinTool (t : Tool) : Prop :=
  ∃ handler, t.handler = some handler ∧ ∀ ahandler, t.ahandler = some ahandler → ahandler = handler

lemma aexecute_eq {registry : ToolRegistry} (hr : ∀ t ∈ registry.tools.values, TwinTool t)
    (log : List Event) (call : ToolCall) :
    Async.ToolExecutor.aexecute registry log call = ToolExecutor.execute registry log call := by
  unfold Async.ToolExecutor.aexecute ToolExecutor.execute
  cases ht : registry.get call.name with
  | none => rfl
  | some tool =>
    obtain ⟨handler, hsync, hasync⟩ := hr tool (PyDict.mem_values_of_get? ht)
    dsimp only
    rw [hsync]
    cases ha : tool.ahandler with
    | none => rfl
    | some ahandler => rw [hasync ahandler ha]; rfl

lemma wakeful_runToolCalls (registry : ToolRegistry) (calls : List ToolCall)
    (st : ConversationState) : Wakeful (AgentLoop.runToolCalls registry calls st) := by
  induction calls generalizing st with
  | nil => exact emitsOnly_pure _
  | cons call rest ih =>
    refine emitsOnly_bind emitsOnly_get fun s => ?_
    exact emitsOnly_bind (wakeful_compositional.append _ _) fun _ => ih _

lemma arunToolCalls_eq {registry : ToolRegistry} (hr : ∀ t ∈ registry.tools.values, TwinTool t)
    (calls : List ToolCall) (st : ConversationState) :
    Async.AgentLoop.arunToolCalls registry calls st =
      AgentLoop.runToolCalls registry calls st := by
  induction calls generalizing st with
  | nil => rfl
  | cons call rest ih =>
    unfold Async.AgentLoop.arunToolCalls AgentLoop.runToolCalls
    refine bind_congr fun s => ?_
    dsimp only
    rw [aexecute_eq hr]
    exact bind_congr fun st' => ih st'

lemma wakeful_pastDeadline (v : World) (deadline : Option PyFloat) :
    Wakeful (AgentLoop.pastDeadline v deadline) := by
  intro s
  refine (emits_pastDeadline deadline).mono ?_
  rintro es r ⟨late, t, -, rfl⟩
  simp

lemma wakeful_absorb (st : ConversationState) (response : CompletionResponse) :
    Wakeful (AgentLoop.absorb st response) :=
  wakeful_compositional.absorb st response

section

variable {chain achain : FallbackChain} (hchain : List.Forall₂ (TwinHandlers w) chain achain)
variable {registry : ToolRegistry} (hr : ∀ t ∈ registry.tools.values, TwinTool t)
variable (tenant : TenantContext) (candidates : List ModelProvider) (deadline : Option PyFloat)
include hchain hr

omit hchain in
/-- What follows the response of a turn, when the turns after it only append. -/
lemma appends_followUp (v : World) {n : ℕ} (hrest : ∀ st steps, Appends
      (Async.AgentLoop.arun v achain tenant registry candidates deadline n st steps))
    (st : ConversationState) (steps : List StepResult) (response : CompletionResponse) :
    Appends (do
      let s ← get
      let st ← AgentLoop.absorb st response
      let steps := steps ++ [⟨response.message, response.usage, s.scratch.attempts⟩]
      if response.message.toolCalls ≠ [] then
        let st ← Async.AgentLoop.arunToolCalls registry response.message.toolCalls st
        Async.AgentLoop.arun v achain tenant registry candidates deadline n st steps
      else return AgentLoop.finalize st steps .completed) := by
  refine emitsOnly_bind emitsOnly_get fun s => ?_
  refine emitsOnly_bind (wakeful_absorb _ _).appends fun st₁ => ?_
  dsimp only
  split_ifs
  · rw [arunToolCalls_eq hr]
    exact emitsOnly_bind (wakeful_runToolCalls _ _ _).appends fun st₂ => hrest _ _
  · exact emitsOnly_pure _

lemma appends_arun (v : World) (n : ℕ) (st : ConversationState) (steps : List StepResult) :
    Appends (Async.AgentLoop.arun v achain tenant registry candidates deadline n st steps) := by
  induction n generalizing st steps with
  | zero => exact emitsOnly_pure _
  | succ n ih =>
    refine emitsOnly_bind (wakeful_pastDeadline v deadline).appends fun late => ?_
    split_ifs
    · exact emitsOnly_pure _
    · exact emitsOnly_bind (appends_adispatchTurn hchain _ _ _) fun response =>
        appends_followUp hr tenant candidates deadline v ih st steps response

/-- The induction is on the turns left. -/
lemma alike_run (v : World) (n : ℕ) (st : ConversationState) (steps : List StepResult)
    (s : Machine) :
    Alike w RaisesLibrary (AgentLoop.run v chain tenant registry candidates deadline n st steps)
      (Async.AgentLoop.arun v achain tenant registry candidates deadline n st steps) s := by
  induction n generalizing st steps s with
  | zero => exact alike_refl (emitsOnly_pure _)
  | succ n ih =>
    refine twin_bind_same ((wakeful_pastDeadline v deadline).clamped _) fun late t _ => ?_
    split_ifs
    · exact alike_refl (emitsOnly_pure _)
    · refine twin_bind (alike_dispatchTurn hchain _ _ _) ?_ ?_ ?_ ?_
      · intro response u _
        refine twin_bind_same emitsOnly_get fun s _ _ => ?_
        refine twin_bind_same ((wakeful_absorb _ _).clamped _) fun st₁ _ _ => ?_
        dsimp only
        split_ifs
        · rw [arunToolCalls_eq hr]
          exact twin_bind_same ((wakeful_runToolCalls _ _ _).clamped _) fun st₂ _ _ => ih _ _ _
        · exact alike_refl (emitsOnly_pure _)
      · exact fun response => appends_followUp hr tenant candidates deadline v
          (appends_arun hchain hr tenant candidates deadline v n) st steps response
      · rintro response t ⟨e, t', h⟩
        cases h
      · rintro e t ⟨e', t', h⟩
        cases h
        exact ⟨e', t, rfl⟩

end

/-! ### Dispatches -/

lemma alike_dispatch (hw : w.acomplete = w.complete) (g : ModelGateway)
    (request : CompletionRequest) (tenant : TenantContext) (tools : Option ToolRegistry)
    (htools : ∀ registry, tools = some registry → ∀ t ∈ registry.tools.values, TwinTool t)
    (s : Machine) :
    Alike w RaisesLibrary (g.dispatch w.toWorld request tenant tools)
      (adispatch w g request tenant tools) s := by
  have hregistry : ∀ t ∈ (tools.getD {}).tools.values, TwinTool t := by
    cases tools with
    | none => exact fun t ht => absurd ht List.not_mem_nil
    | some registry => exact htools registry rfl
  have hprepare : Wakeful (g.prepare request tenant) :=
    wakeful_compositional.prepare g request tenant
  exact twin_bind_same (hprepare.clamped _) fun candidates _ _ =>
    alike_run (twin_buildChain hw g.settings) hregistry tenant candidates none _ _ _ _ _

/-- An asynchronous dispatch on a fresh log, over a quota state. -/
def adispatched (w : AsyncWorld) (g : ModelGateway) (request : CompletionRequest)
    (tenant : TenantContext) (tools : Option ToolRegistry) (q : QuotaState) :
    EStateM.Result PyException Machine RunResult :=
  (adispatch w g request tenant tools).run { quota := q }

/-- The delays waited for, among some events. -/
def napsIn (es : List Event) : List (Except BuiltinError PyFloat) :=
  es.filterMap fun
    | .backedOff _ _ _ delay => some delay
    | _ => none

/-- Two dispatches return equal results or raise the same exception, make the same calls and
waits, and leave the same store. -/
structure Agree (r r' : EStateM.Result PyException Machine RunResult) : Prop where
  answer : answer r = answer r'
  calls : callsIn (finalState r).log = callsIn (finalState r').log
  naps : napsIn (finalState r).log = napsIn (finalState r').log
  store : (finalState r).quota.store = (finalState r').quota.store

lemma length_callsIn (es : List Event) : (callsIn es).length = es.countP isCall := by
  induction es with
  | nil => rfl
  | cons e es ih =>
    rw [List.countP_cons, ← ih]
    cases e <;> rfl

/-- **Two pipelines.** With the same vendors and tools, the synchronous and the asynchronous
dispatch agree exactly when no failure that the synchronous one retries has an unclamped hint. -/
theorem agree_iff_no_unclamped (w : AsyncWorld) (g : ModelGateway) (request : CompletionRequest)
    (tenant : TenantContext) (tools : Option ToolRegistry) (q : QuotaState)
    (hw : w.acomplete = w.complete)
    (htools : ∀ registry, tools = some registry → ∀ t ∈ registry.tools.values, TwinTool t) :
    Agree (dispatched w.toWorld g request tenant tools q)
        (adispatched w g request tenant tools q) ↔
      ∀ e ∈ (finalState (dispatched w.toWorld g request tenant tools q)).log,
        ¬ Unclamped w.refusesNaN e := by
  obtain ⟨es, hlog, htwin⟩ := alike_dispatch hw g request tenant tools htools { quota := q }
  have hes : (finalState (dispatched w.toWorld g request tenant tools q)).log = es := hlog
  rcases htwin with ⟨hsame, hclean⟩ | ⟨⟨e, he, hbad⟩, ⟨⟨e', t, hsync, b, rfl⟩, -, hapart⟩⟩
  · have hsame : adispatched w g request tenant tools q =
        dispatched w.toWorld g request tenant tools q := hsame
    rw [hsame, hes]
    exact iff_of_true ⟨rfl, rfl, rfl, rfl⟩ hclean
  · rw [hes]
    refine iff_of_false ?_ fun hclean => hclean e he hbad
    rintro ⟨hanswer, hcalls, -, -⟩
    rcases hapart with hahead | ⟨e', t', hasync⟩
    · refine hahead.ne ?_
      rw [← length_callsIn, ← length_callsIn]
      exact congrArg List.length hcalls
    · have hanswer : answer (dispatched w.toWorld g request tenant tools q) =
        answer (adispatched w g request tenant tools q) := hanswer
      unfold dispatched adispatched at hanswer
      rw [hsync, hasync] at hanswer
      cases hanswer

namespace Sample

open Refinement.Sample Delivery.Sample

/-- A vendor that fails once with a `Retry-After` header, then answers; the same for both
sides. -/
def world (retryAfter : String) : AsyncWorld where
  monotonic _ := 0
  complete log _ _ _ :=
    if callsIn log = [] then
      .raised ⟨py "Error", py "503", some [(py "Retry-After", py retryAfter)]⟩
    else .returned response
  acomplete log _ _ _ :=
    if callsIn log = [] then
      .raised ⟨py "Error", py "503", some [(py "Retry-After", py retryAfter)]⟩
    else .returned response
  refusesNaN := true

abbrev sync (retryAfter : String) : EStateM.Result PyException Machine RunResult :=
  dispatched (world retryAfter).toWorld (gateway {} (provider "p" .free)) request tenant none {}

abbrev async (retryAfter : String) : EStateM.Result PyException Machine RunResult :=
  adispatched (world retryAfter) (gateway {} (provider "p" .free)) request tenant none {}

end Sample

/-- A vendor's negative retry hint aborts the synchronous dispatch only. -/
theorem negative_hint_parts : ¬ ∀ (w : AsyncWorld) (g : ModelGateway)
    (request : CompletionRequest) (tenant : TenantContext) (tools : Option ToolRegistry)
    (q : QuotaState), w.acomplete = w.complete →
    (∀ registry, tools = some registry → ∀ t ∈ registry.tools.values, TwinTool t) →
    Agree (dispatched w.toWorld g request tenant tools q)
      (adispatched w g request tenant tools q) := by
  intro h
  have hagree : Agree (Sample.sync "-5") (Sample.async "-5") := h _ _ _ _ _ _ rfl (by simp)
  have hsync : (answer (Sample.sync "-5")).isOk = false := by decide +kernel
  have hasync : (answer (Sample.async "-5")).isOk = true := by decide +kernel
  rw [hagree.answer, hasync] at hsync
  cases hsync

/-- Both sides wait out a positive hint. -/
theorem positive_hint_agrees : Agree (Sample.sync "5") (Sample.async "5") := by
  refine (agree_iff_no_unclamped (Sample.world "5") _ _ _ none {} rfl (by simp)).mpr ?_
  have hhints : (finalState (Sample.sync "5")).log.all (fun
      | .backedOff p _ exc _ => p.retryAfterSeconds exc = .ok (some (ofRat 5))
      | _ => true) = true := by
    decide +kernel
  intro e he
  have hhint := List.all_eq_true.mp hhints e he
  cases e with
  | backedOff p attempt exc delay =>
    rintro ⟨hint, h, hbad⟩
    rw [of_decide_eq_true hhint] at h
    cases h
    revert hbad
    decide +kernel
  | _ => exact id

end ModelDispatcher.Agreement
