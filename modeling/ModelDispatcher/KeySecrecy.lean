import ModelDispatcher.Dispatches
import ModelDispatcher.Payloads

/-!
Where a key may turn up: the attempt records of a dispatch, and the bodies of the errors it raises.
A dispatch copies texts into both, those of the vendors' exceptions among them; what it copies is
followed through every step.
-/

namespace ModelDispatcher.KeySecrecy

open Lib.Text Lib.Binary64 Lib.Floats Lib.Json Lib.Logged DataTypes Exceptions Config Providers
open Quota Security Machines Routing Handlers ModelInvocationHandler Chain Orchestration Gateway
open Turns Dispatches Payloads

/-! ### The texts that leave -/

/-- The string fields of an attempt record. -/
def recordTexts (r : AttemptRecord) : List PyStr :=
  r.providerName :: ((r.errorClass.map ErrorClass.value).toList ++ r.detail.toList ++
    r.credentialRef.toList)

/-- The names and the string values of a flat JSON object. -/
def objectTexts (fields : JSONObject) : List PyStr :=
  fields.flatMap fun
    | (name, .str s) => [name, s]
    | (name, _) => [name]

/-- The record of an attempt that made a call, with the exception it failed with. -/
def recordOf (call : Call) (failure : Option VendorError) : AttemptRecord where
  providerName := call.provider.name
  errorClass := failure.map call.provider.classifyError
  detail := failure.map (·.text)
  credentialRef := call.credential.map (·.secretRef)

/-- Some call was made with the key. -/
def Used (key : PyStr) (log : List Event) : Prop := ∃ x ∈ callsIn log, x.1.apiKey = some key

section

variable (repr : PyStr → PyStr) (key : PyStr)

/-- The key is in none of the texts. -/
def Silent (texts : List PyStr) : Prop := ∀ text ∈ texts, ¬ key <:+: text

/-- The key is in no attempt record of the steps. -/
def SilentSteps (steps : List StepResult) : Prop :=
  ∀ step ∈ steps, ∀ record ∈ step.attempts, Silent key (recordTexts record)

/-- The key is nowhere in the body of an error. -/
def SilentError (e : ModelDispatcherError) : Prop := Silent key (objectTexts (toPayload repr e))

/-- The key is in no attempt record of a result and in no body of an error that is raised. -/
structure Kept (r : EStateM.Result PyException Machine RunResult) : Prop where
  records : ∀ result, answer r = .ok result → SilentSteps key result.steps
  error : ∀ e, answer r = .error (.library e) → SilentError repr key e

/-! ### What a step quotes -/

/-- A failure of the class is neither retried nor handed to the next candidate. -/
def Terminal (errorClass : ErrorClass) : Prop :=
  isFallbackWorthy errorClass = false ∧ isRetryable errorClass = false

/-- The key is in nothing that is quoted of a call and its result. -/
def DiscreetCall (call : Call) : CallResult → Prop
  | .returned _ => Silent key (recordTexts (recordOf call none))
  | .raisedLibrary e => SilentError repr key e
  | .raised exc => Silent key (recordTexts (recordOf call (some exc))) ∧
      (Terminal (call.provider.classifyError exc) →
        SilentError repr key
          (terminalError call.provider.name (call.provider.classifyError exc) exc))

variable (security : SecuritySettings) (tenant : TenantContext)

/-- The key is in no error of the library that is raised. -/
def Spares : PyException → Prop
  | .library e => SilentError repr key e
  | _ => True

def SparesResult {ε α : Type} (P : ε → Prop) : Except ε α → Prop
  | .error e => P e
  | .ok _ => True

/-- The key is in nothing that is quoted of a step. -/
def Discreet : Event → Prop
  | .called call result => DiscreetCall repr key call result
  | .validated request t _ =>
    SparesResult (Spares repr key) (PerimeterValidator.validate security request t)
  | .resolved p _ =>
    SparesResult (SilentError repr key) (CredentialResolver.resolveCandidates tenant p)
  | .reserved p _ _ (.ok decision) => ¬ decision.granted → ∀ rateWindow, SilentError repr key
      (.quotaExceededError (OnboardingResolver.escalate tenant p.name rateWindow))
  | _ => True

instance (texts : List PyStr) : Decidable (Silent key texts) :=
  inferInstanceAs (Decidable (∀ text ∈ texts, ¬ key <:+: text))

instance (steps : List StepResult) : Decidable (SilentSteps key steps) :=
  inferInstanceAs (Decidable (∀ step ∈ steps, ∀ record ∈ step.attempts, _))

instance (e : ModelDispatcherError) : Decidable (SilentError repr key e) :=
  inferInstanceAs (Decidable (Silent key _))

instance (errorClass : ErrorClass) : Decidable (Terminal errorClass) :=
  inferInstanceAs (Decidable (_ ∧ _))

instance : DecidablePred (Discreet repr key security tenant)
  | .called _ (.returned _) => inferInstanceAs (Decidable (Silent key _))
  | .called _ (.raisedLibrary e) => inferInstanceAs (Decidable (SilentError repr key e))
  | .called _ (.raised _) => inferInstanceAs (Decidable (_ ∧ (_ → _)))
  | .validated request t _ =>
    match h : PerimeterValidator.validate security request t with
    | .error (.library e) => decidable_of_iff (SilentError repr key e) (by rw [Discreet, h]; rfl)
    | .error (.builtin _) => isTrue (by rw [Discreet, h]; trivial)
    | .error (.vendor _) => isTrue (by rw [Discreet, h]; trivial)
    | .ok _ => isTrue (by rw [Discreet, h]; trivial)
  | .resolved p _ =>
    match h : CredentialResolver.resolveCandidates tenant p with
    | .error e => decidable_of_iff (SilentError repr key e) (by rw [Discreet, h]; rfl)
    | .ok _ => isTrue (by rw [Discreet, h]; trivial)
  | .reserved _ _ _ (.ok _) => inferInstanceAs (Decidable (_ → ∀ _ : Bool, _))
  | .reserved _ _ _ (.error _) => isTrue trivial
  | .routed .. => isTrue trivial
  | .passStarted => isTrue trivial
  | .recorded _ => isTrue trivial
  | .hinted .. => isTrue trivial
  | .backedOff .. => isTrue trivial
  | .committed .. => isTrue trivial
  | .appended _ => isTrue trivial

/-- The errors with which the executor ends a chain of its own accord. -/
inductive Closing : ModelDispatcherError → Prop
  | unrouted : Closing (.allProvidersExhausted [lit "no candidate providers were routed"])
  | exhausted : Closing (.allProvidersExhausted [lit "all routed providers were exhausted"])
  | unanswered : Closing (.allProvidersExhausted [lit "fallback chain produced no response"])
  | stopped : Closing (.base [lit "fallback chain stopped"] 500 (py "internal_error"))

/-- The key is in no record and in no error a handler has left. -/
structure Tidy (s : Machine) : Prop where
  attempts : ∀ r ∈ s.scratch.attempts, Silent key (recordTexts r)
  error : ∀ e, s.scratch.error = some e → SilentError repr key e

/-- While no step quotes the key, the program keeps it out of what it leaves. -/
def Guards {α : Type} (H : Prop) (x : Run α) (P : α → Prop) : Prop :=
  ∀ s, Keeps Machine.log (Discreet repr key security tenant) (Tidy repr key) (Spares repr key) H x
    s P

end

/-! ### One rule for each step -/

section

variable {repr : PyStr → PyStr} {key : PyStr} {security : SecuritySettings}
variable {tenant : TenantContext} {α β : Type} {H : Prop} {P : α → Prop} {Q : β → Prop}

lemma guards_pure {a : α} (h : H → P a) : Guards repr key security tenant H (pure a) P :=
  fun _ => keeps_pure h

lemma guards_throw {e : PyException} (h : H → Spares repr key e) :
    Guards repr key security tenant H (throw e : Run α) P :=
  fun _ => keeps_throw fun hH _ => h hH

lemma guards_bind {x : Run α} {f : α → Run β} (hx : Guards repr key security tenant H x P)
    (hf : ∀ a, Guards repr key security tenant (H ∧ P a) (f a) Q) :
    Guards repr key security tenant H (x >>= f) Q :=
  fun s => keeps_bind (hx s) fun a t => hf a t

/-- A first part about whose value nothing is needed. -/
lemma guards_seq {x : Run α} {f : α → Run β}
    (hx : Guards repr key security tenant H x fun _ => True)
    (hf : ∀ a, Guards repr key security tenant H (f a) Q) :
    Guards repr key security tenant H (x >>= f) Q :=
  guards_bind hx fun a s => (hf a s).mono (·.1) fun _ _ h => h

lemma guards_get {f : Machine → Run β}
    (h : ∀ s, Guards repr key security tenant (H ∧ Tidy repr key s) (f s) Q) :
    Guards repr key security tenant H (get >>= f) Q :=
  fun s => keeps_get (h s s)

lemma guards_orRaise {x : Except PyException α} {f : α → Run β}
    (hok : ∀ a, x = .ok a → Guards repr key security tenant H (f a) Q)
    (herror : ∀ e, x = .error e → H → Spares repr key e) :
    Guards repr key security tenant H (orRaise x >>= f) Q := by
  cases x with
  | ok a => exact hok a rfl
  | error e => exact fun s => keeps_throw fun hH _ => herror e rfl hH

/-- An event; what it says may be used afterwards. -/
lemma guards_emit {e : Event} :
    Guards repr key security tenant H (emit e)
      fun _ => Discreet repr key security tenant e :=
  fun _ => keeps_run [e] rfl rfl fun _ hI hall => ⟨⟨hI.attempts, hI.error⟩, hall e (by simp)⟩

/-- A change of the scratch that keeps it tidy. -/
lemma guards_update {g : Scratch → Scratch}
    (hattempts : ∀ x, (g x).attempts = x.attempts)
    (herror : ∀ x, H → ∀ e, (g x).error = some e → x.error = some e ∨ SilentError repr key e) :
    Guards repr key security tenant H (updateScratch g) fun _ => True := by
  refine fun s => keeps_run [] rfl (List.append_nil _).symm fun hH hI _ => ⟨⟨?_, ?_⟩, trivial⟩
  · intro r hr
    exact hI.attempts r (hattempts s.scratch ▸ hr)
  · intro e he
    rcases herror s.scratch hH e he with hold | hnew
    · exact hI.error e hold
    · exact hnew

lemma guards_record {r : AttemptRecord} (h : H → Silent key (recordTexts r)) :
    Guards repr key security tenant H (recordAttempt r) fun _ => True := by
  refine fun s => keeps_run [.recorded r] rfl rfl fun hH hI _ => ⟨⟨?_, hI.error⟩, trivial⟩
  intro r' hr'
  rcases List.mem_append.mp hr' with hr' | hr'
  · exact hI.attempts r' hr'
  · rw [List.mem_singleton.mp hr']
    exact h hH

lemma guards_event {e : Event} : Guards repr key security tenant H (emit e) fun _ => True :=
  fun s => (guards_emit s).mono id fun _ _ _ => trivial

lemma guards_onQuota {x : QuotaM α} :
    Guards repr key security tenant H (onQuota x) fun _ => True :=
  fun s => keeps_run [] rfl (List.append_nil s.log).symm
    fun _ hI _ => ⟨⟨hI.attempts, hI.error⟩, trivial⟩

/-! ### One attempt -/

variable {h : ModelInvocationHandler} {w : World} {c : InvocationContext} {k : KeySlot}

/-- The call of an attempt. -/
def callAt (c : InvocationContext) (k : KeySlot) (attempt : ℕ) : Call :=
  ⟨k.provider, c.request, k.apiKey, k.credential, k.index, attempt⟩

lemma guards_complete (attempt : ℕ) :
    Guards repr key security tenant H (complete w c k attempt)
      fun result => DiscreetCall repr key (callAt c k attempt) result :=
  guards_get fun _ => guards_bind guards_emit fun _ => guards_pure fun h => h.2

lemma guards_commit {decision : QuotaDecision} {usage : Usage} :
    Guards repr key security tenant H (commit w c.tenant decision usage) fun _ => True :=
  guards_seq guards_event fun _ => guards_seq guards_onQuota fun _ => guards_pure fun _ => trivial

lemma guards_onSuccess {attempt : ℕ} {response : CompletionResponse}
    (hcall : H → DiscreetCall repr key (callAt c k attempt) (.returned response)) :
    Guards repr key security tenant H (onSuccess w c k response) fun _ => True := by
  refine guards_seq (guards_record hcall) fun _ => ?_
  refine guards_seq (guards_update (fun _ => rfl) fun _ _ _ he => .inl he) fun _ => ?_
  refine guards_get fun s => ?_
  cases s.scratch.reservation with
  | none => exact guards_pure fun _ => trivial
  | some d => exact guards_seq guards_commit fun _ => guards_pure fun _ => trivial

/-- Only a terminal failure leaves an error behind. -/
lemma guards_giveUp {errorClass : ErrorClass} {exc : VendorError}
    (hterminal : H → Terminal errorClass →
      SilentError repr key (terminalError k.provider.name errorClass exc)) :
    Guards repr key security tenant H (giveUp k errorClass exc) fun _ => True := by
  unfold giveUp
  split_ifs with hpasses
  · exact guards_pure fun _ => trivial
  · exact guards_pure fun _ => trivial
  · have hclass : Terminal errorClass := by simpa [Terminal] using hpasses
    refine guards_seq (guards_update (fun _ => rfl) fun _ hH e he => .inr ?_) fun _ =>
      guards_pure fun _ => trivial
    rw [← Option.some.inj he]
    exact hterminal hH hclass

lemma guards_onError {attempt : ℕ} {exc : VendorError}
    (hcall : H → DiscreetCall repr key (callAt c k attempt) (.raised exc)) :
    Guards repr key security tenant H (h.onError k exc attempt) fun _ => True := by
  have hgiveUp : Guards repr key security tenant H
      (giveUp k (k.provider.classifyError exc) exc) fun _ => True :=
    guards_giveUp fun hH => (hcall hH).2
  refine guards_seq (guards_record fun hH => (hcall hH).1) fun _ => ?_
  split_ifs
  · exact guards_pure fun _ => trivial
  · refine guards_seq guards_event fun _ => guards_orRaise (fun hint _ => ?_) fun e he _ => ?_
    · cases hint with
      | none => exact guards_pure fun _ => trivial
      | some x =>
        dsimp only
        split_ifs
        · exact guards_pure fun _ => trivial
        · exact hgiveUp
    · obtain ⟨e, -, rfl⟩ := Refinement.mapError_eq_error he
      trivial
  · exact hgiveUp

lemma spares_sleep {d : PyFloat} {e : PyException} (he : sleep d = .error e) :
    Spares repr key e := by
  unfold sleep at he
  split at he <;> cases he <;> trivial

lemma guards_backoff {attempt : ℕ} {exc : VendorError} :
    Guards repr key security tenant H (h.backoff k exc attempt) fun _ => True := by
  refine guards_seq guards_event fun _ => guards_orRaise (fun d _ => ?_) fun e he _ => ?_
  · intro s
    cases hd : sleep d with
    | ok u => exact keeps_pure fun _ => trivial
    | error e => exact keeps_throw fun _ _ => spares_sleep hd
  · obtain ⟨e, -, rfl⟩ := Refinement.mapError_eq_error he
    trivial

lemma guards_attemptOnce (attempt : ℕ) :
    Guards repr key security tenant H (h.attemptOnce w c k attempt) fun _ => True := by
  refine guards_bind (guards_complete attempt) fun result => ?_
  cases result with
  | returned response =>
    exact guards_seq (guards_onSuccess (·.2)) fun _ => guards_pure fun _ => trivial
  | raisedLibrary e => exact guards_throw (·.2)
  | raised exc =>
    refine guards_seq (guards_onError (·.2)) fun outcome => ?_
    cases outcome with
    | none => exact guards_seq guards_backoff fun _ => guards_pure fun _ => trivial
    | some outcome => cases outcome <;> exact guards_pure fun _ => trivial

lemma guards_attemptLoop (n attempt : ℕ) :
    Guards repr key security tenant H (h.attemptLoop w c k n attempt) fun _ => True := by
  induction n generalizing attempt with
  | zero => exact guards_pure fun _ => trivial
  | succ n ih =>
    refine guards_seq (guards_attemptOnce attempt) fun attempted => ?_
    cases attempted with
    | again => exact ih (attempt + 1)
    | nextKey => exact guards_pure fun _ => trivial
    | done outcome => exact guards_pure fun _ => trivial

lemma guards_keyLoop {p : ModelProvider} {hasMoreProviders : Bool}
    (keys : List (Option Credential)) (index : ℕ) :
    Guards repr key security tenant H (h.keyLoop w c p hasMoreProviders keys index)
      fun _ => True := by
  induction keys generalizing index with
  | nil => exact guards_pure fun _ => trivial
  | cons credential rest ih =>
    refine guards_seq (guards_attemptLoop _ 1) fun outcome => ?_
    cases outcome with
    | none => exact ih (index + 1)
    | some outcome => exact guards_pure fun _ => trivial

/-! ### The handlers -/

lemma guards_handle : Guards repr key security tenant H (h.handle w c) fun _ => True := by
  unfold handle
  split
  · exact guards_pure fun _ => trivial
  · exact guards_get fun _ => guards_keyLoop _ 0

lemma guards_perimeter :
    Guards repr key security tenant H (perimeterHandler security c) fun _ => True := by
  refine guards_bind guards_emit fun _ => guards_orRaise (fun _ _ => ?_) fun e he hH => ?_
  · exact guards_pure fun _ => trivial
  · have hspared := hH.2
    rw [Discreet, he] at hspared
    exact hspared

lemma guards_credentials (hc : c.tenant = tenant) :
    Guards repr key security tenant H (credentialHandler c) fun _ => True := by
  unfold credentialHandler
  split
  · exact guards_pure fun _ => trivial
  · refine guards_bind guards_emit fun _ => guards_orRaise (fun creds _ => ?_) fun e he hH => ?_
    · exact guards_seq (guards_update (fun _ => rfl) fun _ _ _ he => .inl he) fun _ =>
        guards_pure fun _ => trivial
    · obtain ⟨e, herror, rfl⟩ := Refinement.mapError_eq_error he
      have hspared := hH.2
      rw [Discreet, ← hc, herror] at hspared
      exact hspared

/-- What a reservation is refused with. -/
lemma guards_reserve {estimate : ℤ} {p : ModelProvider} :
    Guards repr key security tenant H (reserve w c.tenant estimate p)
      fun result => ∀ d, result = .ok d → ¬ d.granted → ∀ rateWindow, SilentError repr key
        (.quotaExceededError (OnboardingResolver.escalate tenant p.name rateWindow)) := by
  refine guards_get fun s => guards_seq guards_onQuota fun result => ?_
  refine guards_bind guards_emit fun _ => guards_pure fun hH d hd => ?_
  subst hd
  exact hH.2

lemma guards_quota (hc : c.tenant = tenant) :
    Guards repr key security tenant H (quotaHandler w c) fun _ => True := by
  unfold quotaHandler
  split
  · exact guards_pure fun _ => trivial
  · refine guards_bind guards_reserve fun result => guards_orRaise (fun d hd => ?_) fun e he _ => ?_
    · have hresult := Refinement.mapError_eq_ok hd
      split_ifs with hdeny
      · unfold onDeny
        dsimp only
        split_ifs
        · exact guards_pure fun _ => trivial
        · refine guards_throw fun hH => ?_
          rw [hc]
          exact hH.2 d hresult (not_not_intro hdeny) _
      · exact guards_seq (guards_update (fun _ => rfl) fun _ _ _ he => .inl he) fun _ =>
          guards_pure fun _ => trivial
    · obtain ⟨e, -, rfl⟩ := Refinement.mapError_eq_error he
      trivial

/-! ### The chain -/

variable (hclosing : ∀ e, Closing e → SilentError repr key e)
variable {settings : GatewaySettings}

lemma guards_walk {chain : FallbackChain}
    (hchain : ∀ handler ∈ chain, Guards repr key security tenant H (handler c) fun _ => True) :
    Guards repr key security tenant H (FallbackChain.walk c chain) fun _ => True := by
  induction chain with
  | nil => exact guards_pure fun _ => trivial
  | cons handler rest ih =>
    refine guards_seq (hchain handler (by simp)) fun outcome => ?_
    cases outcome with
    | proceed => exact ih fun next hnext => hchain next (List.mem_cons_of_mem handler hnext)
    | _ => exact guards_pure fun _ => trivial

lemma guards_pass (hc : c.tenant = tenant) :
    Guards repr key settings.security tenant H (FallbackChain.pass (buildChain w settings) c)
      fun _ => True := by
  refine guards_seq guards_event fun _ => guards_walk fun handler hmem => ?_
  simp only [buildChain, List.mem_cons, List.not_mem_nil, or_false] at hmem
  rcases hmem with rfl | rfl | rfl | rfl
  · exact guards_perimeter
  · exact guards_credentials hc
  · exact guards_quota hc
  · exact guards_handle

lemma guards_succeed : Guards repr key security tenant H FallbackChain.succeed fun _ => True := by
  refine guards_get fun s => ?_
  cases s.scratch.response with
  | none => exact guards_throw fun _ => trivial
  | some r => exact guards_pure fun _ => trivial

include hclosing

lemma guards_stop : Guards repr key security tenant H FallbackChain.stop fun _ => True := by
  refine guards_get fun s => guards_throw fun hH => ?_
  cases he : s.scratch.error with
  | none => exact hclosing _ .stopped
  | some e => exact hH.2.error e he

/-- The induction is on the candidates left. -/
lemma guards_loop (request : CompletionRequest) (candidates : List ModelProvider) :
    Guards repr key settings.security tenant H
      (FallbackChain.loop (buildChain w settings) request tenant candidates) fun _ => True := by
  induction candidates with
  | nil => exact guards_throw fun _ => hclosing _ .exhausted
  | cons p rest ih =>
    refine guards_seq (guards_pass rfl) fun outcome => ?_
    cases outcome with
    | success => exact guards_succeed
    | stop => exact guards_stop hclosing
    | proceed => exact guards_throw fun _ => hclosing _ .unanswered
    | fallback =>
      exact guards_seq (guards_update (fun _ => rfl) fun _ _ _ he => .inl he) fun _ => ih

lemma guards_execute (hc : c.tenant = tenant) :
    Guards repr key settings.security tenant H
      (FallbackChain.execute (buildChain w settings) c) fun _ => True := by
  unfold FallbackChain.execute
  split_ifs
  · exact guards_throw fun _ => hclosing _ .unrouted
  · rw [hc]
    exact guards_loop hclosing c.request c.candidates

/-! ### The agent loop -/

/-- The scratch of a turn starts empty. -/
lemma guards_dispatchTurn {candidates : List ModelProvider} {st : ConversationState} :
    Guards repr key settings.security tenant H
      (AgentLoop.dispatchTurn (buildChain w settings) tenant candidates st) fun _ => True := by
  refine guards_seq ?_ fun _ => guards_execute hclosing rfl
  exact fun s => keeps_run [] rfl (List.append_nil s.log).symm
    fun _ _ _ => ⟨⟨by simp, by simp⟩, trivial⟩

omit hclosing

lemma guards_append {st : ConversationState} {m : Message} :
    Guards repr key security tenant H (AgentLoop.append st m) fun _ => True :=
  guards_seq guards_event fun _ => guards_pure fun _ => trivial

lemma guards_absorb {st : ConversationState} {response : CompletionResponse} :
    Guards repr key security tenant H (AgentLoop.absorb st response) fun _ => True :=
  guards_seq guards_append fun _ => guards_pure fun _ => trivial

lemma guards_runToolCalls {registry : ToolRegistry} (calls : List ToolCall)
    (st : ConversationState) :
    Guards repr key security tenant H (AgentLoop.runToolCalls registry calls st)
      fun _ => True := by
  induction calls generalizing H st with
  | nil => exact guards_pure fun _ => trivial
  | cons call rest ih => exact guards_get fun s => guards_seq guards_append fun st => ih st

lemma guards_pastDeadline {deadline : Option PyFloat} :
    Guards repr key security tenant H (AgentLoop.pastDeadline w deadline) fun _ => True := by
  cases deadline with
  | none => exact guards_pure fun _ => trivial
  | some d =>
    exact fun s => keeps_run [] rfl (List.append_nil s.log).symm
      fun _ hI _ => ⟨⟨hI.attempts, hI.error⟩, trivial⟩

include hclosing

/-- The induction is on the turns left; the steps so far are silent. -/
lemma guards_run {registry : ToolRegistry} {candidates : List ModelProvider}
    {deadline : Option PyFloat} (n : ℕ) (st : ConversationState) (steps : List StepResult)
    (hsteps : H → SilentSteps key steps) :
    Guards repr key settings.security tenant H
      (AgentLoop.run w (buildChain w settings) tenant registry candidates deadline n st steps)
      fun r => SilentSteps key r.steps := by
  induction n generalizing H st steps with
  | zero => exact guards_pure hsteps
  | succ n ih =>
    refine guards_seq guards_pastDeadline fun late => ?_
    cases late with
    | true => exact guards_pure hsteps
    | false =>
      refine guards_seq (guards_dispatchTurn hclosing) fun response => guards_get fun s => ?_
      refine guards_seq guards_absorb fun st => ?_
      have hsnoc : H ∧ Tidy repr key s → SilentSteps key
          (steps ++ [⟨response.message, response.usage, s.scratch.attempts⟩]) := by
        rintro ⟨hH, htidy⟩ step hstep
        rcases List.mem_append.mp hstep with hstep | hstep
        · exact hsteps hH step hstep
        · rw [List.mem_singleton.mp hstep]
          exact htidy.attempts
      dsimp only
      split_ifs
      · exact guards_seq (guards_runToolCalls _ st) fun st => ih st _ hsnoc
      · exact guards_pure hsnoc

lemma guards_dispatch {g : ModelGateway} (hsettings : g.settings = settings)
    {request : CompletionRequest} {tools : Option ToolRegistry} :
    Guards repr key settings.security tenant H (g.dispatch w request tenant tools)
      fun r => SilentSteps key r.steps := by
  subst hsettings
  refine guards_seq ?_ fun candidates => guards_run hclosing _ _ _ fun _ => by simp [SilentSteps]
  refine guards_bind guards_emit fun _ => guards_orRaise (fun _ _ => ?_) fun e he hH => ?_
  · refine guards_seq guards_event fun _ s => ?_
    cases g.router.route request (g.scorer request) with
    | ok candidates => exact keeps_pure fun _ => trivial
    | error e => exact keeps_throw fun _ _ => trivial
  · have hspared := hH.2
    rw [Discreet, he] at hspared
    exact hspared

end

/-- **Key secrecy.** A dispatch whose steps quote the key nowhere keeps it out of its attempt
records and out of the error it raises. -/
theorem key_kept (repr : PyStr → PyStr) (key : PyStr) (w : World) (g : ModelGateway)
    (request : CompletionRequest) (tenant : TenantContext) (tools : Option ToolRegistry)
    (q : QuotaState)
    (hsteps : ∀ e ∈ (finalState (dispatched w g request tenant tools q)).log,
      Discreet repr key g.settings.security tenant e)
    (hclosing : ∀ e, Closing e → SilentError repr key e) :
    Kept repr key (dispatched w g request tenant tools q) := by
  have hguards : Guards repr key g.settings.security tenant True
      (g.dispatch w request tenant tools) fun r => SilentSteps key r.steps :=
    guards_dispatch hclosing rfl
  obtain ⟨es, hlog, hsettled⟩ := hguards { quota := q }
  have hlog : (finalState (dispatched w g request tenant tools q)).log = es := hlog
  rw [hlog] at hsteps
  have hkept := hsettled trivial ⟨by simp, by simp⟩ hsteps
  change Settled _ _ _ (dispatched w g request tenant tools q) at hkept
  generalize dispatched w g request tenant tools q = r at hkept
  cases r with
  | ok result s =>
    refine ⟨fun result' h => ?_, fun e h => ?_⟩
    · cases h
      exact hkept.2
    · cases h
  | error e s =>
    refine ⟨fun result h => ?_, fun e' h => ?_⟩
    · cases h
    · cases h
      exact hkept

namespace Sample

def provider : ModelProvider where
  name := py "openai:gpt"
  tier := .standard
  capabilities := ProviderCapability.none
  estimateTokens := fun _ => 10
  classifyError := fun _ => .auth

def gateway : ModelGateway where
  settings := {}
  providers := ({} : ProviderRegistry).register provider
  scorer := fun _ => .trivial

/-- A tenant with pooled keys. -/
def tenant (keys : String) : TenantContext where
  tenantId := py "t"
  quota := ⟨10, 100, 1000, ofRat (9 / 10)⟩
  metadata := (∅ : Lib.Dicts.PyDict PyStr PyStr).set (py "user_key:openai") (py keys)

def key : PyStr := py "sk-one-1111"

/-- A vendor that refuses one key, with a text of its own. -/
def refusing (text : String) : World where
  monotonic _ := 0
  complete _ _ _ apiKey :=
    if apiKey = some key then .raised { typeName := py "AuthenticationError", text := py text }
    else .returned Refinement.Sample.response

abbrev run (keys text : String) : EStateM.Result PyException Machine RunResult :=
  dispatched (refusing text) gateway Refinement.Sample.request (tenant keys) none {}

/-- Two keys, of which the vendor refuses the first in words that quote it. -/
abbrev quoting : EStateM.Result PyException Machine RunResult :=
  run "sk-one-1111,sk-two-2222" "invalid key sk-one-1111"

def quoted (s : PyStr) : PyStr := py "'" ++ s ++ py "'"

end Sample

theorem key_kept_refused :
    Kept Sample.quoted Sample.key (Sample.run "sk-one-1111" "bad credentials") := by
  refine key_kept _ _ _ _ _ _ _ _ ?_ ?_
  · decide +kernel
  · intro e he
    cases he <;> decide

/-- A key that is refused in words that quote it is in the audit trail. -/
theorem key_leaks : ¬ ∀ (repr : PyStr → PyStr) (key : PyStr) (w : World) (g : ModelGateway)
    (request : CompletionRequest) (tenant : TenantContext) (tools : Option ToolRegistry)
    (q : QuotaState), 4 < key.length →
    Used key (finalState (dispatched w g request tenant tools q)).log →
    Kept repr key (dispatched w g request tenant tools q) := by
  intro h
  have hused : Used Sample.key (finalState Sample.quoting).log :=
    (by decide +kernel : ∃ x ∈ callsIn (finalState Sample.quoting).log,
      x.1.apiKey = some Sample.key)
  have hkept := h Sample.quoted Sample.key _ _ _ _ _ _ (by decide) hused
  have hspoken : (answer Sample.quoting).toOption.map (fun r =>
      decide (SilentSteps Sample.key r.steps)) = some false := by decide +kernel
  cases hr : answer Sample.quoting with
  | error e => rw [hr] at hspoken; cases hspoken
  | ok result =>
    rw [hr] at hspoken
    exact of_decide_eq_false (Option.some.inj hspoken) (hkept.records result hr)

/-- The texts of the error a run raised. -/
def raisedTexts (r : EStateM.Result PyException Machine RunResult) : List PyStr :=
  match answer r with
  | .error (.library e) => objectTexts (toPayload Sample.quoted e)
  | _ => []

/-- With one key the words are in the body that the client gets. -/
example : raisedTexts (Sample.run "sk-one-1111" "invalid key sk-one-1111") =
    [py "error", py "authentication_error",
      py "detail", py "openai:gpt: invalid key sk-one-1111"] := by decide +kernel

end ModelDispatcher.KeySecrecy
