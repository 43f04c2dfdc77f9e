import ModelDispatcher.Gateway

/-!
Properties of programs that every component of a dispatch inherits from the steps it is made of.

A component reads only the scratch of the state it runs in. What it does outside (reserve, commit,
call a provider, wait before a retry) is left to each property.
-/

namespace ModelDispatcher.Components

open DataTypes Exceptions Config Providers Quota Security Machines Handlers ModelInvocationHandler
open Chain Orchestration Gateway

/-- A property that the steps of the components have, and that sequences keep. -/
structure Compositional (P : (α : Type) → Run α → Prop) : Prop where
  pure : ∀ {α : Type} (a : α), P α (pure a)
  throw : ∀ {α : Type} (e : PyException), P α (throw e)
  bind : ∀ {α β : Type} {x : Run α} {f : α → Run β},
    P α x → (∀ a, P β (f a)) → P β (x >>= f)
  emit : ∀ e, (∀ p attempt exc delay, e ≠ .backedOff p attempt exc delay) → P Unit (emit e)
  update : ∀ f, P Unit (updateScratch f)
  /-- A continuation that depends on the scratch alone. -/
  read : ∀ {α : Type} {f : Machine → Run α}, (∀ s t : Machine, s.scratch = t.scratch → f s = f t) →
    (∀ s, P α (f s)) → P α (get >>= f)

namespace Compositional

variable {P : (α : Type) → Run α → Prop} (hP : Compositional P)
variable {w : World} {c : InvocationContext}

include hP

lemma orRaise {α : Type} (x : Except PyException α) : P α (orRaise x) := by
  cases x with
  | ok a => exact hP.pure a
  | error e => exact hP.throw e

lemma perimeterHandler (settings : SecuritySettings) :
    P _ (perimeterHandler settings c) :=
  hP.bind (hP.emit _ (by simp)) fun _ => hP.bind (hP.orRaise _) fun _ => hP.pure _

lemma credentialHandler : P _ (credentialHandler c) := by
  unfold Handlers.credentialHandler
  split
  · exact hP.pure _
  · refine hP.bind (hP.emit _ (by simp)) fun _ => hP.bind (hP.orRaise _) fun _ => ?_
    exact hP.bind (hP.update _) fun _ => hP.pure _

lemma onDeny (p : ModelProvider) (rest : List ModelProvider) (d : QuotaDecision) :
    P _ (onDeny c p rest d) := by
  unfold Handlers.onDeny
  dsimp only
  split_ifs
  · exact hP.pure _
  · exact hP.throw _

lemma quotaHandler (hreserve : ∀ estimate p, P _ (reserve w c.tenant estimate p)) :
    P _ (quotaHandler w c) := by
  unfold Handlers.quotaHandler
  split
  · exact hP.pure _
  · refine hP.bind (hreserve _ _) fun _ => hP.bind (hP.orRaise _) fun d => ?_
    split_ifs
    · exact hP.onDeny _ _ d
    · exact hP.bind (hP.update _) fun _ => hP.pure _

/-! ### The invocation handler -/

lemma recordAttempt (r : AttemptRecord) : P _ (recordAttempt r) :=
  hP.bind (hP.emit _ (by simp)) fun _ => hP.update _

lemma onSuccess (hcommit : ∀ d u, P _ (commit w c.tenant d u)) (k : KeySlot)
    (response : CompletionResponse) : P _ (onSuccess w c k response) := by
  refine hP.bind (hP.recordAttempt _) fun _ => hP.bind (hP.update _) fun _ => ?_
  refine hP.read (fun s t h => by rw [h]) fun s => ?_
  cases s.scratch.reservation with
  | none => exact hP.pure _
  | some d => exact hP.bind (hcommit d _) fun _ => hP.pure _

lemma giveUp (k : KeySlot) (errorClass : ErrorClass) (exc : VendorError) :
    P _ (giveUp k errorClass exc) := by
  unfold ModelInvocationHandler.giveUp
  split_ifs
  · exact hP.pure _
  · exact hP.pure _
  · exact hP.bind (hP.update _) fun _ => hP.pure _

variable (handler : ModelInvocationHandler)

lemma onError (k : KeySlot) (exc : VendorError) (attempt : ℕ) :
    P _ (handler.onError k exc attempt) := by
  refine hP.bind (hP.recordAttempt _) fun _ => ?_
  split_ifs
  · exact hP.pure _
  · refine hP.bind (hP.emit _ (by simp)) fun _ => hP.bind (hP.orRaise _) fun hint => ?_
    cases hint with
    | none => exact hP.pure _
    | some x =>
      dsimp only
      split_ifs
      · exact hP.pure _
      · exact hP.giveUp k _ exc
  · exact hP.giveUp k _ exc

section

variable (hcommit : ∀ d u, P _ (commit w c.tenant d u))
variable (hcomplete : ∀ k attempt, P _ (complete w c k attempt))
variable (hbackoff : ∀ k exc attempt, P _ (handler.backoff k exc attempt))
include hcommit hcomplete hbackoff

lemma attemptOnce (k : KeySlot) (attempt : ℕ) : P _ (handler.attemptOnce w c k attempt) := by
  refine hP.bind (hcomplete k attempt) fun result => ?_
  cases result with
  | returned response => exact hP.bind (hP.onSuccess hcommit k response) fun _ => hP.pure _
  | raisedLibrary e => exact hP.throw _
  | raised exc =>
    refine hP.bind (hP.onError handler k exc attempt) fun outcome => ?_
    cases outcome with
    | none => exact hP.bind (hbackoff k exc attempt) fun _ => hP.pure _
    | some outcome => cases outcome <;> exact hP.pure _

lemma attemptLoop (k : KeySlot) (n attempt : ℕ) :
    P _ (handler.attemptLoop w c k n attempt) := by
  induction n generalizing attempt with
  | zero => exact hP.pure _
  | succ n ih =>
    have hattempt := hP.attemptOnce handler hcommit hcomplete hbackoff k attempt
    refine hP.bind hattempt fun v => ?_
    cases v with
    | again => exact ih (attempt + 1)
    | nextKey => exact hP.pure _
    | done outcome => exact hP.pure _

lemma keyLoop (p : ModelProvider) (more : Bool) (keys : List (Option Credential)) (index : ℕ) :
    P _ (handler.keyLoop w c p more keys index) := by
  induction keys generalizing index with
  | nil => exact hP.pure _
  | cons credential rest ih =>
    have hkey := hP.attemptLoop handler hcommit hcomplete hbackoff
    refine hP.bind (hkey _ _ _) fun v => ?_
    cases v with
    | none => exact ih (index + 1)
    | some outcome => exact hP.pure _

lemma handle : P _ (handler.handle w c) := by
  unfold ModelInvocationHandler.handle
  split
  · exact hP.pure _
  · refine hP.read (fun s t h => by rw [h]) fun s => ?_
    exact hP.keyLoop handler hcommit hcomplete hbackoff _ _ _ 0

end

/-! ### The chain -/

lemma succeed : P _ FallbackChain.succeed := by
  refine hP.read (fun s t h => by rw [h]) fun s => ?_
  cases s.scratch.response with
  | none => exact hP.throw _
  | some r => exact hP.pure r

lemma stop : P _ FallbackChain.stop :=
  hP.read (fun s t h => by rw [h]) fun _ => hP.throw _

variable {chain : FallbackChain} {tenant : TenantContext}

omit c in
lemma walk (c : InvocationContext) (hchain : ∀ link ∈ chain, P _ (link c)) :
    P _ (FallbackChain.walk c chain) := by
  induction chain with
  | nil => exact hP.pure _
  | cons link rest ih =>
    refine hP.bind (hchain link (by simp)) fun outcome => ?_
    cases outcome with
    | proceed => exact ih fun l hl => hchain l (by simp [hl])
    | _ => exact hP.pure _

variable (hchain : ∀ c : InvocationContext, c.tenant = tenant → ∀ link ∈ chain, P _ (link c))
include hchain

lemma loop (request : CompletionRequest) (candidates : List ModelProvider) :
    P _ (chain.loop request tenant candidates) := by
  induction candidates with
  | nil => exact hP.throw _
  | cons p rest ih =>
    have hpass := hP.walk ⟨request, tenant, p :: rest⟩ (hchain _ rfl)
    refine hP.bind (hP.bind (hP.emit _ (by simp)) fun _ => hpass) fun outcome => ?_
    cases outcome with
    | proceed => exact hP.throw _
    | success => exact hP.succeed
    | fallback => exact hP.bind (hP.update _) fun _ => ih
    | stop => exact hP.stop

lemma dispatchTurn (candidates : List ModelProvider) (st : ConversationState) :
    P _ (AgentLoop.dispatchTurn chain tenant candidates st) := by
  refine hP.bind (hP.update _) fun _ => ?_
  unfold FallbackChain.execute
  split_ifs
  · exact hP.throw _
  · exact hP.loop hchain _ candidates

/-! ### The agent loop -/

omit hchain

lemma append (st : ConversationState) (m : Message) : P _ (AgentLoop.append st m) :=
  hP.bind (hP.emit _ (by simp)) fun _ => hP.pure _

lemma absorb (st : ConversationState) (response : CompletionResponse) :
    P _ (AgentLoop.absorb st response) :=
  hP.bind (hP.append _ _) fun _ => hP.pure _

/-- The induction is on the turns left. -/
lemma run {registry : ToolRegistry} {candidates : List ModelProvider}
    {deadline : Option Lib.Floats.PyFloat} (hdeadline : P _ (AgentLoop.pastDeadline w deadline))
    (hturn : ∀ st, P _ (AgentLoop.dispatchTurn chain tenant candidates st))
    (htools : ∀ calls st, P _ (AgentLoop.runToolCalls registry calls st)) (n : ℕ)
    (st : ConversationState) (steps : List StepResult) :
    P _ (AgentLoop.run w chain tenant registry candidates deadline n st steps) := by
  induction n generalizing st steps with
  | zero => exact hP.pure _
  | succ n ih =>
    refine hP.bind hdeadline fun past => ?_
    split_ifs
    · exact hP.pure _
    · refine hP.bind (hturn st) fun response => ?_
      refine hP.read (fun s t h => by rw [h]) fun s => ?_
      refine hP.bind (hP.absorb st response) fun st' => ?_
      dsimp only
      split_ifs
      · exact hP.bind (htools _ st') fun _ => ih _ _
      · exact hP.pure _

lemma prepare (g : ModelGateway) (request : CompletionRequest) (tenant : TenantContext) :
    P _ (g.prepare request tenant) :=
  hP.bind (hP.emit _ (by simp)) fun _ => hP.bind (hP.orRaise _) fun _ =>
    hP.bind (hP.emit _ (by simp)) fun _ => hP.orRaise _

end Compositional

end ModelDispatcher.Components
