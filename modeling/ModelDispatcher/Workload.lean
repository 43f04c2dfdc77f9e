import Mathlib.Algebra.Order.BigOperators.Group.List
import ModelDispatcher.Delivery

/-!
How much a dispatch can do, whatever the vendors answer: how many provider calls it makes, how many
reservations, and how long it sleeps.

Each of these is a weight of the events of a log. An attempt weighs at most so much, and the loops
over attempts, keys, candidates and turns multiply that by what they are bounded by.
-/

namespace ModelDispatcher.Workload

open Lib.Text Lib.Binary64 Lib.Floats Lib.Logged DataTypes Exceptions Config Providers Quota
open Security Routing Machines Handlers ModelInvocationHandler Chain Turns Refinement
open Orchestration Gateway Dispatches Delivery

/-! ### Weights of a log -/

section

variable {M : Type} [AddCommMonoid M]

/-- The weight of some events. -/
def total (f : Event → M) (es : List Event) : M := (es.map f).sum

variable (f : Event → M)

@[simp] lemma total_nil : total f [] = 0 := rfl
@[simp] lemma total_cons (e : Event) (es : List Event) : total f (e :: es) = f e + total f es :=
  List.sum_cons
@[simp] lemma total_append (es fs : List Event) :
    total f (es ++ fs) = total f es + total f fs := by simp [total]

lemma total_eq_zero {es : List Event} (h : ∀ e ∈ es, f e = 0) : total f es = 0 :=
  List.sum_eq_zero fun x hx => by
    obtain ⟨e, he, rfl⟩ := List.mem_map.mp hx
    exact h e he

end

/-- The keys a candidate is tried with. -/
def keyCount (tenant : TenantContext) (p : ModelProvider) : ℕ :=
  match CredentialResolver.resolveCandidates tenant p with
  | .ok creds => (keysOf creds).length
  | .error _ => 0

section

variable {M : Type} [AddCommMonoid M] [PartialOrder M] [IsOrderedAddMonoid M]
variable {f : Event → M} {b : M} {T : Turn}

section

variable (hb : 0 ≤ b) (hattempt : ∀ k a es out, AttemptLog T k a es out → total f es ≤ b)

include hb hattempt

/-- The induction is on the attempts left. -/
lemma total_keyLog {k : Key} {n attempt : ℕ} {es : List Event} {out : Ended}
    (h : KeyLog T k n attempt es out) : total f es ≤ n • b := by
  induction h with
  | spent => exact le_of_eq (by simp)
  | again h _ ih =>
    rw [total_append, succ_nsmul']
    exact add_le_add (hattempt _ _ _ _ h) ih
  | ended h =>
    rw [succ_nsmul']
    exact (hattempt _ _ _ _ h).trans (le_add_of_nonneg_right (nsmul_nonneg hb _))

lemma total_keysLog {p : ModelProvider} {d : QuotaDecision} {keys : List (Option Credential)}
    {index : ℕ} {es : List Event} {out : Ended} (h : KeysLog T p d keys index es out) :
    total f es ≤ keys.length • T.handler.maxAttempts.toNat • b := by
  have hkey : 0 ≤ T.handler.maxAttempts.toNat • b := nsmul_nonneg hb _
  induction h with
  | exhausted => exact le_of_eq (by simp)
  | next h _ ih =>
    rw [total_append, List.length_cons, succ_nsmul']
    exact add_le_add (total_keyLog hb hattempt h) ih
  | ended h =>
    rw [List.length_cons, succ_nsmul']
    exact (total_keyLog hb hattempt h).trans (le_add_of_nonneg_right (nsmul_nonneg hkey _))

/-- The checks of a pass weigh nothing here. -/
lemma total_passLog (hcheck : ∀ e, Event.isCheck e → f e = 0) {p : ModelProvider}
    {es : List Event} {out : Ended} (h : PassLog T p es out) :
    total f es ≤ keyCount T.tenant p • T.handler.maxAttempts.toNat • b := by
  have hpass : 0 ≤ keyCount T.tenant p • T.handler.maxAttempts.toNat • b :=
    nsmul_nonneg (nsmul_nonneg hb _) _
  have hchecks : ∀ {es : List Event}, (∀ e ∈ es, Event.isCheck e) →
      total f es ≤ keyCount T.tenant p • T.handler.maxAttempts.toNat • b := fun hes =>
    (le_of_eq (total_eq_zero f fun e he => hcheck e (hes e he))).trans hpass
  cases h with
  | rejected => exact hchecks (by simp [Event.isCheck])
  | unresolved => exact hchecks (by simp [Event.isCheck])
  | unjudged => exact hchecks (by simp [Event.isCheck])
  | deniedNext => exact hchecks (by simp [admitted, Event.isCheck])
  | deniedStop => exact hchecks (by simp [admitted, Event.isCheck])
  | @invoked creds q d es out hv hc h hd hkeys =>
    have hadmitted : total f (admitted T p creds q d) = 0 :=
      total_eq_zero f fun e he => hcheck e (by
        simp only [admitted, List.mem_cons, List.not_mem_nil, or_false] at he
        rcases he with rfl | rfl | rfl <;> rfl)
    have hcount : keyCount T.tenant p = (keysOf creds).length := by rw [keyCount, hc]
    rw [total_append, hadmitted, zero_add, hcount]
    exact total_keysLog hb hattempt hkeys

end

/-- A turn weighs what its passes weigh, at most one for each candidate. -/
lemma total_turnLog {B : ModelProvider → M} (hB : ∀ p, 0 ≤ B p) (hstart : f .passStarted = 0)
    (hpass : ∀ p es out, PassLog T p es out → total f es ≤ B p) {candidates : List ModelProvider}
    {es : List Event} {out : Ended} (h : TurnLog T candidates es out) :
    total f es ≤ (candidates.map B).sum := by
  induction h with
  | exhausted => exact le_of_eq (by simp)
  | next h _ ih =>
    rw [total_append, total_cons, hstart, zero_add, List.map_cons, List.sum_cons]
    exact add_le_add (hpass _ _ _ h) ih
  | @ended p rest es out h =>
    have hrest : 0 ≤ (rest.map B).sum := List.sum_nonneg fun x hx => by
      obtain ⟨p, -, rfl⟩ := List.mem_map.mp hx
      exact hB p
    rw [total_cons, hstart, zero_add, List.map_cons, List.sum_cons]
    exact (hpass _ _ _ h).trans (le_add_of_nonneg_right hrest)

/-- What is done around the turns weighs nothing. -/
structure Aside (f : Event → M) : Prop where
  passStarted : f .passStarted = 0
  appended : ∀ m, f (.appended m) = 0
  validated : ∀ request tenant result, f (.validated request tenant result) = 0
  routed : ∀ complexity result, f (.routed complexity result) = 0

variable {w : World} {settings : GatewaySettings} {tenant : TenantContext} {B : ModelProvider → M}

/-- The induction is on the turns left. -/
lemma total_loopLog (haside : Aside f) (hB : ∀ p, 0 ≤ B p)
    (hpass : ∀ request p es out, PassLog (turnOf w settings request tenant) p es out →
      total f es ≤ B p) {candidates : List ModelProvider} {n : ℕ} {request : CompletionRequest}
    {es : List Event} {out : Option PyException}
    (h : LoopLog w settings tenant candidates n request es out) :
    total f es ≤ n • (candidates.map B).sum := by
  have hturn : ∀ {request : CompletionRequest} {es : List Event} {out : Ended},
      TurnLog (turnOf w settings request tenant) candidates es out →
        total f es ≤ (candidates.map B).sum := fun h =>
    total_turnLog hB haside.passStarted (hpass _) h
  have hmessages : ∀ ms : List Message, total f (ms.map .appended) = 0 := fun ms =>
    total_eq_zero f fun e he => by
      obtain ⟨m, -, rfl⟩ := List.mem_map.mp he
      exact haside.appended m
  have hsum : 0 ≤ (candidates.map B).sum := List.sum_nonneg fun x hx => by
    obtain ⟨p, -, rfl⟩ := List.mem_map.mp hx
    exact hB p
  induction h with
  | stopped => exact nsmul_nonneg hsum _
  | raised h =>
    rw [succ_nsmul']
    exact (hturn h).trans (le_add_of_nonneg_right (nsmul_nonneg hsum _))
  | @completed n request es response h =>
    have hmessage := hmessages [response.message]
    rw [List.map_singleton] at hmessage
    rw [total_append, hmessage, add_zero, succ_nsmul']
    exact (hturn h).trans (le_add_of_nonneg_right (nsmul_nonneg hsum _))
  | followed results h _ ih =>
    rw [total_append, total_append, hmessages, add_zero, succ_nsmul']
    exact add_le_add (hturn h) ih

/-- A dispatch weighs at most its turns times what its candidates weigh. -/
lemma total_dispatched {g : ModelGateway} {request : CompletionRequest}
    {tools : Option ToolRegistry} (q : QuotaState) (haside : Aside f) (hB : ∀ p, 0 ≤ B p)
    (hpass : ∀ request p es out, PassLog (turnOf w g.settings request tenant) p es out →
      total f es ≤ B p) :
    total f (finalState (dispatched w g request tenant tools q)).log ≤
      g.settings.maxIterations.toNat • ((routed g request).map B).sum := by
  obtain ⟨out, hlog, -⟩ := dispatched_log w g request tenant tools q
  generalize (finalState (dispatched w g request tenant tools q)).log = log at hlog
  have hsum : 0 ≤ ((routed g request).map B).sum := List.sum_nonneg fun x hx => by
    obtain ⟨p, -, rfl⟩ := List.mem_map.mp hx
    exact hB p
  cases hlog with
  | rejected =>
    rw [total_cons, haside.validated, total_nil, add_zero]
    exact nsmul_nonneg hsum _
  | unrouted =>
    rw [total_cons, haside.validated, total_cons, haside.routed, total_nil, add_zero, add_zero]
    exact nsmul_nonneg hsum _
  | @looped candidates es out hv hr h =>
    have hrouted : routed g request = candidates := by rw [routed, hr]
    rw [total_cons, haside.validated, total_cons, haside.routed, zero_add, zero_add, hrouted]
    exact total_loopLog haside hB hpass h

end

/-- The keys of all candidates a request is routed to. -/
def keysRouted (g : ModelGateway) (request : CompletionRequest) (tenant : TenantContext) : ℕ :=
  ((routed g request).map (keyCount tenant)).sum

lemma sum_map_nsmul {M : Type} [AddCommMonoid M] (count : ModelProvider → ℕ) (b : M)
    (ps : List ModelProvider) :
    (ps.map fun p => count p • b).sum = (ps.map count).sum • b := by
  induction ps with
  | nil => simp
  | cons p ps ih => rw [List.map_cons, List.sum_cons, ih, List.map_cons, List.sum_cons, add_nsmul]

section

variable {M : Type} [AddCommMonoid M] [PartialOrder M] [IsOrderedAddMonoid M]
variable {f : Event → M} {b : M} {w : World} {tenant : TenantContext}

/-- The calls a dispatch may make: one for every turn, key and attempt it is allowed. -/
def callsAllowed (g : ModelGateway) (request : CompletionRequest) (tenant : TenantContext) : ℕ :=
  g.settings.maxIterations.toNat * keysRouted g request tenant * g.settings.retryMaxAttempts.toNat

lemma total_of_attempts {g : ModelGateway} {request : CompletionRequest}
    {tools : Option ToolRegistry} (q : QuotaState) (haside : Aside f)
    (hcheck : ∀ e, Event.isCheck e → f e = 0) (hb : 0 ≤ b)
    (hattempt : ∀ request k a es out,
      AttemptLog (turnOf w g.settings request tenant) k a es out → total f es ≤ b) :
    total f (finalState (dispatched w g request tenant tools q)).log ≤
      callsAllowed g request tenant • b := by
  have hpass : ∀ request p es out, PassLog (turnOf w g.settings request tenant) p es out →
      total f es ≤ keyCount tenant p • g.settings.retryMaxAttempts.toNat • b :=
    fun request p es out h => total_passLog hb (hattempt request) hcheck h
  have htotal := @total_dispatched _ _ _ _ _ w tenant _ g request tools q haside
    (fun p => nsmul_nonneg (nsmul_nonneg hb _) _) hpass
  rw [sum_map_nsmul] at htotal
  unfold callsAllowed keysRouted
  rwa [mul_assoc, mul_nsmul', mul_nsmul']

end

/-! ### What is weighed -/

def isCall : Event → ℕ
  | .called _ _ => 1
  | _ => 0

def isReservation : Event → ℕ
  | .reserved .. => 1
  | _ => 0

/-- The seconds slept at an event. -/
def asleep : Event → ℚ
  | .backedOff _ _ _ (.ok (.fin x)) => if sleepCheck (.fin x) = .sleeps then x.val else 0
  | _ => 0

lemma length_callsIn (es : List Event) : (callsIn es).length = total isCall es := by
  induction es with
  | nil => rfl
  | cons e es ih =>
    rw [total_cons, ← ih]
    cases e <;> simp [callsIn, isCall, Nat.add_comm]

section

variable {T : Turn}

lemma calls_attemptLog {k : Key} {attempt : ℕ} {es : List Event} {out : AttemptEnded}
    (h : AttemptLog T k attempt es out) : total isCall es ≤ 1 := by
  cases h with
  | served => exact le_rfl
  | library => exact le_rfl
  | failed _ h =>
    have hafter := total_eq_zero isCall (h.forall (P := fun e => isCall e = 0) rfl fun _ => rfl)
    rw [total_cons, total_cons, hafter]
    exact le_rfl

/-- A delay that is slept is no longer than the longest wait the handler is set to. -/
lemma asleep_le {p : ModelProvider} {exc : VendorError} {attempt : ℕ} {maxAttempts : ℤ}
    {x : Finite}
    (h : ({ maxAttempts } : ModelInvocationHandler).backoffDelay attempt p exc = .ok (.fin x)) :
    x.val ≤ 120 := by
  have hmin : ∀ {d : PyFloat} {c : ℚ} (n : ℤ) (hn : n.natAbs ≤ 2 ^ 53), c = n →
      d.min (ofRat c) = .fin x → x.val ≤ n := by
    intro d c n hn hc h
    rw [ofRat_eq n hn hc] at h
    exact (Double.val_le_of_min h).trans_eq (Finite.val_ofInt n hn)
  unfold backoffDelay at h
  cases hhint : p.retryAfterSeconds exc with
  | error e => rw [hhint] at h; cases h
  | ok hint =>
    rw [hhint] at h
    cases hint with
    | some y => exact hmin 120 (by decide) (by norm_num) (Except.ok.inj h)
    | none =>
      dsimp only at h
      cases hpow : Double.twoPow (attempt - 1) with
      | none => rw [hpow] at h; cases h
      | some y =>
        rw [hpow] at h
        have hshort := hmin 2 (by decide) (by norm_num) (Except.ok.inj h)
        push_cast at hshort
        linarith

lemma asleep_attemptLog {maxAttempts : ℤ} (hhandler : T.handler = { maxAttempts }) {k : Key}
    {attempt : ℕ} {es : List Event} {out : AttemptEnded} (h : AttemptLog T k attempt es out) :
    total asleep es ≤ 120 := by
  have hhints : ∀ {p : ModelProvider} {exc : VendorError} {hs : List Event}, HintLog p exc hs →
      total asleep hs = 0 := fun h =>
    total_eq_zero asleep (h.forall (P := fun e => asleep e = 0) rfl)
  cases h with
  | served => rw [total_eq_zero asleep (by simp [asleep])]; norm_num
  | library => rw [total_eq_zero asleep (by simp [asleep])]; norm_num
  | @failed exc es out _ h =>
    rw [total_cons, total_cons]
    change (0 : ℚ) + (0 + total asleep es) ≤ 120
    rw [zero_add, zero_add]
    cases h with
    | gaveUp hs => rw [hhints hs]; norm_num
    | stopped hs => rw [hhints hs]; norm_num
    | badHint => rw [total_eq_zero asleep (by simp [asleep])]; norm_num
    | @napped hs hhint delay hdelay =>
      rw [total_append, hhints hhint, zero_add, total_cons, total_nil, add_zero]
      rw [hhandler] at hdelay
      unfold asleep
      split
      · rename_i p n exc' x heq
        cases heq
        split_ifs
        · exact asleep_le hdelay
        · norm_num
      · norm_num

/-- A pass makes one reservation at most. -/
lemma reservations_passLog {p : ModelProvider} {es : List Event} {out : Ended}
    (h : PassLog T p es out) : total isReservation es ≤ 1 := by
  cases h with
  | rejected => exact Nat.zero_le 1
  | unresolved => exact Nat.zero_le 1
  | unjudged => exact le_rfl
  | deniedNext => exact le_rfl
  | deniedStop => exact le_rfl
  | invoked _ _ _ _ hkeys =>
    have hnone := total_eq_zero isReservation
      (hkeys.forall (P := fun e => isReservation e = 0) fun c _ j a es out _ _ h => by
        cases h with
        | served => simp [isReservation]
        | library => simp [isReservation]
        | failed _ h =>
          have hafter := h.forall (P := fun e => isReservation e = 0) rfl fun _ => rfl
          simpa [isReservation] using hafter)
    rw [total_append, hnone]
    exact le_rfl

end

/-- **A dispatch has a bounded workload.** Whatever the vendors answer and the tools return, a
dispatch calls providers at most once for every turn, key and attempt it is allowed, makes at most
one reservation for every turn and candidate, and sleeps at most two minutes for each call it may
make. -/
theorem workload_bounded (w : World) (g : ModelGateway) (request : CompletionRequest)
    (tenant : TenantContext) (tools : Option ToolRegistry) (q : QuotaState) :
    let log := (finalState (dispatched w g request tenant tools q)).log
    (callsIn log).length ≤ callsAllowed g request tenant ∧
      total isReservation log ≤ g.settings.maxIterations.toNat * (routed g request).length ∧
      total asleep log ≤ callsAllowed g request tenant * 120 := by
  intro log
  refine ⟨?_, ?_, ?_⟩
  · have hcalls : total isCall log ≤ callsAllowed g request tenant • 1 :=
      total_of_attempts q ⟨rfl, fun _ => rfl, fun _ _ _ => rfl, fun _ _ => rfl⟩
        (fun e he => by cases e <;> first | rfl | cases he) (Nat.zero_le 1)
        fun request' k a es out h => calls_attemptLog h
    rw [length_callsIn]
    simpa using hcalls
  · have hreserved : total isReservation log ≤
        g.settings.maxIterations.toNat • ((routed g request).map fun _ => 1).sum :=
      total_dispatched q ⟨rfl, fun _ => rfl, fun _ _ _ => rfl, fun _ _ => rfl⟩
        (fun _ => Nat.zero_le 1) fun request' p es out h => reservations_passLog h
    simpa using hreserved
  · have hasleep : total asleep log ≤ callsAllowed g request tenant • 120 :=
      total_of_attempts q ⟨rfl, fun _ => rfl, fun _ _ _ => rfl, fun _ _ => rfl⟩
        (fun e he => by cases e <;> first | rfl | cases he) (by norm_num)
        fun request' k a es out h => asleep_attemptLog rfl h
    rwa [nsmul_eq_mul] at hasleep

end ModelDispatcher.Workload
