import ModelDispatcher.Waiting

/-!
The waits of the invocation handler while another key or another provider is left: how long they
are, which failures are waited on, and when the vendor's hint is looked at.
-/

namespace ModelDispatcher.Alternatives

open Lib.Text Lib.Binary64 Lib.Floats Lib.Logged DataTypes Exceptions Config Providers Quota
open Security Machines Handlers ModelInvocationHandler Turns Rotation Waiting

/-- Another key of the candidate or another provider is left. -/
def Alternative (k : KeySlot) : Prop := k.hasMoreCredentials = true ∨ k.hasMoreProviders = true

/-- No sleep of the attempt is longer than the cap. -/
def Capped (h : ModelInvocationHandler) (a : Attempt) : Prop :=
  ∀ p n exc d, .backedOff p n exc (.ok d) ∈ a.aftermath → sleepCheck d = .sleeps →
    ¬ h.backoffCap.lt d

/-- After a rate limit or an exhausted quota there is no delay. -/
def Straight (k : KeySlot) (a : Attempt) : Prop :=
  ∀ exc, a.result = .raised exc → isFallbackWorthy (k.provider.classifyError exc) →
    ∀ p n exc' delay, .backedOff p n exc' delay ∉ a.aftermath

/-- The vendor's hint is not looked at; the delay of a retry would start with it. -/
def Unconsulted (a : Attempt) : Prop :=
  (∀ p exc, .hinted p exc ∉ a.aftermath) ∧ ∀ p n exc delay, .backedOff p n exc delay ∉ a.aftermath

/-- While an alternative is left, no wait is long, none precedes moving on, and no hint is looked
at. -/
def NoLongWaits (h : ModelInvocationHandler) (c : InvocationContext) (s : Machine)
    (as : List Attempt) : Prop :=
  ∀ a ∈ as, Alternative (slotIn c s a.call) →
    Capped h a ∧ Straight (slotIn c s a.call) a ∧ Unconsulted a

/-- A transient failure before the last attempt with its key. -/
def Retried (h : ModelInvocationHandler) (k : KeySlot) (a : Attempt) : Prop :=
  ∃ exc, a.result = .raised exc ∧ k.provider.classifyError exc = .transient ∧
    (a.call.attempt : ℤ) < h.maxAttempts

/-- A transient failure before the last attempt, with a hint that is slept on for longer than the
cap of the exponential delays. -/
def Overlong (h : ModelInvocationHandler) (k : KeySlot) (a : Attempt) : Prop :=
  ∃ exc x, a.result = .raised exc ∧ k.provider.classifyError exc = .transient ∧
    (a.call.attempt : ℤ) < h.maxAttempts ∧ k.provider.retryAfterSeconds exc = .ok (some x) ∧
    sleepCheck ((x.add (ofRat 1)).min h.rateLimitMaxWait) = .sleeps ∧
    h.backoffCap.lt ((x.add (ofRat 1)).min h.rateLimitMaxWait)

section

variable {h : ModelInvocationHandler} {c : InvocationContext} {k : KeySlot}
variable {exc : VendorError} {attempt : ℕ} {a : Attempt}

lemma not_waitable (hk : Alternative k) : ¬ Waitable h k exc attempt := by
  intro hwait
  rcases hk with hk | hk
  · cases hk.symm.trans hwait.lastKey
  · cases hk.symm.trans hwait.lastProvider

/-- With an alternative, only transient failures are retried. -/
lemma reaction_retry_iff_of_alternative (hk : Alternative k) :
    reaction h k exc attempt = .retry ↔
      k.provider.classifyError exc = .transient ∧ (attempt : ℤ) < h.maxAttempts :=
  reaction_retry_iff.trans (or_iff_left (not_waitable hk))

lemma hints_of_alternative (hk : Alternative k) : hints h k exc attempt = [] := by
  have hconsults : h.consultsHint k (k.provider.classifyError exc) attempt = false := by
    refine Bool.eq_false_iff.mpr fun hc => ?_
    obtain ⟨-, hkey, hprovider, -⟩ := consultsHint_iff.mp hc
    rcases hk with hk | hk
    · cases hk.symm.trans hkey
    · cases hk.symm.trans hprovider
  unfold hints
  simp [hconsults]

/-- The delays of an attempt while an alternative is left. -/
lemma mem_backedOff_iff (hmade : Made h c k a) (hk : Alternative k) {p : ModelProvider} {n : ℕ}
    {delay : Except BuiltinError PyFloat} :
    .backedOff p n exc delay ∈ a.aftermath ↔
      a.result = .raised exc ∧ k.provider.classifyError exc = .transient ∧
        (a.call.attempt : ℤ) < h.maxAttempts ∧ p = k.provider ∧ n = a.call.attempt ∧
        delay = h.backoffDelay a.call.attempt k.provider exc := by
  constructor
  · intro hmem
    have hexc := (backedOff_of_made hmade hmem).1
    rw [hmade.aftermath exc hexc] at hmem
    obtain ⟨hretry, hp, hn, -, hdelay⟩ := mem_afterFailure_backedOff.mp hmem
    obtain ⟨hclass, hlt⟩ := (reaction_retry_iff_of_alternative hk).mp hretry
    exact ⟨hexc, hclass, hlt, hp, hn, hdelay⟩
  · rintro ⟨hexc, hclass, hlt, hp, hn, hdelay⟩
    rw [hmade.aftermath exc hexc]
    have hretry := (reaction_retry_iff_of_alternative hk).mpr ⟨hclass, hlt⟩
    exact mem_afterFailure_backedOff.mpr ⟨hretry, hp, hn, rfl, hdelay⟩

lemma not_hinted (hmade : Made h c k a) (hk : Alternative k) (p : ModelProvider) :
    .hinted p exc ∉ a.aftermath := by
  intro hmem
  by_cases hfailed : ∃ exc, a.result = .raised exc
  · obtain ⟨exc', hexc⟩ := hfailed
    rw [hmade.aftermath exc' hexc, afterFailure, hints_of_alternative hk] at hmem
    cases hreaction : reaction h k exc' a.call.attempt <;>
      simp [hreaction, Reaction.events] at hmem
  · cases hmade.settled (not_exists.mp hfailed) _ hmem

/-- No delay precedes moving on. -/
lemma straight_of_alternative (hmade : Made h c k a) (hk : Alternative k) : Straight k a := by
  intro exc hexc hworthy p n exc' delay hmem
  obtain ⟨hexc', hclass, -⟩ := (mem_backedOff_iff hmade hk).mp hmem
  rw [hexc] at hexc'
  cases hexc'
  rw [hclass] at hworthy
  cases hworthy

lemma unconsulted_iff (hmade : Made h c k a) (hk : Alternative k) :
    Unconsulted a ↔ ¬ Retried h k a := by
  constructor
  · rintro ⟨-, hnone⟩ ⟨exc, hexc, hclass, hlt⟩
    exact hnone _ _ exc _ ((mem_backedOff_iff hmade hk).mpr ⟨hexc, hclass, hlt, rfl, rfl, rfl⟩)
  · intro hretried
    refine ⟨fun p exc => not_hinted hmade hk p, fun p n exc delay hmem => hretried ?_⟩
    obtain ⟨hexc, hclass, hlt, -⟩ := (mem_backedOff_iff hmade hk).mp hmem
    exact ⟨exc, hexc, hclass, hlt⟩

lemma not_lt_min (x y : PyFloat) : ¬ y.lt (x.min y) := by
  unfold Double.min
  split_ifs with hlt
  · cases y <;> simp [Double.lt]
  · exact hlt

/-- A delay longer than the cap comes from a hint. -/
lemma backoffDelay_overlong_iff {d : PyFloat} :
    h.backoffDelay attempt k.provider exc = .ok d ∧ h.backoffCap.lt d ↔
      ∃ x, k.provider.retryAfterSeconds exc = .ok (some x) ∧
        d = (x.add (ofRat 1)).min h.rateLimitMaxWait ∧ h.backoffCap.lt d := by
  unfold backoffDelay
  cases k.provider.retryAfterSeconds exc with
  | error e => simp [bind, Except.bind]
  | ok hint =>
    cases hint with
    | some x =>
      simp only [bind, Except.bind, pure, Except.pure, Except.ok.injEq, Option.some.injEq,
        exists_eq_left', @eq_comm _ d]
    | none =>
      simp only [bind, Except.bind, pure, Except.pure, Except.ok.injEq, reduceCtorEq, false_and,
        exists_false, iff_false]
      rintro ⟨hd, hlt⟩
      cases htwo : Double.twoPow (attempt - 1) with
      | none =>
        rw [htwo] at hd
        cases hd
      | some p =>
        rw [htwo] at hd
        cases hd
        exact not_lt_min _ _ hlt

lemma capped_iff (hmade : Made h c k a) (hk : Alternative k) : Capped h a ↔ ¬ Overlong h k a := by
  constructor
  · rintro hcap ⟨exc, x, hexc, hclass, hlt, hhint, hsleeps, hlong⟩
    obtain ⟨hdelay, -⟩ := backoffDelay_overlong_iff.mpr ⟨x, hhint, rfl, hlong⟩
    refine hcap k.provider a.call.attempt exc _ ?_ hsleeps hlong
    exact (mem_backedOff_iff hmade hk).mpr ⟨hexc, hclass, hlt, rfl, rfl, hdelay.symm⟩
  · intro hnone p n exc d hmem hsleeps hlong
    obtain ⟨hexc, hclass, hlt, -, -, hdelay⟩ := (mem_backedOff_iff hmade hk).mp hmem
    obtain ⟨x, hhint, rfl, -⟩ := backoffDelay_overlong_iff.mp ⟨hdelay.symm, hlong⟩
    exact hnone ⟨exc, x, hexc, hclass, hlt, hhint, hsleeps, hlong⟩

end

/-- **Waits while an alternative is left.** In any run, none of the rules is broken exactly when
no transient failure is retried while an alternative is left; the rule about the cap alone is kept
exactly when no such failure has an overlong hint; and no delay ever precedes moving on. -/
theorem noLongWaits_iff (h : ModelInvocationHandler) (w : World) (c : InvocationContext)
    (s : Machine) :
    (NoLongWaits h c s (tried h w c s) ↔ ∀ a ∈ tried h w c s,
      Alternative (slotIn c s a.call) → ¬ Retried h (slotIn c s a.call) a) ∧
    ((∀ a ∈ tried h w c s, Alternative (slotIn c s a.call) → Capped h a) ↔
      ∀ a ∈ tried h w c s, Alternative (slotIn c s a.call) →
        ¬ Overlong h (slotIn c s a.call) a) ∧
    ∀ a ∈ tried h w c s, Alternative (slotIn c s a.call) → Straight (slotIn c s a.call) a := by
  have hmade := tried_made h w c s
  refine ⟨⟨fun hwaits a ha hk => ?_, fun hnone a ha hk => ?_⟩, ?_, fun a ha hk => ?_⟩
  · exact (unconsulted_iff (hmade a ha) hk).mp (hwaits a ha hk).2.2
  · have hretried := hnone a ha hk
    refine ⟨(capped_iff (hmade a ha) hk).mpr ?_, straight_of_alternative (hmade a ha) hk,
      (unconsulted_iff (hmade a ha) hk).mpr hretried⟩
    rintro ⟨exc, x, hexc, hclass, hlt, -⟩
    exact hretried ⟨exc, hexc, hclass, hlt⟩
  · exact forall₂_congr fun a ha => forall_congr' fun hk => capped_iff (hmade a ha) hk
  · exact straight_of_alternative (hmade a ha) hk

namespace Sample

open Refinement.Sample

def context : InvocationContext := ⟨request, tenant, [provider "p" .free, provider "q" .free]⟩

/-- A vendor that is overloaded once and asks to wait for a hundred seconds. -/
def overloaded : World where
  monotonic := fun _ => 0
  complete := fun log _ _ _ =>
    if log = [] then
      .raised ⟨py "Error", py "503", some [(py "Retry-After", py "100")]⟩
    else .returned response

/-- The delays an attempt is followed by. -/
def naps (a : Attempt) : List PyFloat :=
  a.aftermath.filterMap fun
    | .backedOff _ _ _ (.ok d) => some d
    | _ => none

lemma mem_naps {a : Attempt} {d : PyFloat} (hd : d ∈ naps a) :
    ∃ p n exc, .backedOff p n exc (.ok d) ∈ a.aftermath := by
  obtain ⟨e, he, heq⟩ := List.mem_filterMap.mp hd
  cases e with
  | backedOff p n exc delay =>
    cases delay <;> cases heq
    exact ⟨p, n, exc, he⟩
  | _ => cases heq

end Sample

/-- A transient failure with a hint is slept on for longer than the cap, though another provider is
left. -/
theorem overloaded_waits : ¬ ∀ (h : ModelInvocationHandler) (w : World) (c : InvocationContext)
    (s : Machine), NoLongWaits h c s (tried h w c s) := by
  intro hall
  have hnaps : (tried {} Sample.overloaded Sample.context {}).map Sample.naps =
      [[ofRat 101], []] := by
    decide +kernel
  have hmem : [ofRat 101] ∈ (tried {} Sample.overloaded Sample.context {}).map Sample.naps := by
    rw [hnaps]
    simp
  obtain ⟨a, ha, hd⟩ := List.mem_map.mp hmem
  obtain ⟨p, n, exc, hbacked⟩ := Sample.mem_naps (a := a) (d := ofRat 101) (by rw [hd]; simp)
  have hcap := (hall {} Sample.overloaded Sample.context {} a ha (.inr rfl)).1
  exact hcap p n exc _ hbacked (by decide +kernel) (by decide +kernel)

end ModelDispatcher.Alternatives
