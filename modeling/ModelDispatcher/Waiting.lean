import ModelDispatcher.Refinement
import ModelDispatcher.Rotation

/-!
The waits of the invocation handler: the budget of a rate limit with nowhere else to go, and whether
a sleep is followed by another call.
-/

namespace ModelDispatcher.Waiting

open Lib.Text Lib.Binary64 Lib.Floats Lib.Logged DataTypes Exceptions Config Providers Quota
open Security Machines Handlers ModelInvocationHandler Turns Rotation

/-! ### Failures that are waited out -/

section

variable (h : ModelInvocationHandler) (k : KeySlot) (exc : VendorError) (attempt : ℕ)

/-- The delay before the next attempt can be computed, and slept. -/
def Sleepable : Prop :=
  ∃ d, h.backoffDelay attempt k.provider exc = .ok d ∧ sleepCheck d = .sleeps

/-- The failure is answered with a sleep and another try. -/
def Waits : Prop := reaction h k exc attempt = .retry ∧ Sleepable h k exc attempt

variable {h k exc attempt}

lemma nap_ok_iff : nap h k exc attempt = .ok () ↔ Sleepable h k exc attempt := by
  unfold nap Sleepable
  cases h.backoffDelay attempt k.provider exc with
  | error e => simp [Except.mapError, bind, Except.bind]
  | ok d =>
    simp only [Except.mapError, bind, Except.bind, sleep]
    cases hcheck : sleepCheck d <;> simp [hcheck]

/-- An attempt ends with another one exactly when its failure is waited out. -/
lemma ending_again_iff :
    (reaction h k exc attempt).ending h k exc attempt = .ok .again ↔ Waits h k exc attempt := by
  unfold Waits
  rw [← nap_ok_iff]
  cases reaction h k exc attempt with
  | retry =>
    rw [Reaction.ending]
    cases nap h k exc attempt <;> simp [Except.map]
  | leave =>
    rw [Reaction.ending]
    split_ifs <;> simp
  | stop => simp [Reaction.ending]
  | raised e => simp [Reaction.ending]

end

/-- The attempt is followed by a sleep that goes by. -/
def Slept (a : Attempt) : Prop :=
  ∃ p n exc d, .backedOff p n exc (.ok d) ∈ a.aftermath ∧ sleepCheck d = .sleeps

section

variable {h : ModelInvocationHandler} {w : World} {c : InvocationContext} {k : KeySlot}

/-- The delays of an attempt are those of a retry. -/
lemma mem_afterFailure_backedOff {exc exc' : VendorError} {attempt n : ℕ} {p : ModelProvider}
    {delay : Except BuiltinError PyFloat} :
    .backedOff p n exc' delay ∈ afterFailure h k exc attempt ↔
      reaction h k exc attempt = .retry ∧ p = k.provider ∧ n = attempt ∧ exc' = exc ∧
        delay = h.backoffDelay attempt k.provider exc := by
  have hhints : .backedOff p n exc' delay ∉ hints h k exc attempt := by
    unfold hints
    dsimp only
    split_ifs <;> simp
  unfold afterFailure
  cases reaction h k exc attempt <;> simp [Reaction.events, hhints]

lemma backedOff_of_made {a : Attempt} (hmade : Made h c k a) {p : ModelProvider} {n : ℕ}
    {exc : VendorError} {delay : Except BuiltinError PyFloat}
    (hmem : .backedOff p n exc delay ∈ a.aftermath) :
    a.result = .raised exc ∧ reaction h k exc a.call.attempt = .retry ∧
      delay = h.backoffDelay a.call.attempt k.provider exc := by
  by_cases hfailed : ∃ exc, a.result = .raised exc
  · obtain ⟨exc', hexc⟩ := hfailed
    rw [hmade.aftermath exc' hexc] at hmem
    obtain ⟨hretry, -, -, rfl, hdelay⟩ := mem_afterFailure_backedOff.mp hmem
    exact ⟨hexc, hretry, hdelay⟩
  · cases hmade.settled (not_exists.mp hfailed) _ hmem

lemma slept_iff {a : Attempt} (hmade : Made h c k a) :
    Slept a ↔ ∃ exc, a.result = .raised exc ∧ Waits h k exc a.call.attempt := by
  constructor
  · rintro ⟨p, n, exc, d, hmem, hsleeps⟩
    obtain ⟨hexc, hretry, hdelay⟩ := backedOff_of_made hmade hmem
    exact ⟨exc, hexc, hretry, d, hdelay.symm, hsleeps⟩
  · rintro ⟨exc, hexc, hretry, d, hdelay, hsleeps⟩
    refine ⟨k.provider, a.call.attempt, exc, d, ?_, hsleeps⟩
    rw [hmade.aftermath exc hexc]
    exact mem_afterFailure_backedOff.mpr ⟨hretry, rfl, rfl, rfl, hdelay.symm⟩

end

/-! ### What follows a sleep -/

/-- A call with the same credential. -/
def SameKey (a b : Attempt) : Prop :=
  b.call.provider = a.call.provider ∧ b.call.index = a.call.index ∧
    b.call.credential = a.call.credential

/-- Every sleep is followed by another call with the same credential. -/
def WastesNoWait (as : List Attempt) : Prop :=
  Onward (fun a post => Slept a → ∃ b rest, post = b :: rest ∧ SameKey a b) as

section

variable {h : ModelInvocationHandler} {w : World} {c : InvocationContext}

/-- How an attempt is followed: by another one with its key if its failure is waited out before
the last attempt, and never by an earlier one with its key. -/
def Followed (h : ModelInvocationHandler) (k : KeySlot) (a : Attempt) (post : List Attempt) :
    Prop :=
  (∀ exc, a.result = .raised exc → Waits h k exc a.call.attempt →
    a.call.attempt < h.maxAttempts.toNat → ∃ b rest, post = b :: rest ∧ SameKey a b) ∧
  ∀ b ∈ post, b.call.index = a.call.index → a.call.attempt < b.call.attempt

lemma sameKey_of_run {k : KeySlot} {n m : ℕ} {r r' : CallResult} {a b : Attempt}
    {v v' : Except PyException Attempted} (ha : AttemptRun h c k n r a v)
    (hb : AttemptRun h c k m r' b v') : SameKey a b := by
  rw [SameKey, ha.call_eq, hb.call_eq]
  exact ⟨rfl, rfl, rfl⟩

/-- The attempts with a key. -/
lemma followed_slot {k : KeySlot} {l : List Event} {n attempt : ℕ} {as : List Attempt}
    {out : Except PyException (Option HandlerOutcome)} (hs : SlotRun h w c k l n attempt as out)
    (h1 : 1 ≤ attempt) (hmax : attempt + n = h.maxAttempts.toNat + 1) :
    Onward (Followed h k) as := by
  induction hs with
  | spent => exact onward_nil
  | @again l n attempt a as out ha hrest ih =>
    have hcall : a.call.attempt = attempt := by rw [ha.call_eq]; rfl
    refine onward_cons ⟨fun exc hexc hwaits hlt => ?_, fun b hb _ => ?_⟩
      (ih (by omega) (by omega))
    · cases hrest with
      | spent => omega
      | again hb => exact ⟨_, _, rfl, sameKey_of_run ha hb⟩
      | ended hb => exact ⟨_, _, rfl, sameKey_of_run ha hb⟩
    · have hle := (hrest.made (by omega) (by omega) b hb).2
      omega
  | @ended l n attempt a v out ha hleaves =>
    have hcall : a.call.attempt = attempt := by rw [ha.call_eq]; rfl
    refine onward_cons ⟨fun exc hexc hwaits _ => ?_, by simp⟩ onward_nil
    -- an attempt that waits does not leave its key
    rw [hcall] at hwaits
    have hagain := ending_again_iff.mpr hwaits
    rw [← ha.ending_eq hexc] at hagain
    subst hagain
    cases hleaves

lemma followed_pool {p : ModelProvider} {more : Bool} {l : List Event}
    {keys : List (Option Credential)} {index : ℕ} {as : List Attempt}
    {out : Except PyException HandlerOutcome} (hp : PoolRun h w c p more l keys index as out) :
    Onward (fun a => Followed h (slotOf more (index + keys.length) a.call) a) as := by
  have hfirst : ∀ {credential : Option Credential} {rest : List (Option Credential)} {index l as v},
      SlotRun h w c ⟨p, credential, index, !rest.isEmpty, more⟩ l h.maxAttempts.toNat 1 as v →
      Onward (fun a => Followed h (slotOf more (index + (credential :: rest).length) a.call) a)
        as := by
    intro credential rest index l as v hslot
    refine (followed_slot hslot le_rfl (Nat.add_comm _ _)).mono fun a ha post hfollowed => ?_
    rw [hslot.slot_eq a ha]
    exact hfollowed
  induction hp with
  | exhausted => exact onward_nil
  | @next l credential rest index as bs out hslot hrest ih =>
    refine onward_append ((hfirst hslot).mono fun a ha post hfollowed => ?_) ?_
    · refine ⟨fun exc hexc hwaits hlt => ?_, fun b hb hindex => ?_⟩
      · obtain ⟨b, rest', rfl, hsame⟩ := hfollowed.1 exc hexc hwaits hlt
        exact ⟨b, rest' ++ bs, rfl, hsame⟩
      · rcases List.mem_append.mp hb with hb | hb
        · exact hfollowed.2 b hb hindex
        · -- the next keys have later indices
          have hmade := (hslot.made le_rfl (Nat.add_comm _ _) a ha).1
          have hindex_a : a.call.index = index := by rw [hmade.call]; rfl
          have hle := (hrest.made b hb).2
          omega
    · have hlen : index + (credential :: rest).length = index + 1 + rest.length := by
        rw [List.length_cons]
        omega
      rw [hlen]
      exact ih
  | ended hslot => exact hfirst hslot

end

section

variable {h : ModelInvocationHandler} {k : KeySlot} {exc : VendorError} {attempt : ℕ}

lemma settled_ne_retry (c : ErrorClass) : settled k c ≠ .retry := by
  unfold settled
  split_ifs <;> simp

/-- A rate limit with nowhere else to go, which has attempts of its own left, and a hint that may
be waited for. -/
structure Waitable (h : ModelInvocationHandler) (k : KeySlot) (exc : VendorError)
    (attempt : ℕ) : Prop where
  limited : k.provider.classifyError exc = .rateLimit
  lastKey : k.hasMoreCredentials = false
  lastProvider : k.hasMoreProviders = false
  within : (attempt : ℤ) < h.rateLimitMaxAttempts
  modest : ∃ hint, k.provider.retryAfterSeconds exc = .ok hint ∧
    ∀ x, hint = some x → x.le h.rateLimitMaxWait

lemma consultsHint_iff {c : ErrorClass} : h.consultsHint k c attempt ↔ c = .rateLimit ∧
    k.hasMoreCredentials = false ∧ k.hasMoreProviders = false ∧
      (attempt : ℤ) < h.rateLimitMaxAttempts := by
  simp [consultsHint, and_assoc]

/-- The failures that are retried: a transient one before the last attempt, and a rate limit that
may be waited for. -/
lemma reaction_retry_iff : reaction h k exc attempt = .retry ↔
    (k.provider.classifyError exc = .transient ∧ (attempt : ℤ) < h.maxAttempts) ∨
      Waitable h k exc attempt := by
  unfold reaction
  dsimp only
  by_cases hretry : k.provider.classifyError exc = .transient ∧ (attempt : ℤ) < h.maxAttempts
  · rw [if_pos (by simpa [isRetryable] using hretry)]
    simp [hretry]
  · rw [if_neg (by simpa [isRetryable] using hretry), or_iff_right hretry]
    by_cases hconsults : h.consultsHint k (k.provider.classifyError exc) attempt
    · obtain ⟨hclass, hkey, hprovider, hwithin⟩ := consultsHint_iff.mp hconsults
      rw [if_pos hconsults]
      cases hhint : k.provider.retryAfterSeconds exc with
      | error e =>
        refine iff_of_false (by simp) fun hwait => ?_
        obtain ⟨hint, hok, -⟩ := hwait.modest
        rw [hhint] at hok
        cases hok
      | ok hint =>
        cases hint with
        | none =>
          exact iff_of_true rfl ⟨hclass, hkey, hprovider, hwithin, none, hhint, by simp⟩
        | some x =>
          by_cases hle : x.le h.rateLimitMaxWait
          · refine iff_of_true (if_pos hle) ⟨hclass, hkey, hprovider, hwithin, some x, hhint, ?_⟩
            rintro y ⟨⟩
            exact hle
          · refine iff_of_false ?_ fun hwait => ?_
            · dsimp only
              rw [if_neg hle]
              exact settled_ne_retry _
            · obtain ⟨hint, hok, hmodest⟩ := hwait.modest
              rw [hhint] at hok
              cases hok
              exact hle (hmodest x rfl)
    · rw [if_neg hconsults]
      refine iff_of_false (settled_ne_retry _) fun hwait => hconsults ?_
      exact consultsHint_iff.mpr ⟨hwait.limited, hwait.lastKey, hwait.lastProvider, hwait.within⟩

end

/-- A sleep after the last attempt with a key: a rate limit that may be waited for, though its
attempt is the last one. -/
def Stranded (h : ModelInvocationHandler) (k : KeySlot) (a : Attempt) : Prop :=
  ∃ exc, a.result = .raised exc ∧ (a.call.attempt : ℤ) = h.maxAttempts ∧
    Waitable h k exc a.call.attempt ∧ Sleepable h k exc a.call.attempt

section

variable {h : ModelInvocationHandler} {w : World} {c : InvocationContext}
variable {more : Bool} {total : ℕ} {as : List Attempt}

/-- No wait is wasted exactly when none comes after the last attempt with its key. -/
lemma wastesNoWait_iff
    (hmade : ∀ a ∈ as, Made h c (slotOf more total a.call) a)
    (hfollowed : Onward (fun a => Followed h (slotOf more total a.call) a) as) :
    WastesNoWait as ↔ ∀ a ∈ as, ¬ Stranded h (slotOf more total a.call) a := by
  constructor
  · rintro hwaste a ha ⟨exc, hexc, hlast, hwaitable, hsleepable⟩
    obtain ⟨pre, post, rfl⟩ := List.append_of_mem ha
    have hslept : Slept a := (slept_iff (hmade a ha)).mpr
      ⟨exc, hexc, reaction_retry_iff.mpr (.inr hwaitable), hsleepable⟩
    obtain ⟨b, rest, rfl, -, hindex, -⟩ := hwaste pre a post rfl hslept
    -- the next attempt with the key would be one too many
    have hlt := (hfollowed pre a (b :: rest) rfl).2 b (by simp) hindex
    have hle := (hmade b (by simp)).le_max
    omega
  · intro hnone pre a post heq hslept
    have ha : a ∈ as := by rw [heq]; simp
    obtain ⟨exc, hexc, hretry, hsleepable⟩ := (slept_iff (hmade a ha)).mp hslept
    have hle := (hmade a ha).le_max
    have hone := (hmade a ha).one_le
    refine (hfollowed pre a post heq).1 exc hexc ⟨hretry, hsleepable⟩ ?_
    rcases reaction_retry_iff.mp hretry with ⟨-, hlt⟩ | hwaitable
    · omega
    · by_contra hlast
      exact hnone a ha ⟨exc, hexc, by omega, hwaitable, hsleepable⟩

end

/-! ### The budget of a last resort -/

section

variable (h : ModelInvocationHandler) (w : World) (c : InvocationContext) (s : Machine)

/-- The one key of the last candidate: its first calls fail with rate limits that give no hint or
one within the wait cap, and the next one succeeds. -/
structure LastResort (p : ModelProvider) (credential : Option Credential) (exc : ℕ → VendorError)
    (failures : ℕ) : Prop where
  alone : c.candidates = [p]
  single : keys s = [credential]
  limited : ∀ i < failures, p.classifyError (exc i) = .rateLimit
  modest : ∀ i < failures, ∃ hint, p.retryAfterSeconds (exc i) = .ok hint ∧
    ∀ x, hint = some x → x.le h.rateLimitMaxWait
  fails : ∀ i call result, (callsIn (trace h w c s))[i]? = some (call, result) → i < failures →
    result = .raised (exc i)
  succeeds : ∀ call result, (callsIn (trace h w c s))[failures]? = some (call, result) →
    ∃ response, result = .returned response

/-- One call for each failure and one more, as far as the budget of rate limits goes; success
exactly when it goes that far. -/
def Budgeted (failures : ℕ) : Prop :=
  ((callsIn (trace h w c s)).length : ℤ) = min (failures + 1 : ℤ) h.rateLimitMaxAttempts ∧
    (answer (invoked h w c s) = .ok .success ↔ (failures : ℤ) < h.rateLimitMaxAttempts)

/-- The loop is long enough for the calls of the budget, and the waits between them go by. -/
def WithinReach (p : ModelProvider) (exc : ℕ → VendorError) (failures : ℕ) : Prop :=
  min (failures + 1 : ℤ) h.rateLimitMaxAttempts ≤ h.maxAttempts ∧
    ∀ i : ℕ, (i + 1 : ℤ) < min (failures + 1 : ℤ) h.rateLimitMaxAttempts →
      ∃ d, h.backoffDelay (i + 1) p (exc i) = .ok d ∧ sleepCheck d = .sleeps

end

section

variable {h : ModelInvocationHandler} {w : World} {c : InvocationContext} {k : KeySlot}
variable {exc : ℕ → VendorError} {failures : ℕ}

/-- The rate limits of a last resort. -/
structure LastRateLimits (h : ModelInvocationHandler) (k : KeySlot) (exc : ℕ → VendorError)
    (failures : ℕ) : Prop where
  lastKey : k.hasMoreCredentials = false
  lastProvider : k.hasMoreProviders = false
  limited : ∀ i < failures, k.provider.classifyError (exc i) = .rateLimit
  modest : ∀ i < failures, ∃ hint, k.provider.retryAfterSeconds (exc i) = .ok hint ∧
    ∀ x, hint = some x → x.le h.rateLimitMaxWait

/-- The answers to the calls from the `m`-th on. -/
def Scripted (exc : ℕ → VendorError) (failures m : ℕ) (as : List Attempt) : Prop :=
  ∀ i a, as[i]? = some a → (m + i < failures → a.result = .raised (exc (m + i))) ∧
    (m + i = failures → ∃ response, a.result = .returned response)

lemma Scripted.tail {m : ℕ} {a : Attempt} {as : List Attempt}
    (hscript : Scripted exc failures m (a :: as)) : Scripted exc failures (m + 1) as := by
  intro i b hb
  have hnext := hscript (i + 1) b (by simpa using hb)
  rwa [show m + (i + 1) = m + 1 + i by omega] at hnext

/-- A rate limit of a last resort is retried while the budget lasts, and then leaves. -/
lemma reaction_lastRateLimit (hk : LastRateLimits h k exc failures) {i : ℕ} (hi : i < failures) :
    reaction h k (exc i) (i + 1) =
      if (i + 1 : ℤ) < h.rateLimitMaxAttempts then .retry else .leave := by
  split_ifs with hlt
  · refine reaction_retry_iff.mpr (.inr ⟨hk.limited i hi, hk.lastKey, hk.lastProvider, ?_,
      hk.modest i hi⟩)
    exact_mod_cast hlt
  · have hconsults : h.consultsHint k (k.provider.classifyError (exc i)) (i + 1) = false := by
      refine Bool.eq_false_iff.mpr fun hc => hlt ?_
      exact_mod_cast (consultsHint_iff.mp hc).2.2.2
    unfold reaction settled
    rw [hk.limited i hi] at hconsults ⊢
    simp [hconsults, isRetryable, isFallbackWorthy]

/-- How an attempt of a last resort ends: again while the budget lasts and the delay can be slept,
with the budget otherwise, and with success after the failures. -/
lemma lastResort_attempt (hk : LastRateLimits h k exc failures) {m : ℕ} {r : CallResult}
    {a : Attempt} {v : Except PyException Attempted} (ha : AttemptRun h c k (m + 1) r a v)
    (hfails : m < failures → a.result = .raised (exc m))
    (hsucceeds : m = failures → ∃ response, a.result = .returned response) :
    (m < failures → (m + 1 : ℤ) < h.rateLimitMaxAttempts →
      (v = .ok .again ↔ Sleepable h k (exc m) (m + 1))) ∧
    (m < failures → h.rateLimitMaxAttempts ≤ (m + 1 : ℤ) → v = .ok (.done .fallback)) ∧
    (m = failures → v = .ok (.done .success)) := by
  refine ⟨fun hm hlt => ?_, fun hm hle => ?_, fun hm => ?_⟩
  · rw [ha.ending_eq (hfails hm), ending_again_iff, Waits, reaction_lastRateLimit hk hm,
      if_pos hlt]
    simp
  · rw [ha.ending_eq (hfails hm), reaction_lastRateLimit hk hm, if_neg (by omega),
      Reaction.ending, hk.lastKey]
    rfl
  · obtain ⟨response, hresponse⟩ := hsucceeds hm
    cases ha <;> first | rfl | cases hresponse

/-- An attempt of a last resort that is followed by another one is within the budget. -/
lemma lastResort_again (hk : LastRateLimits h k exc failures) {m : ℕ} {r : CallResult}
    {a : Attempt} (ha : AttemptRun h c k (m + 1) r a (.ok .again))
    (hfails : m < failures → a.result = .raised (exc m))
    (hsucceeds : m = failures → ∃ response, a.result = .returned response) (hm : m ≤ failures) :
    m < failures ∧ (m + 1 : ℤ) < h.rateLimitMaxAttempts := by
  obtain ⟨-, hleaves, hserved⟩ := lastResort_attempt hk ha hfails hsucceeds
  have hfailed : m < failures := by
    by_contra hnot
    cases hserved (by omega)
  refine ⟨hfailed, ?_⟩
  by_contra hnot
  cases hleaves hfailed (by omega)

/-- With reach, the calls are as many as the budget says. -/
lemma budget_of_reach (hk : LastRateLimits h k exc failures) {l : List Event} {n m : ℕ}
    {as : List Attempt} {out : Except PyException (Option HandlerOutcome)}
    (hs : SlotRun h w c k l n (m + 1) as out) (hscript : Scripted exc failures m as)
    (hm : (m : ℤ) < min (failures + 1 : ℤ) h.rateLimitMaxAttempts)
    (hn : min (failures + 1 : ℤ) h.rateLimitMaxAttempts ≤ m + n)
    (hsleeps : ∀ i : ℕ, m ≤ i → (i + 1 : ℤ) < min (failures + 1 : ℤ) h.rateLimitMaxAttempts →
      Sleepable h k (exc i) (i + 1)) :
    (as.length : ℤ) = min (failures + 1 : ℤ) h.rateLimitMaxAttempts - m ∧
      out = .ok (some (if (failures : ℤ) < h.rateLimitMaxAttempts then .success
        else .fallback)) := by
  generalize hattempt : m + 1 = attempt at hs
  induction hs generalizing m with
  | spent => omega
  | @again l n attempt a as out ha hrest ih =>
    subst hattempt
    obtain ⟨hfails, hsucceeds⟩ := hscript 0 a rfl
    obtain ⟨hfailed, hbudget⟩ := lastResort_again hk ha hfails hsucceeds (by omega)
    obtain ⟨hlength, hout⟩ := ih hscript.tail (by push_cast; omega) (by push_cast; omega)
      (fun i hi => hsleeps i (by omega)) rfl
    refine ⟨?_, hout⟩
    rw [List.length_cons]
    push_cast at hlength ⊢
    omega
  | @ended l n attempt a v out ha hleaves =>
    subst hattempt
    obtain ⟨hfails, hsucceeds⟩ := hscript 0 a rfl
    obtain ⟨hagain, hleaves', hserved⟩ := lastResort_attempt hk ha hfails hsucceeds
    rw [List.length_singleton]
    by_cases hfailed : m < failures
    · have hbudget : h.rateLimitMaxAttempts ≤ (m + 1 : ℤ) := by
        by_contra hnot
        have hv := (hagain hfailed (by omega)).mpr (hsleeps m le_rfl (by omega))
        subst hv
        cases hleaves
      have hv := hleaves' hfailed hbudget
      subst hv
      cases hleaves
      rw [if_neg (by omega)]
      exact ⟨by push_cast; omega, rfl⟩
    · have hv := hserved (by omega)
      subst hv
      cases hleaves
      rw [if_pos (by omega)]
      exact ⟨by push_cast; omega, rfl⟩

/-- Calls as many as the budget says are within reach. -/
lemma reach_of_budget (hk : LastRateLimits h k exc failures) {l : List Event} {n m : ℕ}
    {as : List Attempt} {out : Except PyException (Option HandlerOutcome)}
    (hs : SlotRun h w c k l n (m + 1) as out) (hscript : Scripted exc failures m as)
    (hm : (m : ℤ) < min (failures + 1 : ℤ) h.rateLimitMaxAttempts)
    (hlength : (as.length : ℤ) = min (failures + 1 : ℤ) h.rateLimitMaxAttempts - m) :
    min (failures + 1 : ℤ) h.rateLimitMaxAttempts ≤ m + n ∧
      ∀ i : ℕ, m ≤ i → (i + 1 : ℤ) < min (failures + 1 : ℤ) h.rateLimitMaxAttempts →
        Sleepable h k (exc i) (i + 1) := by
  generalize hattempt : m + 1 = attempt at hs
  induction hs generalizing m with
  | spent =>
    rw [List.length_nil] at hlength
    omega
  | @again l n attempt a as out ha hrest ih =>
    subst hattempt
    obtain ⟨hfails, hsucceeds⟩ := hscript 0 a rfl
    obtain ⟨hfailed, hbudget⟩ := lastResort_again hk ha hfails hsucceeds (by omega)
    have hagain := (lastResort_attempt hk ha hfails hsucceeds).1
    rw [List.length_cons] at hlength
    obtain ⟨hreach, hsleeps⟩ := ih hscript.tail (by push_cast; omega) (by push_cast at *; omega) rfl
    refine ⟨by push_cast at *; omega, fun i hi hlt => ?_⟩
    rcases Nat.eq_or_lt_of_le hi with rfl | hi
    · exact (hagain hfailed hbudget).mp rfl
    · exact hsleeps i hi hlt
  | ended ha hleaves =>
    rw [List.length_singleton] at hlength
    refine ⟨by push_cast at *; omega, fun i hi hlt => ?_⟩
    push_cast at *
    omega

/-- A run over one key. -/
lemma poolRun_single {p : ModelProvider} {more : Bool} {l : List Event}
    {credential : Option Credential} {index : ℕ} {as : List Attempt}
    {out : Except PyException HandlerOutcome}
    (hp : PoolRun h w c p more l [credential] index as out) :
    ∃ v, SlotRun h w c ⟨p, credential, index, false, more⟩ l h.maxAttempts.toNat 1 as v ∧
      ∀ o, v = .ok (some o) → out = .ok o := by
  cases hp with
  | @next _ _ _ _ as bs _ hslot hrest =>
    cases hrest with
    | exhausted =>
      rw [List.append_nil]
      exact ⟨_, hslot, nofun⟩
  | ended hslot hleaves =>
    refine ⟨_, hslot, ?_⟩
    rintro o rfl
    cases hleaves
    rfl

/-- A last resort keeps to its budget exactly when the budget is within reach. -/
lemma budgeted_iff {s : Machine} {p : ModelProvider} {credential : Option Credential}
    (hbudget : 1 ≤ h.rateLimitMaxAttempts) (hlast : LastResort h w c s p credential exc failures) :
    Budgeted h w c s failures ↔ WithinReach h p exc failures := by
  obtain ⟨hpool, hcalls⟩ := invoked_run h w c s hlast.alone
  rw [hlast.single] at hpool
  obtain ⟨v, hslot, hout⟩ := poolRun_single hpool
  have hk : LastRateLimits h ⟨p, credential, 0, false, !([] : List ModelProvider).isEmpty⟩ exc
      failures := ⟨rfl, rfl, hlast.limited, hlast.modest⟩
  have hscript : Scripted exc failures 0 (tried h w c s) := by
    intro i a ha
    have hcall : (callsIn (trace h w c s))[i]? = some (a.call, a.result) := by
      rw [hcalls, List.getElem?_map, ha]
      rfl
    rw [Nat.zero_add]
    refine ⟨hlast.fails i _ _ hcall, ?_⟩
    rintro rfl
    exact hlast.succeeds _ _ hcall
  have hlength : (callsIn (trace h w c s)).length = (tried h w c s).length := by
    rw [hcalls, List.length_map]
  unfold Budgeted WithinReach
  rw [hlength]
  constructor
  · rintro ⟨hcount, -⟩
    obtain ⟨hreach, hsleeps⟩ := reach_of_budget hk hslot hscript (by omega) (by omega)
    exact ⟨by omega, fun i hi => hsleeps i (Nat.zero_le i) hi⟩
  · rintro ⟨hreach, hsleeps⟩
    obtain ⟨hcount, hv⟩ := budget_of_reach hk hslot hscript (by omega) (by omega)
      fun i _ hi => hsleeps i hi
    refine ⟨by omega, ?_⟩
    rw [hout _ hv]
    split_ifs with hlt <;> simp [hlt]

end

/-- **The budget of a last resort, and no wasted wait.** A rate-limited last resort makes the calls
of its budget exactly when the attempt loop is long enough for them and the waits between them can
be slept. In any run, every sleep is followed by another call with its credential exactly when no
rate limit is waited out after the last attempt. -/
theorem budget_and_waits (h : ModelInvocationHandler) (w : World) (c : InvocationContext)
    (s : Machine) (hbudget : 1 ≤ h.rateLimitMaxAttempts) :
    (∀ p credential exc failures, LastResort h w c s p credential exc failures →
      (Budgeted h w c s failures ↔ WithinReach h p exc failures)) ∧
    (WastesNoWait (tried h w c s) ↔
      ∀ a ∈ tried h w c s, ¬ Stranded h (slotIn c s a.call) a) := by
  refine ⟨fun p credential exc failures hlast => budgeted_iff hbudget hlast, ?_⟩
  refine wastesNoWait_iff (tried_made h w c s) ?_
  refine tried_forall h w c s
    (P := fun more total as => Onward (fun a => Followed h (slotOf more total a.call) a) as)
    (fun _ _ => onward_nil) ?_
  intro p more as out hpool
  have hfollowed := followed_pool hpool
  rwa [Nat.zero_add] at hfollowed

namespace Sample

open Refinement.Sample

def failure : VendorError := { typeName := py "Error", text := py "429" }

def context : InvocationContext := ⟨request, tenant, [provider "p" .free]⟩

/-- A vendor that fails its first call on a rate limit. -/
def limited : World := world "429" 1

/-- The failures a list of answers is made of, with `none` for a response. -/
def outline : CallResult → Option (Option VendorError)
  | .returned _ => some none
  | .raised e => some (some e)
  | .raisedLibrary _ => none

lemma eq_raised_of_outline {r : CallResult} {e : VendorError} (h : outline r = some (some e)) :
    r = .raised e := by
  cases r <;> cases h
  rfl

lemma eq_returned_of_outline {r : CallResult} (h : outline r = some none) :
    ∃ response, r = .returned response := by
  cases r <;> cases h
  exact ⟨_, rfl⟩

/-- A run whose first call fails on the rate limit and whose second, if any, succeeds. -/
lemma lastResort {h : ModelInvocationHandler}
    {tail : List (Option (Option VendorError))}
    (hcalls : (callsIn (trace h limited context {})).map (fun x => outline x.2) =
      some (some failure) :: tail) (htail : ∀ r, tail[0]? = some r → r = some none) :
    LastResort h limited context {} (provider "p" .free) none (fun _ => failure) 1 where
  alone := rfl
  single := rfl
  limited := by decide +kernel
  modest i hi := ⟨none, by decide +kernel, by simp⟩
  fails i call result hi hlt := by
    obtain rfl : i = 0 := by omega
    have h0 := congrArg (·[0]?) hcalls
    rw [List.getElem?_map, hi] at h0
    exact eq_raised_of_outline (Option.some.inj h0)
  succeeds call result hi := by
    have h1 := congrArg (·[1]?) hcalls
    rw [List.getElem?_map, hi] at h1
    exact eq_returned_of_outline (htail _ h1.symm)

end Sample

/-- With one attempt, a rate limit is slept on and then given up. -/
theorem single_attempt_short : ¬ ∀ (h : ModelInvocationHandler) (w : World)
    (c : InvocationContext) (s : Machine), 1 ≤ h.maxAttempts → 1 ≤ h.rateLimitMaxAttempts →
    (∀ p credential exc failures, LastResort h w c s p credential exc failures →
      Budgeted h w c s failures) ∧ WastesNoWait (tried h w c s) := by
  intro hall
  have hcalls : (callsIn (trace { maxAttempts := 1 } Sample.limited Sample.context {})).map
      (fun x => Sample.outline x.2) = [some (some Sample.failure)] := by
    decide +kernel
  have hbudget := (hall { maxAttempts := 1 } Sample.limited Sample.context {} (by decide)
    (by decide)).1 _ _ _ _ (Sample.lastResort hcalls (by simp))
  have hlength := congrArg List.length hcalls
  rw [List.length_map] at hlength
  have hcount := hbudget.1
  rw [hlength] at hcount
  revert hcount
  decide

/-- With three attempts, a rate limit is slept on and then served. -/
theorem three_attempts_served : Budgeted {} Sample.limited Sample.context {} 1 := by
  have hcalls : (callsIn (trace {} Sample.limited Sample.context {})).map
      (fun x => Sample.outline x.2) = [some (some Sample.failure), some none] := by
    decide +kernel
  refine ((budget_and_waits {} Sample.limited Sample.context {} (by decide)).1 _ _ _ _
    (Sample.lastResort hcalls (by simp))).mpr ⟨by decide, fun i hi => ?_⟩
  obtain rfl : i = 0 := by
    have hlt : (i + 1 : ℤ) < 2 := hi
    omega
  exact ⟨ofRat (1 / 20), by decide +kernel, by decide +kernel⟩

end ModelDispatcher.Waiting
