import ModelDispatcher.GatewayClient

/-!
The delays between the retries of the TypeScript client, and which of them are within the bounds of
their policy. A power that is too large for a double is infinite, and zero times infinity is no
number.
-/

namespace ModelDispatcher.Backoff

open Lib.Js Lib.Binary64 GatewayClient

/-! ### Bounds -/

/-- No delay or cap of the policy is negative. -/
def NonNegative (policy : RetryPolicy) : Prop :=
  (ofRat 0).le policy.baseDelayMs ∧ (ofRat 0).le policy.maxDelayMs

/-- A delay after some retries is at most the cap and the power, and not negative; with jitter this
needs a policy that is not. -/
structure InBounds (policy : RetryPolicy) (n : ℕ) (ms : Double) : Prop where
  le : (policy.jitter → NonNegative policy) →
    ms.le policy.maxDelayMs ∧ ms.leScaled policy.baseDelayMs n
  nonneg : NonNegative policy → (ofRat 0).le ms

/-- The `n`-th power, or the product with it, is too large for a double. -/
def Overflows (x : Double) (n : ℕ) : Prop :=
  match x with
  | .fin x => 1024 ≤ n ∨ 2 ^ 1024 ≤ |x.val| * 2 ^ n
  | _ => True

/-- What is left to wait of a delay. -/
def jittered (policy : RetryPolicy) (random capped : Double) : Double :=
  if policy.jitter then mathFloor (random.mul capped) else capped

/-- The power is small enough, or the delay is negative; otherwise the cap by itself is no longer
than the power allows. -/
def DelayFits (policy : RetryPolicy) (n : ℕ) (random : Double) : Prop :=
  (policy.jitter → NonNegative policy) → policy.maxDelayMs ≠ .nan ∧ policy.baseDelayMs ≠ .nan ∧
    (¬ Overflows policy.baseDelayMs n ∨ policy.baseDelayMs.Negative ∨
      (ofRat 0).lt policy.baseDelayMs ∧
        (jittered policy random policy.maxDelayMs).leScaled policy.baseDelayMs n)

section

variable {policy : RetryPolicy} {n : ℕ} {random base : Double}

lemma two_pow_min (h : 1024 ≤ n) : 1024 ≤ min n (2 ^ 53) := le_min h (by norm_num)

/-- The product with the power is exact, until one of them is infinite. -/
lemma uncapped_cases (hbase : base ≠ .nan) (n : ℕ) :
    (¬ Overflows base n ∧ ∃ x y : Finite, base = .fin x ∧
      base.mul (ofRat (2 ^ min n (2 ^ 53))) = .fin y ∧ y.val = x.val * 2 ^ n) ∨
    Overflows base n ∧
      (base.isZero ∧ base.mul (ofRat (2 ^ min n (2 ^ 53))) = .nan ∨
        ¬ base.isZero ∧ base.mul (ofRat (2 ^ min n (2 ^ 53))) = .inf base.isNeg) := by
  cases base with
  | nan => exact absurd rfl hbase
  | inf neg =>
    exact .inr ⟨trivial, .inr ⟨by simp [Double.isZero], Double.inf_mul_two_pow _⟩⟩
  | fin x =>
    by_cases hn : 1024 ≤ n
    · rw [Double.ofRat_two_pow_of_le (two_pow_min hn)]
      refine .inr ⟨.inl hn, ?_⟩
      by_cases hzero : (Double.fin x).isZero
      · exact .inl ⟨hzero, Double.zero_mul_inf hzero⟩
      · exact .inr ⟨hzero, Double.mul_inf hzero⟩
    · have hlt : n < 1024 := not_le.mp hn
      have hmin : min n (2 ^ 53) = n := min_eq_left (by omega)
      rw [hmin]
      rcases Double.mul_two_pow (x := x) hlt with ⟨⟨y, hy, hval⟩, hsmall⟩ | ⟨hinf, hbig⟩
      · refine .inl ⟨?_, x, y, rfl, hy, hval⟩
        rintro (h | h)
        · exact hn h
        · exact absurd hsmall (not_lt.mpr h)
      · refine .inr ⟨.inr hbig, .inr ⟨fun hzero => ?_, hinf⟩⟩
        have hval : |x.val| = 0 := by
          rw [Finite.abs_val, of_decide_eq_true hzero, Nat.cast_zero, zero_div]
        rw [hval, zero_mul] at hbig
        exact absurd hbig (not_le.mpr (by positivity))

lemma backoffDelayMs_eq (policy : RetryPolicy) (attempt : ℕ) (random : Double) :
    backoffDelayMs policy attempt random = jittered policy random
      (mathMin policy.maxDelayMs (policy.baseDelayMs.mul (ofRat (2 ^ attempt)))) := rfl

@[simp] lemma jittered_nan : jittered policy random .nan = .nan := by
  unfold jittered
  split_ifs
  · cases random <;> rfl
  · rfl

/-- A source of randomness gives a number from zero on and below one. -/
def IsFraction (random : Double) : Prop := (ofRat 0).le random ∧ random.lt (ofRat 1)

lemma IsFraction.exists_eq (h : IsFraction random) :
    ∃ r : Finite, random = .fin r ∧ 0 ≤ r.int ∧ r.int ≤ scale := by
  obtain ⟨hnonneg, hlt⟩ := h
  rw [ofRat_eq 1 (by decide) (by norm_num)] at hlt
  cases random with
  | nan => cases hlt
  | inf neg =>
    rw [Double.nonneg_inf.mp hnonneg] at hlt
    cases hlt
  | fin r =>
    refine ⟨r, rfl, Double.nonneg_fin.mp hnonneg, ?_⟩
    have hint := Finite.val_lt_val.mp (Double.lt_fin.mp hlt)
    rw [Finite.int_ofInt, one_mul] at hint
    exact hint.le

/-- Jitter only shortens a delay. -/
lemma jittered_fin {c : Finite} (hrandom : IsFraction random) (hc : policy.jitter → 0 ≤ c.int) :
    ∃ ms : Finite, jittered policy random (.fin c) = .fin ms ∧ ms.int ≤ c.int ∧
      (0 ≤ c.int → 0 ≤ ms.int) := by
  unfold jittered
  split_ifs with hjitter
  · obtain ⟨r, rfl, hr, hone⟩ := hrandom.exists_eq
    obtain ⟨z, hz, hz0, hzle⟩ := Double.mul_fraction hr hone (hc hjitter)
    obtain ⟨w, hw, hw0, hwle⟩ := mathFloor_fin hz0
    exact ⟨w, by rw [hz, hw], hwle.trans hzle, fun _ => hw0⟩
  · exact ⟨c, rfl, le_rfl, id⟩

lemma jittered_infinity (hrandom : IsFraction random) :
    jittered policy random (.inf false) = .nan ∨
      jittered policy random (.inf false) = .inf false := by
  unfold jittered
  split_ifs
  · obtain ⟨r, rfl, hr, -⟩ := hrandom.exists_eq
    by_cases hzero : (Double.fin r).isZero
    · rw [Double.zero_mul_inf hzero]
      exact .inl rfl
    · rw [Double.mul_inf hzero, Double.neg_eq_false hr (by simpa [Double.isZero] using hzero)]
      exact .inr rfl
  · exact .inr rfl

/-- A delay that is capped at a finite number within the bounds. -/
lemma inBounds_jittered {c : Finite} (hrandom : IsFraction random)
    (hall : policy.jitter → NonNegative policy) (hmax : (Double.fin c).le policy.maxDelayMs)
    (hbase : (Double.fin c).leScaled policy.baseDelayMs n)
    (hc : NonNegative policy → 0 ≤ c.int) :
    InBounds policy n (jittered policy random (.fin c)) := by
  obtain ⟨ms, hms, hle, hnonneg⟩ := jittered_fin hrandom fun hjitter => hc (hall hjitter)
  rw [hms]
  exact ⟨fun _ => ⟨Double.le_of_int_le hle hmax, Double.leScaled_of_int_le hle hbase⟩,
    fun h => Double.nonneg_fin.mpr (hnonneg (hc h))⟩

lemma inBounds_minus_infinity (hall : policy.jitter → NonNegative policy)
    (hnegative : ¬ NonNegative policy) (hmax : policy.maxDelayMs ≠ .nan)
    (hbase : policy.baseDelayMs ≠ .nan) :
    InBounds policy n (jittered policy random (.inf true)) := by
  have hjitter : ¬ policy.jitter := fun h => hnegative (hall h)
  rw [jittered, if_neg hjitter]
  refine ⟨fun _ => ⟨Double.minus_infinity_le hmax, ?_⟩, fun h => absurd h hnegative⟩
  exact Double.minus_infinity_le hbase

/-- With a power that is small enough, the cap and the power are both kept. -/
lemma inBounds_of_power {x y : Finite} (hrandom : IsFraction random)
    (hall : policy.jitter → NonNegative policy) (hmax : policy.maxDelayMs ≠ .nan)
    (hbase : policy.baseDelayMs = .fin x) (hval : y.val = x.val * 2 ^ n) :
    InBounds policy n (jittered policy random (mathMin policy.maxDelayMs (.fin y))) := by
  have hy : (Double.fin y).leScaled policy.baseDelayMs n := by
    rw [hbase]
    exact hval.le
  have hy0 : NonNegative policy → 0 ≤ y.int := by
    rintro ⟨hx, -⟩
    rw [hbase, Double.nonneg_fin, ← Finite.val_nonneg] at hx
    rw [← Finite.val_nonneg, hval]
    positivity
  rcases hm : policy.maxDelayMs with _ | neg | m
  · exact absurd hm hmax
  · cases neg with
    | false =>
      rw [infinity_mathMin]
      exact inBounds_jittered hrandom hall (hm ▸ rfl) hy hy0
    | true =>
      rw [minus_infinity_mathMin]
      refine inBounds_minus_infinity hall (fun h => ?_) hmax (by rw [hbase]; nofun)
      rw [NonNegative, hm, Double.nonneg_inf] at h
      cases h.2
  · obtain ⟨c, hc, hcases, hcm, hcy⟩ := mathMin_fin (y := m) (z := y)
    rw [hc]
    refine inBounds_jittered hrandom hall (hm ▸ Double.le_fin.mpr hcm) ?_ fun h => ?_
    · exact Double.leScaled_of_int_le (Finite.val_le_val.mp hcy) hy
    · have hm0 : 0 ≤ m.int := by
        have hmax' := h.2
        rwa [hm, Double.nonneg_fin] at hmax'
      rcases hcases with rfl | rfl
      · exact hm0
      · exact hy0 h

/-- Where the power is too large, the delay is the one of the cap by itself. -/
lemma inBounds_of_cap (hrandom : IsFraction random)
    (hall : policy.jitter → NonNegative policy) (hmax : policy.maxDelayMs ≠ .nan)
    (hbase : policy.baseDelayMs ≠ .nan)
    (hscaled : (jittered policy random policy.maxDelayMs).leScaled policy.baseDelayMs n) :
    InBounds policy n (jittered policy random policy.maxDelayMs) := by
  rcases hm : policy.maxDelayMs with _ | neg | m
  · exact absurd hm hmax
  · cases neg with
    | true =>
      refine inBounds_minus_infinity hall (fun h => ?_) hmax hbase
      rw [NonNegative, hm, Double.nonneg_inf] at h
      cases h.2
    | false =>
      rw [hm] at hscaled
      rcases jittered_infinity hrandom with hms | hms
      · rw [hms] at hscaled
        exact absurd hscaled Double.not_nan_leScaled
      · rw [hms] at hscaled ⊢
        exact ⟨fun _ => ⟨by rw [hm]; rfl, hscaled⟩, fun _ => Double.nonneg_inf.mpr rfl⟩
  · rw [hm] at hscaled
    have hm0 : NonNegative policy → 0 ≤ m.int := by
      rintro ⟨-, h⟩
      rwa [hm, Double.nonneg_fin] at h
    obtain ⟨ms, hms, hle, hnonneg⟩ := jittered_fin hrandom fun hjitter => hm0 (hall hjitter)
    rw [hms] at hscaled ⊢
    refine ⟨fun _ => ⟨?_, hscaled⟩, fun h => Double.nonneg_fin.mpr (hnonneg (hm0 h))⟩
    rw [hm]
    exact Double.le_fin.mpr (Finite.val_le_val.mpr hle)

lemma inBounds_iff (hrandom : IsFraction random) (n : ℕ) :
    InBounds policy n (backoffDelayMs policy (min n (2 ^ 53)) random) ↔
      DelayFits policy n random := by
  rw [backoffDelayMs_eq]
  by_cases hall : policy.jitter → NonNegative policy
  · constructor
    · intro h _
      obtain ⟨hle, hscaled⟩ := h.le hall
      have hmax : policy.maxDelayMs ≠ .nan := by
        intro hnan
        rw [hnan, nan_mathMin, jittered_nan] at hle
        exact Double.not_nan_le hle
      have hbase : policy.baseDelayMs ≠ .nan := by
        intro hnan
        rw [hnan, Double.nan_mul, mathMin_nan, jittered_nan] at hle
        exact Double.not_nan_le hle
      refine ⟨hmax, hbase, ?_⟩
      rcases uncapped_cases hbase n with ⟨hfits, -⟩ | ⟨-, ⟨-, hnan⟩ | ⟨hzero, hinf⟩⟩
      · exact .inl hfits
      · rw [hnan, mathMin_nan, jittered_nan] at hle
        exact absurd hle Double.not_nan_le
      · cases hneg : policy.baseDelayMs.isNeg with
        | true => exact .inr (.inl ((Double.negative_iff hbase).mpr ⟨hneg, hzero⟩))
        | false =>
          rw [hinf, hneg, mathMin_infinity hmax] at hscaled
          exact .inr (.inr ⟨(Double.positive_iff hbase).mpr ⟨by simp [hneg], hzero⟩, hscaled⟩)
    · intro h
      obtain ⟨hmax, hbase, hcases⟩ := h hall
      rcases uncapped_cases hbase n with ⟨-, x, y, hx, hy, hval⟩ | ⟨hover, hrest⟩
      · rw [hy]
        exact inBounds_of_power hrandom hall hmax hx hval
      · rcases hrest with ⟨hzero, hnan⟩ | ⟨hzero, hinf⟩
        · rw [Double.negative_iff hbase, Double.positive_iff hbase] at hcases
          exact absurd hcases (by simp [hover, hzero])
        · cases hneg : policy.baseDelayMs.isNeg with
          | true =>
            rw [hinf, hneg, mathMin_minus_infinity hmax]
            refine inBounds_minus_infinity hall (fun hnonneg => ?_) hmax hbase
            exact Double.not_negative_of_nonneg hnonneg.1
              ((Double.negative_iff hbase).mpr ⟨hneg, hzero⟩)
          | false =>
            rw [Double.negative_iff hbase, hneg] at hcases
            rw [hinf, hneg, mathMin_infinity hmax]
            have hcap : (ofRat 0).lt policy.baseDelayMs ∧
                (jittered policy random policy.maxDelayMs).leScaled policy.baseDelayMs n := by
              simpa [hover] using hcases
            exact inBounds_of_cap hrandom hall hmax hbase hcap.2
  · have hjitter : ¬ NonNegative policy := fun h => hall fun _ => h
    exact iff_of_true ⟨fun h => absurd h hall, fun h => absurd h hjitter⟩ fun h => absurd h hall

end

end ModelDispatcher.Backoff
