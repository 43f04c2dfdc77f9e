import Mathlib.Algebra.Order.Field.Rat
import Mathlib.Algebra.Order.Floor.Semiring
import Mathlib.Data.Nat.Log
import Mathlib.Data.Rat.Floor
import Mathlib.Tactic.Linarith
import Mathlib.Tactic.NormNum
import Mathlib.Tactic.Positivity
import Mathlib.Tactic.Ring

/-!
Binary64 numbers: how a rational number is rounded to one, their arithmetic and their order.

A magnitude is counted in units of the least positive number, `2 ^ -1074`, so it is a natural
number that has no digit past its first 53. Rounding goes to the nearest such number, and to the
even one of two. NaN is one value, and zero has two signs.
-/

namespace ModelDispatcher.Lib.Binary64

/-! ### Rounding to a natural number -/

/-- The nearest natural number, the even one of two. -/
def nearestEven (q : ℚ) : ℕ :=
  let n := ⌊q⌋₊
  if q < n + 1 / 2 ∨ (q = n + 1 / 2 ∧ Even n) then n else n + 1

lemma nearestEven_le_iff {q : ℚ} (hq : 0 ≤ q) (n : ℕ) :
    nearestEven q ≤ n ↔ q < n + 1 / 2 ∨ (q = n + 1 / 2 ∧ Even n) := by
  have hlow : (⌊q⌋₊ : ℚ) ≤ q := Nat.floor_le hq
  have hhigh : q < ⌊q⌋₊ + 1 := Nat.lt_floor_add_one q
  unfold nearestEven
  dsimp only
  generalize ⌊q⌋₊ = m at *
  rcases Nat.lt_trichotomy n m with hlt | rfl | hlt
  · have hnext : (n : ℚ) + 1 ≤ m := by exact_mod_cast hlt
    refine iff_of_false ?_ ?_
    · split_ifs <;> omega
    · rintro (h | ⟨h, -⟩) <;> linarith
  · split_ifs with h
    · exact iff_of_true le_rfl h
    · exact iff_of_false (by omega) h
  · have hnext : (m : ℚ) + 1 ≤ n := by exact_mod_cast hlt
    refine iff_of_true ?_ (.inl (by linarith))
    split_ifs <;> omega

lemma nearestEven_mono {p q : ℚ} (hp : 0 ≤ p) (h : p ≤ q) : nearestEven p ≤ nearestEven q := by
  rw [nearestEven_le_iff hp]
  rcases (nearestEven_le_iff (hp.trans h) _).mp le_rfl with hq | ⟨hq, heven⟩
  · exact .inl (h.trans_lt hq)
  · rcases h.lt_or_eq with hlt | rfl
    · exact .inl (hq ▸ hlt)
    · exact .inr ⟨hq, heven⟩

@[simp] lemma nearestEven_natCast (n : ℕ) : nearestEven n = n := by
  unfold nearestEven
  rw [Nat.floor_natCast, if_pos (.inl (by linarith))]

/-! ### Rounding a magnitude -/

/-- The place of the last of 53 digits. -/
def place (n : ℕ) : ℕ := Nat.log 2 n - 52

lemma lt_two_pow_place (n : ℕ) : n < 2 ^ (53 + place n) :=
  (Nat.lt_pow_succ_log_self one_lt_two n).trans_le
    (Nat.pow_le_pow_right (by decide) (by unfold place; omega))

lemma two_pow_place_le {n : ℕ} (h : place n ≠ 0) : 2 ^ (52 + place n) ≤ n := by
  have hlog : 52 + place n = Nat.log 2 n := by
    unfold place at h ⊢
    omega
  rw [hlog]
  refine Nat.pow_log_le_self 2 ?_
  rintro rfl
  exact h rfl

/-- A magnitude that is a double: it has no digit past the first 53. -/
def IsDouble (n : ℕ) : Prop := 2 ^ place n ∣ n

instance (n : ℕ) : Decidable (IsDouble n) := inferInstanceAs (Decidable (_ ∣ _))

lemma isDouble_mul_two_pow {m : ℕ} (h : m ≤ 2 ^ 53) (k : ℕ) : IsDouble (m * 2 ^ k) := by
  have hplace : ∀ {j : ℕ}, m < 2 ^ j → place (m * 2 ^ k) ≤ j + k - 53 := by
    intro j hlt
    have hlt' : m * 2 ^ k < 2 ^ (j + k) := by
      rw [pow_add]
      exact Nat.mul_lt_mul_of_pos_right hlt (by positivity)
    rcases Nat.eq_zero_or_pos (m * 2 ^ k) with hzero | hpos
    · rw [hzero]
      exact Nat.zero_le _
    · have hlog := Nat.log_lt_of_lt_pow hpos.ne' hlt'
      unfold place
      omega
  rcases h.lt_or_eq with hlt | rfl
  · exact (pow_dvd_pow 2 (by simpa using hplace hlt)).mul_left m
  · have hle : place (2 ^ 53 * 2 ^ k) ≤ 53 + k := (hplace (j := 54) (by decide)).trans (by omega)
    exact (pow_dvd_pow 2 hle).trans (by rw [pow_add])

/-- Between two neighbours there is no double. -/
lemma IsDouble.succ_le {n : ℕ} (h : IsDouble n) {m k : ℕ} (hm : k = 0 ∨ 2 ^ 52 ≤ m)
    (hlt : m * 2 ^ k < n) : (m + 1) * 2 ^ k ≤ n := by
  have hdvd : 2 ^ k ∣ n := by
    refine (pow_dvd_pow 2 ?_).trans h
    rcases hm with rfl | hm
    · exact Nat.zero_le _
    · have hle : 2 ^ (52 + k) ≤ n := by
        rw [pow_add]
        exact (Nat.mul_le_mul_right _ hm).trans hlt.le
      have hlog := Nat.le_log_of_pow_le one_lt_two hle
      unfold place
      omega
  obtain ⟨c, rfl⟩ := hdvd
  rw [mul_comm (2 ^ k)] at hlt ⊢
  exact Nat.mul_le_mul_right _ (Nat.lt_of_mul_lt_mul_right hlt)

/-- The nearest double to a magnitude, in units, with no bound above. -/
def roundUnits (q : ℚ) : ℕ :=
  let k := place ⌊q⌋₊
  nearestEven (q / 2 ^ k) * 2 ^ k

section

variable {q : ℚ}

lemma nearestEven_place_le (hq : 0 ≤ q) : nearestEven (q / 2 ^ place ⌊q⌋₊) ≤ 2 ^ 53 := by
  rw [nearestEven_le_iff (by positivity)]
  have hfloor : (⌊q⌋₊ : ℚ) + 1 ≤ 2 ^ (53 + place ⌊q⌋₊) := by
    exact_mod_cast lt_two_pow_place ⌊q⌋₊
  have hlt : q / 2 ^ place ⌊q⌋₊ < 2 ^ 53 := by
    rw [div_lt_iff₀ (by positivity), ← pow_add]
    exact (Nat.lt_floor_add_one q).trans_le hfloor
  push_cast
  exact .inl (by linarith)

lemma isDouble_roundUnits (hq : 0 ≤ q) : IsDouble (roundUnits q) :=
  isDouble_mul_two_pow (nearestEven_place_le hq) _

lemma le_nearestEven_place (hq : 0 ≤ q) (h : place ⌊q⌋₊ ≠ 0) :
    2 ^ 52 ≤ nearestEven (q / 2 ^ place ⌊q⌋₊) := by
  have hfloor : ((2 ^ (52 + place ⌊q⌋₊) : ℕ) : ℚ) ≤ q :=
    (Nat.cast_le.mpr (two_pow_place_le h)).trans (Nat.floor_le hq)
  have hle : ((2 ^ 52 : ℕ) : ℚ) ≤ q / 2 ^ place ⌊q⌋₊ := by
    rw [le_div_iff₀ (by positivity)]
    refine le_trans (le_of_eq ?_) hfloor
    rw [pow_add, Nat.cast_mul, Nat.cast_pow, Nat.cast_pow, Nat.cast_ofNat]
  calc 2 ^ 52 = nearestEven ((2 ^ 52 : ℕ) : ℚ) := (nearestEven_natCast _).symm
    _ ≤ nearestEven (q / 2 ^ place ⌊q⌋₊) := nearestEven_mono (Nat.cast_nonneg _) hle

/-- Rounding against a double: the numbers that go to it or below end half way to the next one. -/
lemma roundUnits_le_iff (hq : 0 ≤ q) {m k : ℕ} (hm : m < 2 ^ 53) (hk : k = 0 ∨ 2 ^ 52 ≤ m) :
    roundUnits q ≤ m * 2 ^ k ↔
      q < (m + 1 / 2) * 2 ^ k ∨ (q = (m + 1 / 2) * 2 ^ k ∧ Even m) := by
  have hpow : (0 : ℚ) < 2 ^ k := by positivity
  have hnext : (m : ℚ) + 1 ≤ 2 ^ 53 := by exact_mod_cast hm
  unfold roundUnits
  extract_lets j
  rcases Nat.lt_trichotomy j k with hlt | rfl | hlt
  · have hm' : 2 ^ 52 ≤ m := hk.resolve_left (by omega)
    have hle : 2 ^ (53 + j) ≤ m * 2 ^ k :=
      calc 2 ^ (53 + j) ≤ 2 ^ (52 + k) := Nat.pow_le_pow_right (by decide) (by omega)
        _ = 2 ^ 52 * 2 ^ k := pow_add 2 52 k
        _ ≤ m * 2 ^ k := Nat.mul_le_mul_right _ hm'
    have hfloor : (⌊q⌋₊ : ℚ) + 1 ≤ m * 2 ^ k := by
      exact_mod_cast Nat.le_trans (lt_two_pow_place ⌊q⌋₊) hle
    refine iff_of_true ?_ (.inl ?_)
    · rw [pow_add] at hle
      exact (Nat.mul_le_mul_right _ (nearestEven_place_le hq)).trans hle
    · have hfloor' := Nat.lt_floor_add_one q
      linarith
  · rw [Nat.mul_le_mul_right_iff (by positivity), nearestEven_le_iff (by positivity),
      div_lt_iff₀ hpow, div_eq_iff hpow.ne']
  · have hplace : place ⌊q⌋₊ ≠ 0 := Nat.ne_zero_of_lt hlt
    have hstep : (2 : ℚ) ^ 53 * 2 ^ k ≤ 2 ^ (52 + j) := by
      rw [← pow_add]
      exact pow_le_pow_right₀ (by norm_num) (by omega)
    have hfloor : (2 : ℚ) ^ (52 + j) ≤ q :=
      le_trans (by exact_mod_cast two_pow_place_le hplace) (Nat.floor_le hq)
    refine iff_of_false (not_le.mpr ?_) ?_
    · calc m * 2 ^ k < 2 ^ 53 * 2 ^ k := Nat.mul_lt_mul_of_pos_right hm (by positivity)
        _ = 2 ^ 52 * 2 ^ (k + 1) := by ring
        _ ≤ 2 ^ 52 * 2 ^ j := Nat.mul_le_mul_left _ (Nat.pow_le_pow_right (by decide) hlt)
        _ ≤ nearestEven (q / 2 ^ j) * 2 ^ j :=
          Nat.mul_le_mul_right _ (le_nearestEven_place hq hplace)
    · have hbelow : (m + 1 / 2) * 2 ^ k < q := by
        have hlt : ((m : ℚ) + 1 / 2) * 2 ^ k < 2 ^ 53 * 2 ^ k :=
          mul_lt_mul_of_pos_right (by linarith) hpow
        linarith
      rintro (h | ⟨h, -⟩) <;> linarith

lemma roundUnits_of_isDouble {n : ℕ} (h : IsDouble n) : roundUnits n = n := by
  obtain ⟨c, hc⟩ := h
  unfold roundUnits
  rw [Nat.floor_natCast]
  extract_lets k
  have hdiv : (n : ℚ) / 2 ^ k = c := by
    rw [div_eq_iff (by positivity), mul_comm]
    exact_mod_cast hc
  rw [hdiv, nearestEven_natCast, mul_comm]
  exact hc.symm

lemma IsDouble.exists_eq {n : ℕ} (h : IsDouble n) :
    ∃ m k, n = m * 2 ^ k ∧ m < 2 ^ 53 ∧ (k = 0 ∨ 2 ^ 52 ≤ m) := by
  obtain ⟨m, hm⟩ := h
  have hn := lt_two_pow_place n
  refine ⟨m, place n, by rw [mul_comm]; exact hm, ?_, ?_⟩
  · rw [pow_add, mul_comm] at hn
    nth_rewrite 1 [hm] at hn
    exact Nat.lt_of_mul_lt_mul_left hn
  · refine or_iff_not_imp_left.mpr fun hplace => ?_
    have hle := two_pow_place_le hplace
    rw [pow_add, mul_comm] at hle
    nth_rewrite 2 [hm] at hle
    exact Nat.le_of_mul_le_mul_left hle (by positivity)

lemma IsDouble.mul_two_pow {n : ℕ} (h : IsDouble n) (k : ℕ) : IsDouble (n * 2 ^ k) := by
  obtain ⟨m, j, rfl, hm, -⟩ := h.exists_eq
  rw [mul_assoc, ← pow_add]
  exact isDouble_mul_two_pow hm.le _

lemma roundUnits_mono {p : ℚ} (hp : 0 ≤ p) (h : p ≤ q) : roundUnits p ≤ roundUnits q := by
  have hq := hp.trans h
  obtain ⟨m, k, hround, hm, hk⟩ := (isDouble_roundUnits hq).exists_eq
  rw [hround, roundUnits_le_iff hp hm hk]
  rcases (roundUnits_le_iff hq hm hk).mp hround.le with hlt | ⟨heq, heven⟩
  · exact .inl (h.trans_lt hlt)
  · rcases h.lt_or_eq with hlt | rfl
    · exact .inl (heq ▸ hlt)
    · exact .inr ⟨heq, heven⟩

@[simp] lemma roundUnits_zero : roundUnits 0 = 0 := by
  have h := roundUnits_of_isDouble (n := 0) (by decide)
  rwa [Nat.cast_zero] at h

/-- Only what is at most half a unit is lost. -/
lemma roundUnits_eq_zero_iff (hq : 0 ≤ q) : roundUnits q = 0 ↔ q ≤ 1 / 2 := by
  have h := roundUnits_le_iff hq (m := 0) (k := 0) (by decide) (.inl rfl)
  rw [Nat.zero_mul, Nat.le_zero] at h
  rw [h, le_iff_lt_or_eq]
  norm_num

end

/-! ### Doubles -/

/-- A unit is two to the power of minus this. -/
@[irreducible] def unitExponent : ℕ := 1074

/-- The units of one. -/
def scale : ℕ := 2 ^ unitExponent

/-- The least magnitude, in units, that is too large for a double. -/
def overflowUnits : ℕ := 2 ^ 1024 * scale

lemma scale_pos : 0 < scale := pow_pos two_pos _

lemma overflowUnits_pos : 0 < overflowUnits := Nat.mul_pos (pow_pos two_pos _) scale_pos

lemma two_pow_mul_scale_strictMono : StrictMono fun k => 2 ^ k * scale := fun _ _ h =>
  Nat.mul_lt_mul_of_pos_right (Nat.pow_lt_pow_right one_lt_two h) scale_pos

lemma two_pow_mul_scale_mono : Monotone fun k => 2 ^ k * scale :=
  two_pow_mul_scale_strictMono.monotone

lemma two_pow_mul_scale_le {k : ℕ} (h : k ≤ 1024) : 2 ^ k * scale ≤ overflowUnits :=
  Nat.mul_le_mul_right _ (pow_le_pow_right₀ one_le_two h)

lemma isDouble_mul_scale {m : ℕ} (h : m ≤ 2 ^ 53) : IsDouble (m * scale) :=
  isDouble_mul_two_pow h unitExponent

/-- One more than `2 ^ 53` is between two doubles, and the even one is below. -/
lemma roundUnits_two_pow_add_one :
    roundUnits ((2 ^ 53 + 1 : ℕ) * scale) = roundUnits ((2 ^ 53 : ℕ) * scale) := by
  have hscale : (2 ^ 53 : ℕ) * scale = 2 ^ 52 * 2 ^ (1 + unitExponent) := by
    rw [scale, pow_add, ← mul_assoc]
    rfl
  have hq : ((2 ^ 53 + 1 : ℕ) * scale : ℚ) = ((2 ^ 52 : ℕ) + 1 / 2) * 2 ^ (1 + unitExponent) := by
    have hpow : (2 : ℚ) ^ (1 + unitExponent) = 2 * scale := by
      rw [pow_add, pow_one, scale, Nat.cast_pow, Nat.cast_ofNat]
    rw [hpow]
    push_cast
    ring
  have hround : roundUnits ((2 ^ 53 : ℕ) * scale) = 2 ^ 52 * 2 ^ (1 + unitExponent) := by
    rw [← Nat.cast_mul, roundUnits_of_isDouble (isDouble_mul_scale le_rfl), hscale]
  refine le_antisymm ?_ (roundUnits_mono (by positivity) ?_)
  · rw [hround, roundUnits_le_iff (by positivity) (by decide) (.inr (by decide))]
    exact .inr ⟨hq, by decide⟩
  · exact mul_le_mul_of_nonneg_right (by norm_num) (Nat.cast_nonneg _)

structure Finite where
  neg : Bool
  units : ℕ
  isDouble : IsDouble units
  lt_overflow : units < overflowUnits
  deriving DecidableEq

inductive Double
  | nan
  | inf (neg : Bool)
  | fin (x : Finite)
  deriving DecidableEq

/-- The number of units, with its sign. -/
def Finite.int (x : Finite) : ℤ := if x.neg then -x.units else x.units

def Finite.val (x : Finite) : ℚ := x.int / scale

/-- The double nearest to a magnitude in units, under a sign. -/
def rounded (neg : Bool) (q : ℚ) (hq : 0 ≤ q) : Double :=
  if h : roundUnits q < overflowUnits then .fin ⟨neg, roundUnits q, isDouble_roundUnits hq, h⟩
  else .inf neg

/-- The double nearest to a number whose sign is given apart, so that zero keeps it. -/
def ofMagnitude (neg : Bool) (q : ℚ) : Double := rounded neg (|q| * scale) (by positivity)

/-- The double nearest to a number. -/
@[irreducible] def ofRat (q : ℚ) : Double := ofMagnitude (q < 0) q

/-- The midpoint above the largest double; from here on a number is rounded to an infinity. -/
def overflowBound : ℚ := 2 ^ 1024 - 2 ^ 970

namespace Double

def add : Double → Double → Double
  | .nan, _ => .nan
  | _, .nan => .nan
  | .inf a, .inf b => if a = b then .inf a else .nan
  | .inf a, .fin _ => .inf a
  | .fin _, .inf b => .inf b
  | .fin x, .fin y =>
    let sum := x.int + y.int
    rounded (if sum = 0 then x.neg && y.neg else sum < 0) sum.natAbs (Nat.cast_nonneg _)

def isNeg : Double → Bool
  | .nan => false
  | .inf neg => neg
  | .fin x => x.neg

def isZero : Double → Bool
  | .fin x => x.units = 0
  | _ => false

def mul : Double → Double → Double
  | .nan, _ => .nan
  | _, .nan => .nan
  | .fin x, .fin y => rounded (x.neg != y.neg) (x.units * y.units / scale) (by positivity)
  | x, y => if x.isZero || y.isZero then .nan else .inf (x.isNeg != y.isNeg)

/-- `x < y`; false when either side is NaN. -/
def lt : Double → Double → Bool
  | .nan, _ => false
  | _, .nan => false
  | .inf a, .inf b => a && !b
  | .inf a, .fin _ => a
  | .fin _, .inf b => !b
  | .fin x, .fin y => x.int < y.int

/-- `x <= y`; false when either side is NaN. -/
def le (x y : Double) : Bool :=
  match x, y with
  | .nan, _ => false
  | _, .nan => false
  | x, y => !y.lt x

/-- `x < q` for a number `q` that need not be a double. -/
def ltRat : Double → ℚ → Bool
  | .nan, _ => false
  | .inf neg, _ => neg
  | .fin x, q => x.val < q

end Double

/-! ### Values -/

namespace Finite

variable {x y : Finite}

lemma natAbs_int (x : Finite) : x.int.natAbs = x.units := by
  unfold int
  split_ifs <;> omega

lemma scale_pos' : (0 : ℚ) < scale := Nat.cast_pos.mpr scale_pos

lemma abs_val (x : Finite) : |x.val| = x.units / scale := by
  rw [val, abs_div, abs_of_pos scale_pos', ← Int.cast_abs, ← Int.natCast_natAbs, natAbs_int,
    Int.cast_natCast]

lemma val_lt_val : x.val < y.val ↔ x.int < y.int := by
  unfold val
  rw [div_lt_div_iff_of_pos_right scale_pos', Int.cast_lt]

lemma val_le_val : x.val ≤ y.val ↔ x.int ≤ y.int := by
  rw [← not_lt, val_lt_val, not_lt]

lemma val_neg : x.val < 0 ↔ x.int < 0 := by
  unfold val
  rw [div_lt_iff₀ scale_pos', zero_mul, Int.cast_lt_zero]

lemma val_nonneg : 0 ≤ x.val ↔ 0 ≤ x.int := by rw [← not_lt, val_neg, not_lt]

/-- A double that is a small integer. -/
def ofInt (n : ℤ) (h : n.natAbs ≤ 2 ^ 53) : Finite where
  neg := n < 0
  units := n.natAbs * scale
  isDouble := isDouble_mul_scale h
  lt_overflow := by
    have hlt : n.natAbs < 2 ^ 54 := by omega
    exact (Nat.mul_lt_mul_of_pos_right hlt scale_pos).trans_le (two_pow_mul_scale_le (by decide))

lemma int_ofInt (n : ℤ) (h : n.natAbs ≤ 2 ^ 53) : (ofInt n h).int = n * scale := by
  have hunits : (ofInt n h).units = n.natAbs * scale := rfl
  have hneg : (ofInt n h).neg = decide (n < 0) := rfl
  rw [int, hunits, hneg, Nat.cast_mul, ← Int.abs_eq_natAbs]
  by_cases hn : n < 0
  · rw [abs_of_neg hn, decide_eq_true hn, if_pos rfl, neg_mul, neg_neg]
  · rw [abs_of_nonneg (not_lt.mp hn), decide_eq_false hn, if_neg (by decide)]

lemma val_ofInt (n : ℤ) (h : n.natAbs ≤ 2 ^ 53) : (ofInt n h).val = n := by
  rw [val, int_ofInt, Int.cast_mul, Int.cast_natCast, mul_div_cancel_right₀ _ scale_pos'.ne']

end Finite

lemma rounded_of_isDouble {neg : Bool} {q : ℚ} {hq : 0 ≤ q} {n : ℕ} (h : IsDouble n)
    (hlt : n < overflowUnits) (hn : q = n) : rounded neg q hq = .fin ⟨neg, n, h, hlt⟩ := by
  subst hn
  have hround := roundUnits_of_isDouble h
  unfold rounded
  simp only [hround, hlt, dif_pos]

lemma ofRat_of_nonneg {q : ℚ} (h : 0 ≤ q) : ofRat q = ofMagnitude false q := by
  unfold ofRat
  rw [decide_eq_false (not_lt.mpr h)]

lemma ofRat_eq_rounded {q : ℚ} (h : 0 ≤ q) :
    ofRat q = rounded false (q * scale) (by positivity) := by
  rw [ofRat_of_nonneg h, ofMagnitude]
  simp only [abs_of_nonneg h]

/-- Below the bound a magnitude is finite. -/
lemma roundUnits_lt_overflow_iff {q : ℚ} (hq : 0 ≤ q) :
    roundUnits (q * scale) < overflowUnits ↔ q < overflowBound := by
  have hv : 0 ≤ q * scale := by positivity
  have hunits : overflowUnits = (2 ^ 53 - 1 + 1) * 2 ^ (971 + unitExponent) := by
    have hone : 2 ^ 53 - 1 + 1 = 2 ^ 53 := by decide
    rw [overflowUnits, hone, scale, ← pow_add, ← pow_add, ← Nat.add_assoc]
  have hgap : roundUnits (q * scale) < overflowUnits ↔
      roundUnits (q * scale) ≤ (2 ^ 53 - 1) * 2 ^ (971 + unitExponent) := by
    rw [hunits]
    constructor
    · intro h
      by_contra hlt
      have hnext := (isDouble_roundUnits hv).succ_le (.inr (by decide)) (not_le.mp hlt)
      omega
    · intro h
      refine h.trans_lt (Nat.mul_lt_mul_of_pos_right (by decide) (pow_pos two_pos _))
  have hodd : ¬ Even (2 ^ 53 - 1) := by decide
  have hbound : overflowBound * scale = ((2 ^ 53 - 1 : ℕ) + 1 / 2) * 2 ^ (971 + unitExponent) := by
    have htop : (2 : ℚ) ^ 1024 = 2 ^ 54 * 2 ^ 970 := pow_add 2 54 970
    have hlast : (2 : ℚ) ^ (971 + unitExponent) = 2 * 2 ^ 970 * scale := by
      rw [pow_add, pow_succ' 2 970, scale, Nat.cast_pow, Nat.cast_ofNat]
    rw [overflowBound, htop, hlast]
    generalize (2 : ℚ) ^ 970 = c
    push_cast
    ring
  rw [hgap, roundUnits_le_iff hv (by decide) (.inr (by decide)), or_iff_left (hodd ·.2), ← hbound,
    mul_lt_mul_iff_left₀ Finite.scale_pos']

lemma lt_overflowBound {q : ℚ} (h : q ≤ 2 ^ 970) : q < overflowBound := by
  have htop : (2 : ℚ) ^ 1024 = 2 ^ 54 * 2 ^ 970 := pow_add 2 54 970
  have hpos : (0 : ℚ) < 2 ^ 970 := by positivity
  rw [overflowBound, htop]
  generalize (2 : ℚ) ^ 970 = c at h hpos ⊢
  linarith only [h, hpos]

lemma two_pow_lt_overflowBound {n : ℕ} (h : n < 1024) : (2 : ℚ) ^ n < overflowBound := by
  have hle : (2 : ℚ) ^ n ≤ 2 ^ 1023 := pow_le_pow_right₀ one_le_two (by omega)
  have hlast : (2 : ℚ) ^ 1023 = 2 ^ 53 * 2 ^ 970 := pow_add 2 53 970
  have htop : (2 : ℚ) ^ 1024 = 2 ^ 54 * 2 ^ 970 := pow_add 2 54 970
  have hpos : (0 : ℚ) < 2 ^ 970 := by positivity
  rw [overflowBound, htop]
  rw [hlast] at hle
  generalize (2 : ℚ) ^ 970 = c at hle hpos ⊢
  linarith only [hle, hpos]

/-- Below the bound a number is rounded to a finite one. -/
lemma exists_finite {q : ℚ} (hq : 0 ≤ q) (h : q < overflowBound) :
    ∃ x : Finite, ofRat q = .fin x ∧ x.neg = false := by
  rw [ofRat_eq_rounded hq, rounded, dif_pos ((roundUnits_lt_overflow_iff hq).mpr h)]
  exact ⟨_, rfl, rfl⟩

/-- A small integer is a double. -/
lemma ofRat_eq {q : ℚ} (n : ℤ) (h : n.natAbs ≤ 2 ^ 53) (hq : q = n) :
    ofRat q = .fin (Finite.ofInt n h) := by
  subst hq
  have hunits : |(n : ℚ)| * scale = ((n.natAbs * scale : ℕ) : ℚ) := by
    rw [Nat.cast_mul, Nat.cast_natAbs, Int.cast_abs]
  unfold ofRat ofMagnitude
  rw [rounded_of_isDouble (isDouble_mul_scale h) (Finite.ofInt n h).lt_overflow hunits]
  simp only [Finite.ofInt, Int.cast_lt_zero]

lemma ofRat_natCast {q : ℚ} (n : ℕ) (h : n ≤ 2 ^ 53) (hq : q = n) :
    ofRat q = .fin (Finite.ofInt n h) := ofRat_eq n h (by rw [hq, Int.cast_natCast])

namespace Double

lemma mul_ofInt (x : Finite) {n : ℤ} (h : n.natAbs ≤ 2 ^ 53) :
    (fin x).mul (fin (Finite.ofInt n h)) =
      rounded (x.neg != decide (n < 0)) (x.units * n.natAbs) (by positivity) := by
  have hunits : (x.units : ℚ) * (Finite.ofInt n h).units / scale = x.units * n.natAbs := by
    change (x.units : ℚ) * (n.natAbs * scale : ℕ) / scale = _
    rw [Nat.cast_mul, ← mul_assoc, mul_div_cancel_right₀ _ Finite.scale_pos'.ne']
  rw [mul]
  simp only [hunits]
  rfl

/-- Less than zero. -/
def Negative (x : Double) : Prop := x.lt (ofRat 0)

lemma lt_fin {x y : Finite} : (fin x).lt (fin y) ↔ x.val < y.val := by
  rw [Finite.val_lt_val]
  exact decide_eq_true_iff

lemma negative_fin {x : Finite} : Negative (fin x) ↔ x.int < 0 := by
  rw [Negative, ofRat_eq 0 (by decide) (by norm_num), lt_fin, Finite.val_ofInt, Int.cast_zero,
    Finite.val_neg]

@[simp] lemma negative_inf {neg : Bool} : Negative (inf neg) ↔ neg := by
  rw [Negative, ofRat_eq 0 (by decide) (by norm_num)]
  rfl

@[simp] lemma not_negative_nan : ¬ Negative nan := Bool.false_ne_true

lemma rounded_ne_nan {neg : Bool} {q : ℚ} {hq : 0 ≤ q} : rounded neg q hq ≠ nan := by
  unfold rounded
  split_ifs <;> simp

lemma ofRat_ne_nan (q : ℚ) : ofRat q ≠ nan := by
  unfold ofRat ofMagnitude
  exact rounded_ne_nan

lemma fin_add_ne_nan {x y : Finite} : (fin x).add (fin y) ≠ nan := by
  rw [add]
  exact rounded_ne_nan

@[simp] lemma nan_mul (y : Double) : nan.mul y = nan := rfl
@[simp] lemma nan_add (y : Double) : nan.add y = nan := rfl
@[simp] lemma nan_lt (y : Double) : nan.lt y = false := rfl
@[simp] lemma lt_nan (x : Double) : x.lt nan = false := by cases x <;> rfl

section

variable {n : ℕ} (hn : n ≤ 2 ^ 53)
include hn

lemma natCast_lt_fin {x : Finite} : (ofRat n).lt (fin x) ↔ (n : ℚ) < x.val := by
  rw [ofRat_natCast n hn rfl, lt_fin, Finite.val_ofInt, Int.cast_natCast]

lemma natCast_lt_inf {neg : Bool} : (ofRat n).lt (inf neg) ↔ neg = false := by
  rw [ofRat_natCast n hn rfl]
  cases neg <;> simp [lt]

/-- What is above a whole number is above the smaller ones. -/
lemma lt_of_natCast_lt {m : ℕ} (hle : m ≤ n) {x : Double} (h : (ofRat n).lt x) :
    (ofRat m).lt x := by
  cases x with
  | nan => rw [lt_nan] at h; cases h
  | inf neg => exact (natCast_lt_inf (hle.trans hn)).mpr ((natCast_lt_inf hn).mp h)
  | fin x =>
    rw [natCast_lt_fin hn] at h
    rw [natCast_lt_fin (hle.trans hn)]
    exact lt_of_le_of_lt (by exact_mod_cast hle) h

end

lemma add_ne_nan {x : Double} {y : Finite} (h : x ≠ nan) : x.add (fin y) ≠ nan := by
  cases x with
  | nan => exact absurd rfl h
  | inf neg => simp [add]
  | fin x => exact fin_add_ne_nan

/-- What is rounded to a negative number is under a minus sign, and not lost. -/
lemma negative_rounded {neg : Bool} {q : ℚ} (hq : 0 ≤ q) :
    Negative (rounded neg q hq) ↔ neg ∧ 1 / 2 < q := by
  rw [← not_le, ← roundUnits_eq_zero_iff hq]
  unfold rounded
  split_ifs with h
  · rw [negative_fin]
    unfold Finite.int
    cases neg <;> simp [Nat.pos_iff_ne_zero]
  · have hne : roundUnits q ≠ 0 := by
      intro hzero
      exact h (hzero ▸ overflowUnits_pos)
    simp [hne]

/-! ### Sums and products of positive numbers -/

lemma add_fin {x y : Finite} (hx : x.neg = false) (hy : y.neg = false) :
    (fin x).add (fin y) = rounded false (x.units + y.units : ℕ) Rat.natCast_nonneg := by
  have hsum : x.int + y.int = (x.units + y.units : ℕ) := by simp [Finite.int, hx, hy]
  have hneg : (if ((x.units + y.units : ℕ) : ℤ) = 0 then x.neg && y.neg
      else decide (((x.units + y.units : ℕ) : ℤ) < 0)) = false := by
    have hle : ¬ ((x.units + y.units : ℕ) : ℤ) < 0 := by omega
    rw [hx, decide_eq_false hle]
    split_ifs <;> rfl
  unfold add
  simp only [hsum, hneg, Int.natAbs_natCast]

section

variable {p q : ℚ} {hp : 0 ≤ p} {hq : 0 ≤ q}

lemma mul_ofRat {a b : ℚ} (ha : 0 ≤ a) (ha' : a < overflowBound) (hb : 0 ≤ b)
    (hb' : b < overflowBound) :
    ∃ r, ∃ hr : 0 ≤ r, (ofRat a).mul (ofRat b) = rounded false r hr := by
  obtain ⟨x, hx, hxneg⟩ := exists_finite ha ha'
  obtain ⟨y, hy, hyneg⟩ := exists_finite hb hb'
  rw [hx, hy, mul, hxneg, hyneg]
  exact ⟨_, _, rfl⟩

end

/-- A sum of two doubles is negative only if it is in the exact numbers. -/
lemma negative_add {x y : Finite} : Negative ((fin x).add (fin y)) ↔ x.int + y.int < 0 := by
  rw [add, negative_rounded]
  generalize x.int + y.int = sum
  by_cases hzero : sum = 0
  · simp [hzero]
  · have hone : (1 : ℚ) ≤ sum.natAbs := by
      exact_mod_cast Int.natAbs_pos.mpr hzero
    have hhalf : (1 : ℚ) / 2 < sum.natAbs := by linarith
    rw [if_neg hzero, decide_eq_true_iff, and_iff_left hhalf]

/-! ### Products with powers of two -/

lemma ofRat_two_pow (n : ℕ) :
    ofRat (2 ^ n) = rounded false (2 ^ n * scale : ℕ) Rat.natCast_nonneg := by
  rw [ofRat_eq_rounded (by positivity)]
  simp only [Nat.cast_mul, Nat.cast_pow, Nat.cast_ofNat]

lemma isDouble_two_pow (n : ℕ) : IsDouble (2 ^ n * scale) := by
  rw [mul_comm]
  exact IsDouble.mul_two_pow (by simpa using isDouble_mul_scale (m := 1) (by decide)) n

/-- A power of two that is too large is infinite. -/
lemma ofRat_two_pow_of_le {n : ℕ} (h : 1024 ≤ n) : ofRat (2 ^ n) = inf false := by
  have hle : overflowUnits ≤ 2 ^ n * scale := two_pow_mul_scale_mono h
  rw [ofRat_two_pow, rounded, dif_neg]
  rw [roundUnits_of_isDouble (isDouble_two_pow n)]
  exact hle.not_gt

lemma ofRat_two_pow_of_lt {n : ℕ} (h : n < 1024) :
    ∃ y : Finite, ofRat (2 ^ n) = fin y ∧ y.neg = false ∧ y.units = 2 ^ n * scale := by
  have hlt : 2 ^ n * scale < overflowUnits := two_pow_mul_scale_strictMono h
  rw [ofRat_two_pow, rounded_of_isDouble (isDouble_two_pow n) hlt rfl]
  exact ⟨_, rfl, rfl, rfl⟩

/-- A product with a power of two loses no digits. -/
lemma mul_two_pow {x : Finite} {n : ℕ} (h : n < 1024) :
    (∃ y : Finite, (fin x).mul (ofRat (2 ^ n)) = fin y ∧ y.val = x.val * 2 ^ n) ∧
        |x.val| * 2 ^ n < 2 ^ 1024 ∨
      (fin x).mul (ofRat (2 ^ n)) = inf x.neg ∧ 2 ^ 1024 ≤ |x.val| * 2 ^ n := by
  obtain ⟨p, hp, hneg, hunits⟩ := ofRat_two_pow_of_lt h
  have hmul : (fin x).mul (fin p) = rounded x.neg (x.units * 2 ^ n : ℕ) Rat.natCast_nonneg := by
    have hq : (x.units : ℚ) * p.units / scale = (x.units * 2 ^ n : ℕ) := by
      rw [hunits, Nat.cast_mul (2 ^ n), ← mul_assoc, mul_div_cancel_right₀ _ Finite.scale_pos'.ne']
      push_cast
      rfl
    unfold mul
    simp only [hq, hneg, Bool.bne_false]
  have habs : |x.val| * 2 ^ n < 2 ^ 1024 ↔ x.units * 2 ^ n < overflowUnits := by
    rw [Finite.abs_val, div_mul_eq_mul_div, div_lt_iff₀ Finite.scale_pos', overflowUnits]
    exact_mod_cast Iff.rfl
  rw [hp, hmul]
  by_cases hlt : x.units * 2 ^ n < overflowUnits
  · refine .inl ⟨?_, habs.mpr hlt⟩
    rw [rounded_of_isDouble (x.isDouble.mul_two_pow n) hlt rfl]
    refine ⟨_, rfl, ?_⟩
    simp only [Finite.val, Finite.int]
    split_ifs <;> push_cast <;> ring
  · refine .inr ⟨?_, not_lt.mp (habs.not.mpr hlt)⟩
    rw [rounded, dif_neg]
    rwa [roundUnits_of_isDouble (x.isDouble.mul_two_pow n)]

lemma inf_mul_two_pow {neg : Bool} (n : ℕ) : (inf neg).mul (ofRat (2 ^ n)) = inf neg := by
  rcases lt_or_ge n 1024 with hlt | hle
  · obtain ⟨y, hy, hneg, hunits⟩ := ofRat_two_pow_of_lt hlt
    have hpos : y.units ≠ 0 := hunits ▸ Nat.mul_ne_zero (by positivity) scale_pos.ne'
    rw [hy]
    simp [mul, isZero, isNeg, hneg, hpos]
  · rw [ofRat_two_pow_of_le hle]
    simp [mul, isZero, isNeg]

lemma zero_mul_inf {x : Finite} {neg : Bool} (h : (fin x).isZero) :
    (fin x).mul (inf neg) = nan := by
  simp [mul, h]

lemma mul_inf {x : Finite} (h : ¬ (fin x).isZero) : (fin x).mul (inf false) = inf x.neg := by
  have hinf : (inf false).isZero = false := rfl
  simp [mul, h, hinf, isNeg]

/-! ### Fractions of a number -/

lemma int_eq_units {x : Finite} (h : 0 ≤ x.int) : x.int = x.units := by
  unfold Finite.int at h ⊢
  split_ifs at h ⊢ <;> omega

lemma neg_eq_false {x : Finite} (h : 0 ≤ x.int) (hx : x.units ≠ 0) : x.neg = false := by
  unfold Finite.int at h
  split_ifs at h with hneg
  · omega
  · exact Bool.not_eq_true _ ▸ hneg

/-- A fraction of a number that is not negative is at most the number. -/
lemma mul_fraction {r y : Finite} (hr : 0 ≤ r.int) (hone : r.int ≤ scale) (hy : 0 ≤ y.int) :
    ∃ z : Finite, (fin r).mul (fin y) = fin z ∧ 0 ≤ z.int ∧ z.int ≤ y.int := by
  have hunits : r.units ≤ scale := by rw [int_eq_units hr] at hone; exact_mod_cast hone
  have hq : (r.units * y.units / scale : ℚ) ≤ y.units := by
    rw [div_le_iff₀ Finite.scale_pos', mul_comm]
    exact mul_le_mul_of_nonneg_left (by exact_mod_cast hunits) (Nat.cast_nonneg _)
  have hround := roundUnits_mono (by positivity) hq
  rw [roundUnits_of_isDouble y.isDouble] at hround
  rw [mul, rounded, dif_pos (hround.trans_lt y.lt_overflow)]
  refine ⟨_, rfl, ?_⟩
  rw [int_eq_units hy]
  by_cases hzero : roundUnits (r.units * y.units / scale) = 0
  · simp [Finite.int, hzero]
  · have hpos : r.units ≠ 0 ∧ y.units ≠ 0 := by
      constructor <;> rintro h <;> simp [h] at hzero
    rw [neg_eq_false hr hpos.1, neg_eq_false hy hpos.2]
    exact ⟨by simp [Finite.int], by simpa [Finite.int] using hround⟩

/-! ### Orders -/

lemma le_fin {x y : Finite} : (fin x).le (fin y) ↔ x.val ≤ y.val := by
  have h : (fin x).le (fin y) = !(fin y).lt (fin x) := rfl
  rw [h, Bool.not_eq_true', ← Bool.not_eq_true, lt_fin, not_lt]

/-- Above zero are the numbers without a sign that are not zero. -/
lemma positive_iff {x : Double} (h : x ≠ nan) :
    (ofRat 0).lt x ↔ ¬ x.isNeg ∧ ¬ x.isZero := by
  rw [ofRat_eq 0 (by decide) (by norm_num)]
  cases x with
  | nan => exact absurd rfl h
  | inf neg => cases neg <;> simp [lt, isNeg, isZero]
  | fin x =>
    rw [lt_fin, Finite.val_lt_val, Finite.int_ofInt]
    cases hneg : x.neg <;> simp [Finite.int, isNeg, isZero, hneg, Nat.pos_iff_ne_zero]

lemma negative_iff {x : Double} (h : x ≠ nan) : Negative x ↔ x.isNeg ∧ ¬ x.isZero := by
  cases x with
  | nan => exact absurd rfl h
  | inf neg => simp [isNeg, isZero]
  | fin x =>
    rw [negative_fin]
    cases hneg : x.neg <;> simp [Finite.int, isNeg, isZero, hneg, Nat.pos_iff_ne_zero]

lemma nonneg_fin {x : Finite} : (ofRat 0).le (fin x) ↔ 0 ≤ x.int := by
  rw [ofRat_eq 0 (by decide) (by norm_num), le_fin, Finite.val_ofInt, Int.cast_zero,
    Finite.val_nonneg]

lemma nonneg_inf {neg : Bool} : (ofRat 0).le (inf neg) ↔ neg = false := by
  rw [ofRat_eq 0 (by decide) (by norm_num)]
  cases neg <;> decide

/-- `x <= y * 2 ** n`, of the exact product. -/
def leScaled (x y : Double) (n : ℕ) : Prop :=
  match x, y with
  | .fin x, .fin y => x.val ≤ y.val * 2 ^ n
  | x, y => x.le y

lemma le_refl {x : Double} (h : x ≠ nan) : x.le x := by
  cases x with
  | nan => exact absurd rfl h
  | inf neg => cases neg <;> rfl
  | fin x => exact le_fin.mpr le_rfl

lemma nonneg_natCast {n : ℕ} (h : n ≤ 2 ^ 53) : (ofRat 0).le (ofRat n) := by
  rw [ofRat_natCast n h (rfl : (n : ℚ) = n), nonneg_fin, Finite.int_ofInt]
  positivity

lemma not_negative_of_nonneg {x : Double} (h : (ofRat 0).le x) : ¬ Negative x := by
  cases x with
  | nan => exact not_negative_nan
  | inf neg => simp [nonneg_inf.mp h]
  | fin x => exact negative_fin.not.mpr (not_lt.mpr (nonneg_fin.mp h))

@[simp] lemma not_nan_le {x : Double} : ¬ nan.le x := Bool.false_ne_true

lemma not_nan_leScaled {x : Double} {n : ℕ} : ¬ nan.leScaled x n := by
  cases x <;> exact Bool.false_ne_true

@[simp] lemma not_le_nan {x : Double} : ¬ x.le nan := by
  cases x <;> exact Bool.false_ne_true

lemma minus_infinity_le {x : Double} (h : x ≠ nan) : (inf true).le x := by
  cases x with
  | nan => exact absurd rfl h
  | inf neg => cases neg <;> rfl
  | fin x => rfl

lemma le_of_int_le {x y : Finite} {b : Double} (h : x.int ≤ y.int) (hy : (fin y).le b) :
    (fin x).le b := by
  cases b with
  | nan => cases hy
  | inf neg => exact hy
  | fin b => exact le_fin.mpr ((Finite.val_le_val.mpr h).trans (le_fin.mp hy))

lemma leScaled_of_int_le {x y : Finite} {b : Double} {n : ℕ} (h : x.int ≤ y.int)
    (hy : (fin y).leScaled b n) : (fin x).leScaled b n := by
  cases b with
  | nan => cases hy
  | inf neg => exact hy
  | fin b => exact (Finite.val_le_val.mpr h).trans hy

end Double

end ModelDispatcher.Lib.Binary64
