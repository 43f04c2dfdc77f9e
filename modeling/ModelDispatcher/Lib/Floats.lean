import Mathlib.Data.List.TakeWhile
import ModelDispatcher.Lib.Binary64
import ModelDispatcher.Lib.Text

/-!
Python floats: what the built-in functions do with doubles, which of them a sleep accepts, and
which double a text spells.

Conversions report the exceptions Python raises.
-/

namespace ModelDispatcher.Lib

namespace Binary64.Double

/-- `min(x, y)`: the first argument unless the second is smaller. -/
def min (x y : Double) : Double := if y.lt x then y else x

@[simp] lemma nan_min (y : Double) : nan.min y = nan := by simp [min]

lemma min_ne_nan {x y : Double} (hx : x ≠ nan) (hy : y ≠ nan) : x.min y ≠ nan := by
  unfold min
  split_ifs
  · exact hy
  · exact hx

lemma val_le_of_min {x : Double} {cap y : Finite} (h : x.min (fin cap) = fin y) :
    y.val ≤ cap.val := by
  unfold min at h
  split_ifs at h with hlt
  · cases h
    exact le_rfl
  · rw [h, lt_fin] at hlt
    exact not_lt.mp hlt

/-- `2.0 ** n` for a natural exponent, with `none` for `OverflowError`. -/
def twoPow (n : ℕ) : Option Double := if n < 1024 then some (ofRat (2 ^ n)) else none

end Binary64.Double

namespace Floats

open Text Binary64

abbrev PyFloat := Double

/-- `float(n)` of an integer operand, with `none` for `OverflowError`. -/
def ofInt (n : ℤ) : Option PyFloat :=
  if |(n : ℚ)| < overflowBound then some (ofRat n) else none

/-! ### Sleeping -/

/-- What `time.sleep` does with a duration. -/
inductive SleepCheck
  | sleeps
  | valueError
  | overflowError
  deriving DecidableEq

/-- A number of nanoseconds, rounded away from zero, against a signed 64-bit clock. -/
def clockCheck : PyFloat → SleepCheck
  | .fin ns =>
    let ticks := if ns.neg then -⌈(ns.units / scale : ℚ)⌉ else ⌈(ns.units / scale : ℚ)⌉
    if 2 ^ 63 ≤ ticks ∨ ticks < -2 ^ 63 then .overflowError
    else if ticks < 0 then .valueError
    else .sleeps
  | _ => .overflowError

/-- NaN and negative durations are refused. -/
def sleepCheck : PyFloat → SleepCheck
  | .nan => .valueError
  | .inf _ => .overflowError
  | .fin x => clockCheck ((Double.fin x).mul (ofRat (10 ^ 9)))

/-- The longest duration that can be slept, in units. -/
def sleepUnits : ℕ := 4835703278458516 * 2 ^ (unitExponent - 19)

lemma scale_eq : scale = 2 ^ 19 * 2 ^ (unitExponent - 19) := by
  rw [← pow_add, scale, unitExponent]

/-- The largest double under the end of the clock is `2 ^ 10` below it. -/
lemma ceil_lt_iff {u : ℕ} (hu : IsDouble u) :
    ⌈(u / scale : ℚ)⌉ < 2 ^ 63 ↔ u ≤ (2 ^ 53 - 1) * 2 ^ (10 + unitExponent) := by
  have hnext := hu.succ_le (m := 2 ^ 53 - 1) (k := 10 + unitExponent) (.inr (by decide))
  have hpow : 2 ^ (10 + unitExponent) = 2 ^ 10 * scale := pow_add 2 10 unitExponent
  have hpos := scale_pos
  rw [hpow] at hnext ⊢
  rw [← Int.le_sub_one_iff, Int.ceil_le, div_le_iff₀ Finite.scale_pos']
  generalize scale = c at *
  have hcast : (((2 ^ 63 - 1 : ℤ) : ℚ) * c) = ((2 ^ 63 - 1) * c : ℕ) := by
    push_cast
    norm_num
  rw [hcast, Nat.cast_le]
  omega

/-- The durations whose nanoseconds are rounded under the end of the clock. -/
lemma roundUnits_nano_le_iff {n : ℕ} (hn : IsDouble n) :
    roundUnits (n * 10 ^ 9) ≤ (2 ^ 53 - 1) * 2 ^ (10 + unitExponent) ↔ n ≤ sleepUnits := by
  have hgap := hn.succ_le (m := 4835703278458516) (k := unitExponent - 19) (.inr (by decide))
  have hpow : 2 ^ (10 + unitExponent) = 2 ^ 29 * 2 ^ (unitExponent - 19) := by
    rw [← pow_add, unitExponent]
  have hodd : ¬ Even (2 ^ 53 - 1) := by decide
  rw [roundUnits_le_iff (by positivity) (by decide) (.inr (by decide)), or_iff_left (hodd ·.2)]
  have hpow' : (2 : ℚ) ^ (10 + unitExponent) = (2 ^ 29 * 2 ^ (unitExponent - 19) : ℕ) := by
    rw [← hpow, Nat.cast_pow, Nat.cast_ofNat]
  have hpos : 0 < 2 ^ (unitExponent - 19) := pow_pos two_pos _
  unfold sleepUnits
  rw [hpow']
  generalize 2 ^ (unitExponent - 19) = c at *
  have hcast : (n : ℚ) * 10 ^ 9 < ((2 ^ 53 - 1 : ℕ) + 1 / 2) * (2 ^ 29 * c : ℕ) ↔
      n * 10 ^ 9 < (2 ^ 54 - 1) * (2 ^ 28 * c) := by
    rw [← Nat.cast_lt (α := ℚ)]
    push_cast
    constructor <;> intro h <;> linarith
  rw [hcast]
  omega

lemma sleepCheck_fin (x : Finite) : sleepCheck (.fin x) =
    clockCheck (rounded x.neg (x.units * 10 ^ 9)
      (Rat.mul_nonneg Rat.natCast_nonneg (by decide))) := by
  have hnano : ofRat (10 ^ 9) = .fin (Finite.ofInt (10 ^ 9) (by decide)) :=
    ofRat_eq _ _ (by norm_num)
  have hunits : (x.units : ℚ) * (10 ^ 9 : ℤ).natAbs = x.units * 10 ^ 9 := by norm_num
  have hneg : decide ((10 ^ 9 : ℤ) < 0) = false := by decide
  rw [sleepCheck, hnano, Double.mul_ofInt]
  simp only [hunits, hneg, Bool.bne_false]

lemma clockCheck_fin (ns : Finite) : clockCheck (.fin ns) = .sleeps ↔
    if ns.neg then ns.units = 0 else ns.units ≤ (2 ^ 53 - 1) * 2 ^ (10 + unitExponent) := by
  have hunits : (0 : ℚ) ≤ ns.units / scale := by positivity
  have hceil : 0 ≤ ⌈(ns.units / scale : ℚ)⌉ := Int.ceil_nonneg hunits
  have hzero : ⌈(ns.units / scale : ℚ)⌉ ≤ 0 ↔ ns.units = 0 := by
    rw [Int.ceil_le, Int.cast_zero, div_le_iff₀ Finite.scale_pos', zero_mul, Nat.cast_nonpos]
  rw [clockCheck, ← ceil_lt_iff ns.isDouble, ← hzero]
  generalize ⌈(ns.units / scale : ℚ)⌉ = ticks at *
  cases ns.neg with
  | true =>
    simp only [if_true]
    split_ifs <;> simp <;> omega
  | false =>
    simp only [Bool.false_eq_true, if_false]
    split_ifs <;> simp <;> omega

lemma sleeps_iff_units {x : Finite} :
    sleepCheck (.fin x) = .sleeps ↔ 0 ≤ x.int ∧ x.units ≤ sleepUnits := by
  have hv : (0 : ℚ) ≤ x.units * 10 ^ 9 := by positivity
  have hlong := roundUnits_nano_le_iff x.isDouble
  have hzero : roundUnits (x.units * 10 ^ 9) = 0 ↔ x.units = 0 := by
    rw [roundUnits_eq_zero_iff hv]
    constructor
    · intro h
      have hlt : (x.units : ℚ) < 1 := by linarith
      exact Nat.lt_one_iff.mp (by exact_mod_cast hlt)
    · rintro h
      rw [h]
      norm_num
  have hint : 0 ≤ x.int ↔ (x.neg → x.units = 0) := by
    unfold Finite.int
    cases x.neg <;> simp
  rw [sleepCheck_fin, hint]
  unfold rounded
  split_ifs with hfin
  · rw [clockCheck_fin]
    cases x.neg with
    | true =>
      simp only [if_true, hzero, forall_const, iff_self_and]
      rintro h
      rw [h]
      exact Nat.zero_le _
    | false => simpa using hlong
  · have hbig : ¬ x.units ≤ sleepUnits := by
      rw [← hlong, not_le]
      calc (2 ^ 53 - 1) * 2 ^ (10 + unitExponent) = (2 ^ 53 - 1) * 2 ^ 10 * scale := by
            rw [pow_add, mul_assoc, scale]
        _ < 2 ^ 63 * scale := Nat.mul_lt_mul_of_pos_right (by decide) scale_pos
        _ ≤ overflowUnits := two_pow_mul_scale_le (by decide)
        _ ≤ roundUnits (x.units * 10 ^ 9) := not_lt.mp hfin
    simp [clockCheck, hbig]

/-! ### Numbers that can be slept -/

/-- Nothing negative can be slept, and no NaN, but everything else up to a short delay. -/
lemma sleeps_fin_iff {x : Finite} (h : x.val ≤ 120) :
    sleepCheck (.fin x) = .sleeps ↔ 0 ≤ x.int := by
  rw [sleeps_iff_units]
  refine and_iff_left_of_imp fun hnonneg => ?_
  have hunits : (x.units : ℤ) ≤ 120 * scale := by
    rw [← Finite.natAbs_int, Int.natAbs_of_nonneg hnonneg]
    rw [Finite.val, div_le_iff₀ Finite.scale_pos'] at h
    exact_mod_cast h
  rw [scale_eq] at hunits
  unfold sleepUnits
  generalize 2 ^ (unitExponent - 19) = c at *
  omega

lemma sleeps_min_iff {x : PyFloat} {cap : Finite} (h0 : 0 ≤ cap.int) (h : cap.val ≤ 120) :
    sleepCheck (x.min (.fin cap)) = .sleeps ↔ x ≠ .nan ∧ ¬ x.Negative := by
  have hcap : sleepCheck (.fin cap) = .sleeps := (sleeps_fin_iff h).mpr h0
  unfold Double.min
  cases x with
  | nan => simp [Double.lt, sleepCheck]
  | inf neg =>
    cases neg with
    | true => exact iff_of_false (by simp [Double.lt, sleepCheck]) (by simp)
    | false => simpa [Double.lt] using hcap
  | fin x =>
    rw [Double.negative_fin, not_lt]
    split_ifs with hlt
    · have hx := Finite.val_lt_val.mp (Double.lt_fin.mp hlt)
      simp [hcap, h0.trans hx.le]
    · have hx := (not_lt.mp fun h => hlt (Double.lt_fin.mpr h)).trans h
      simp [sleeps_fin_iff hx]

/-- A delay that is cut at a few seconds can be slept unless it is NaN or negative. -/
lemma sleeps_min_short {x : PyFloat} {c : ℚ} (n : ℕ) (hn : n ≤ 120) (hc : c = n) :
    sleepCheck (x.min (ofRat c)) = .sleeps ↔ x ≠ .nan ∧ ¬ x.Negative := by
  have hint : (n : ℤ).natAbs ≤ 2 ^ 53 := by omega
  rw [ofRat_eq n hint (by exact_mod_cast hc)]
  refine sleeps_min_iff ?_ ?_
  · rw [Finite.int_ofInt]
    positivity
  · rw [Finite.val_ofInt]
    exact_mod_cast hn

/-! ### Parsing -/

/-- Decimal digits and white space become ASCII; of the other code points only the ASCII ones are
kept. -/
def toAscii (c : PyChar) : Char :=
  match c with
  | .surrogate _ => '?'
  | .scalar ch =>
    if ch.toNat < 127 then ch
    else if c.isSpace then ' '
    else match c.digitVal with
      | some d => Nat.digitChar d
      | none => '?'

/-- White space of the C locale. -/
def isBlank (c : Char) : Bool := c = ' ' || ('\t' ≤ c && c ≤ '\r')

/-- The characters of a literal, without the white space around it. -/
def literal (s : PyStr) : List Char :=
  (((s.map toAscii).dropWhile isBlank).reverse.dropWhile isBlank).reverse

/-- Removes the underscores that stand between two digits; `none` when one stands elsewhere.
The first argument is whether the previous character was a digit. -/
def dropUnderscores : Bool → List Char → Option (List Char)
  | _, [] => some []
  | prev, '_' :: cs =>
    match cs with
    | c :: _ => if prev && c.isDigit then dropUnderscores false cs else none
    | [] => none
  | _, c :: cs => (dropUnderscores c.isDigit cs).map (c :: ·)

def digitsVal (ds : List Char) : ℕ := ds.foldl (fun n c => 10 * n + (c.toNat - '0'.toNat)) 0

/-- The exponent part: `[eE][+-]?digits`, or nothing. -/
def parseExponent : List Char → Option ℤ
  | [] => some 0
  | e :: cs =>
    if e = 'e' ∨ e = 'E' then
      let (neg, ds) := match cs with
        | '-' :: ds => (true, ds)
        | '+' :: ds => (false, ds)
        | ds => (false, ds)
      if ds ≠ [] ∧ ds.all Char.isDigit then
        some (if neg then -(digitsVal ds : ℤ) else digitsVal ds)
      else none
    else none

/-- An unsigned decimal literal: digits with at most one point, then an exponent. -/
def parseDecimal (cs : List Char) : Option ℚ :=
  let whole := cs.takeWhile Char.isDigit
  let rest := cs.dropWhile Char.isDigit
  let (frac, tail) := match rest with
    | '.' :: r => (r.takeWhile Char.isDigit, r.dropWhile Char.isDigit)
    | r => ([], r)
  if whole ++ frac = [] then none
  else (parseExponent tail).map fun (e : ℤ) =>
    (digitsVal (whole ++ frac) : ℚ) * 10 ^ (e - frac.length)

/-- A literal without its sign. -/
def parseUnsigned (neg : Bool) (cs : List Char) : Option PyFloat :=
  let lower := cs.map Char.toLower
  if lower = "inf".toList ∨ lower = "infinity".toList then some (.inf neg)
  else if lower = "nan".toList then some .nan
  else (dropUnderscores false cs).bind parseDecimal |>.map (ofMagnitude neg)

/-- `float(s)`, with `none` for `ValueError`. -/
def parse (s : PyStr) : Option PyFloat :=
  match literal s with
  | '-' :: cs => parseUnsigned true cs
  | '+' :: cs => parseUnsigned false cs
  | cs => parseUnsigned false cs

lemma isDigit_toAscii {c : PyChar} (h : c.isDigit) : (toAscii c).isDigit := by
  obtain ⟨d, hd⟩ := Option.isSome_iff_exists.mp h
  obtain ⟨hlt, z, hz, hord⟩ := PyChar.digitVal_spec hd
  have hzeros : ∀ z ∈ digitZeros, (z = '0'.toNat ∨ 127 ≤ z) ∧ (z + 10 ≤ 0xD800 ∨ 0xE000 ≤ z) := by
    decide
  cases c with
  | surrogate n =>
    have hz' := (hzeros z hz).2
    change 0xD800 + n.val = z + d at hord
    omega
  | scalar ch =>
    unfold toAscii
    dsimp only
    split_ifs with hascii hspace
    · rcases (hzeros z hz).1 with rfl | hlarge
      · change ch.toNat = '0'.toNat + d at hord
        have hnine : '9'.toNat = '0'.toNat + 9 := rfl
        exact Char.isDigit_iff_toNat.mpr (by omega)
      · change ch.toNat = z + d at hord
        omega
    · rw [PyChar.not_isSpace_of_isDigit h] at hspace
      cases hspace
    · rw [hd, Nat.isDigit_digitChar, decide_eq_true_eq]
      exact hlt

lemma dropUnderscores_eq_self {cs : List Char} (h : '_' ∉ cs) (prev : Bool) :
    dropUnderscores prev cs = some cs := by
  induction cs generalizing prev with
  | nil => rfl
  | cons c cs ih =>
    obtain ⟨hc, hcs⟩ := not_or.mp (mt List.mem_cons.mpr h)
    rw [dropUnderscores, ih hcs]
    · rfl
    · exact Ne.symm hc

lemma dropUnderscores_digits {cs : List Char} (h : ∀ c ∈ cs, c.isDigit) (prev : Bool) :
    dropUnderscores prev cs = some cs :=
  dropUnderscores_eq_self (fun hc => absurd (h '_' hc) (by decide)) prev

lemma parseDecimal_digits {cs : List Char} (hne : cs ≠ []) (h : ∀ c ∈ cs, c.isDigit) :
    parseDecimal cs = some (digitsVal cs : ℚ) := by
  have hwhole : cs.takeWhile Char.isDigit = cs := List.takeWhile_eq_self_iff.mpr h
  have hrest : cs.dropWhile Char.isDigit = [] := List.dropWhile_eq_nil_iff.mpr h
  simp [parseDecimal, hwhole, hrest, hne, parseExponent]

/-! ### What a text spells -/

/-- A literal without its sign. -/
def unsigned : List Char → List Char
  | '-' :: cs => cs
  | '+' :: cs => cs
  | cs => cs

def hasMinus (s : PyStr) : Bool := (literal s).head? = some '-'

/-- An infinity or NaN, of either sign. -/
def IsSpecial (s : PyStr) : Prop :=
  (unsigned (literal s)).map Char.toLower ∈ ["inf".toList, "infinity".toList, "nan".toList]

/-- The number that a text spells in decimal notation, without its sign. -/
def magnitude (s : PyStr) : Option ℚ :=
  (dropUnderscores false (unsigned (literal s))).bind parseDecimal

/-- The number that a text spells in decimal notation. -/
def number (s : PyStr) : Option ℚ := (magnitude s).map fun q => if hasMinus s then -q else q

lemma parse_eq_parseUnsigned (s : PyStr) :
    parse s = parseUnsigned (hasMinus s) (unsigned (literal s)) := by
  unfold parse unsigned hasMinus
  split
  · rename_i cs hcs
    rw [hcs]
    rfl
  · rename_i cs hcs
    rw [hcs]
    rfl
  · rename_i hminus hplus
    cases hcs : literal s with
    | nil => rfl
    | cons c cs =>
      have hc : c ≠ '-' := by
        rintro rfl
        exact hminus cs hcs
      simp [hc]

lemma parse_of_not_isSpecial {s : PyStr} (h : ¬ IsSpecial s) :
    parse s = (magnitude s).map (ofMagnitude (hasMinus s)) := by
  rw [parse_eq_parseUnsigned, parseUnsigned, magnitude]
  simp only [IsSpecial, List.mem_cons, List.not_mem_nil, or_false, not_or] at h
  obtain ⟨hinf, hinfinity, hnan⟩ := h
  rw [if_neg (not_or.mpr ⟨hinf, hinfinity⟩), if_neg hnan]

lemma parseDecimal_nonneg {cs : List Char} {q : ℚ} (h : parseDecimal cs = some q) : 0 ≤ q := by
  unfold parseDecimal at h
  dsimp only at h
  split_ifs at h
  obtain ⟨e, -, rfl⟩ := Option.map_eq_some_iff.mp h
  exact mul_nonneg (Nat.cast_nonneg _) (zpow_nonneg (by norm_num) _)

lemma magnitude_nonneg {s : PyStr} {q : ℚ} (h : magnitude s = some q) : 0 ≤ q := by
  obtain ⟨cs, -, hdecimal⟩ := Option.bind_eq_some_iff.mp h
  exact parseDecimal_nonneg hdecimal

/-! ### Amounts -/

/-- The characters of an unsigned decimal without an exponent. -/
def IsAmount (s : PyStr) : Prop := ∀ c ∈ s, c.isDigit ∨ c = .scalar '.'

lemma not_isBlank {c : Char} (h : c.isDigit ∨ c = '.') : isBlank c = false := by
  rcases h with h | rfl
  · obtain ⟨hlow, hhigh⟩ := Char.isDigit_iff_toNat.mp h
    have hall : ∀ n < 58, 48 ≤ n → isBlank (Char.ofNat n) = false := by decide
    have hc := hall c.toNat (Nat.lt_succ_of_le hhigh) hlow
    rwa [Char.ofNat_toNat] at hc
  · decide

/-- There is nothing to strip around an amount. -/
lemma literal_of_isAmount {s : PyStr} (h : IsAmount s) :
    literal s = s.map toAscii ∧ ∀ c ∈ literal s, c.isDigit ∨ c = '.' := by
  have hchars : ∀ c ∈ s.map toAscii, c.isDigit ∨ c = '.' := by
    intro c hc
    obtain ⟨x, hx, rfl⟩ := List.mem_map.mp hc
    rcases h x hx with hdigit | rfl
    · exact .inl (isDigit_toAscii hdigit)
    · exact .inr (by decide)
  have hdrop : ∀ cs : List Char, (∀ c ∈ cs, c.isDigit ∨ c = '.') → cs.dropWhile isBlank = cs := by
    intro cs hcs
    cases cs with
    | nil => rfl
    | cons c cs =>
      exact List.dropWhile_cons_of_neg (by simp [not_isBlank (hcs c List.mem_cons_self)])
  have hliteral : literal s = s.map toAscii := by
    unfold literal
    rw [hdrop _ hchars, hdrop _ fun c hc => hchars c (List.mem_reverse.mp hc), List.reverse_reverse]
  exact ⟨hliteral, hliteral ▸ hchars⟩

lemma unsigned_eq_self {cs : List Char} (h : ∀ c ∈ cs, c.isDigit ∨ c = '.') :
    unsigned cs = cs := by
  unfold unsigned
  split
  · exact absurd (h '-' (by simp)) (by decide)
  · exact absurd (h '+' (by simp)) (by decide)
  · rfl

lemma IsAmount.not_isSpecial {s : PyStr} (h : IsAmount s) : ¬ IsSpecial s := by
  have hchars := (literal_of_isAmount h).2
  rw [IsSpecial, unsigned_eq_self hchars]
  have hlower : (literal s).map Char.toLower = literal s := by
    refine (List.map_congr_left fun c hc => ?_).trans (List.map_id _)
    rcases hchars c hc with hdigit | rfl
    · have hle : c.val ≤ '9'.val := by
        simp only [Char.isDigit, Bool.and_eq_true, decide_eq_true_eq] at hdigit
        exact hdigit.2
      have hupper : ¬ (c.val ≥ 'A'.val ∧ c.val ≤ 'Z'.val) := fun h =>
        absurd (UInt32.le_trans h.1 hle) (by decide)
      exact dif_neg hupper
    · rfl
  rw [hlower]
  intro hspecial
  have hletter : 'n' ∈ literal s := by
    simp only [List.mem_cons, List.not_mem_nil, or_false] at hspecial
    rcases hspecial with hcs | hcs | hcs <;> rw [hcs] <;> decide
  exact absurd (hchars 'n' hletter) (by decide)

/-- An amount has no sign. -/
lemma IsAmount.hasMinus {s : PyStr} (h : IsAmount s) : hasMinus s = false := by
  refine decide_eq_false fun hhead => ?_
  exact absurd ((literal_of_isAmount h).2 '-' (List.mem_of_mem_head? hhead)) (by decide)

lemma IsAmount.number {s : PyStr} (h : IsAmount s) : number s = magnitude s := by
  unfold Floats.number
  simp [h.hasMinus]

/-- An amount is read as the double nearest to its number. -/
lemma IsAmount.parse {s : PyStr} (h : IsAmount s) :
    parse s = (Floats.number s).map ofRat := by
  rw [parse_of_not_isSpecial h.not_isSpecial, h.number, h.hasMinus]
  cases hq : magnitude s with
  | none => rw [Option.map_none, Option.map_none]
  | some q =>
    rw [Option.map_some, Option.map_some, ofRat_of_nonneg (magnitude_nonneg hq)]

/-- `float` accepts every run of digits. -/
lemma exists_number_of_digits {s : PyStr} (hne : s ≠ []) (h : ∀ c ∈ s, c.isDigit) :
    ∃ n : ℕ, number s = some (n : ℚ) := by
  have hamount : IsAmount s := fun c hc => .inl (h c hc)
  obtain ⟨hliteral, hchars⟩ := literal_of_isAmount hamount
  have hdigits : ∀ c ∈ literal s, c.isDigit := by
    intro c hc
    rw [hliteral] at hc
    obtain ⟨x, hx, rfl⟩ := List.mem_map.mp hc
    exact isDigit_toAscii (h x hx)
  have hne' : literal s ≠ [] := by simpa [hliteral] using hne
  refine ⟨digitsVal (literal s), ?_⟩
  rw [hamount.number, magnitude, unsigned_eq_self hchars, dropUnderscores_digits hdigits,
    Option.bind_some, parseDecimal_digits hne' hdigits]

/-! ### Decimal notation -/

lemma digitsVal_append (cs ds : List Char) :
    digitsVal (cs ++ ds) = digitsVal cs * 10 ^ ds.length + digitsVal ds := by
  have happend : digitsVal (cs ++ ds) = Nat.ofDigitChars 10 ds (digitsVal cs) :=
    Nat.ofDigitChars_append 0
  rw [happend, Nat.ofDigitChars_eq_ofDigitChars_zero, Nat.mul_comm]
  rfl

lemma digitsVal_toDigits (n : ℕ) : digitsVal (Nat.toDigits 10 n) = n :=
  Nat.ofDigitChars_ten_toDigits

/-- A digit in ASCII is read as itself. -/
lemma toAscii_of_isDigit {c : Char} (h : c.isDigit) :
    (PyChar.scalar c).isDigit ∧ toAscii (.scalar c) = c := by
  obtain ⟨hlow, hhigh⟩ := Char.isDigit_iff_toNat.mp h
  have hall : ∀ n < 58, 48 ≤ n → (PyChar.scalar (Char.ofNat n)).isDigit ∧
      toAscii (.scalar (Char.ofNat n)) = Char.ofNat n := by decide
  have hc := hall c.toNat (Nat.lt_succ_of_le hhigh) hlow
  rwa [Char.ofNat_toNat] at hc

/-- A decimal number as it is written: digits, and a fraction that may be left out. -/
structure Decimal where
  whole : List Char
  fraction : Option (List Char)
  whole_ne_nil : whole ≠ []
  isDigit_whole : ∀ c ∈ whole, c.isDigit
  isDigit_fraction : ∀ c ∈ fraction.getD [], c.isDigit

namespace Decimal

def chars (d : Decimal) : List Char := d.whole ++ d.fraction.elim [] ('.' :: ·)

def text (d : Decimal) : PyStr := d.chars.map .scalar

/-- The whole part, and the fraction over the power of ten of its length. -/
def value (d : Decimal) : ℚ :=
  digitsVal d.whole + digitsVal (d.fraction.getD []) / 10 ^ (d.fraction.getD []).length

variable (d : Decimal)

lemma mem_chars {c : Char} (hc : c ∈ d.chars) : c.isDigit ∨ c = '.' := by
  rcases List.mem_append.mp hc with hc | hc
  · exact .inl (d.isDigit_whole c hc)
  · cases hfraction : d.fraction with
    | none =>
      rw [hfraction] at hc
      cases hc
    | some fraction =>
      rw [hfraction] at hc
      refine (List.mem_cons.mp hc).symm.imp (fun hc => ?_) id
      exact d.isDigit_fraction c (by rwa [hfraction])

lemma text_ne_nil : d.text ≠ [] := fun h =>
  d.whole_ne_nil (List.append_eq_nil_iff.mp (List.map_eq_nil_iff.mp h)).1

lemma isAmount_text : IsAmount d.text := by
  intro x hx
  obtain ⟨c, hc, rfl⟩ := List.mem_map.mp hx
  rcases d.mem_chars hc with hdigit | rfl
  · exact .inl (toAscii_of_isDigit hdigit).1
  · exact .inr rfl

lemma literal_text : literal d.text = d.chars := by
  rw [(literal_of_isAmount d.isAmount_text).1, text, List.map_map]
  refine (List.map_congr_left fun c hc => ?_).trans (List.map_id _)
  rcases d.mem_chars hc with hdigit | rfl
  · exact (toAscii_of_isDigit hdigit).2
  · decide

lemma value_nonneg : 0 ≤ d.value :=
  add_nonneg (Nat.cast_nonneg _) (div_nonneg (Nat.cast_nonneg _) (pow_nonneg (by norm_num) _))

lemma value_eq : d.value = digitsVal (d.whole ++ d.fraction.getD []) *
    10 ^ (0 - ((d.fraction.getD []).length : ℤ)) := by
  have hpow : (10 : ℚ) ^ (d.fraction.getD []).length ≠ 0 := pow_ne_zero _ (by norm_num)
  rw [digitsVal_append, zero_sub, zpow_neg, zpow_natCast, value, Nat.cast_add, Nat.cast_mul,
    Nat.cast_pow, Nat.cast_ofNat, add_mul, mul_inv_cancel_right₀ hpow, div_eq_mul_inv]

lemma parseDecimal_chars : parseDecimal d.chars = some d.value := by
  obtain ⟨whole, fraction, hne, hwhole, hfraction⟩ := d
  rw [value_eq]
  unfold parseDecimal chars
  cases fraction with
  | none =>
    have htake : whole.takeWhile Char.isDigit = whole := List.takeWhile_eq_self_iff.mpr hwhole
    have hdrop : whole.dropWhile Char.isDigit = [] := List.dropWhile_eq_nil_iff.mpr hwhole
    rw [Option.elim_none, List.append_nil]
    simp [htake, hdrop, hne, parseExponent]
  | some fraction =>
    have hdot : ¬ '.'.isDigit := by decide
    have htake : (whole ++ '.' :: fraction).takeWhile Char.isDigit = whole := by
      rw [List.takeWhile_append_of_pos hwhole, List.takeWhile_cons_of_neg hdot, List.append_nil]
    have hdrop : (whole ++ '.' :: fraction).dropWhile Char.isDigit = '.' :: fraction := by
      rw [List.dropWhile_append_of_pos hwhole, List.dropWhile_cons_of_neg hdot]
    have htake' : fraction.takeWhile Char.isDigit = fraction :=
      List.takeWhile_eq_self_iff.mpr hfraction
    have hdrop' : fraction.dropWhile Char.isDigit = [] := List.dropWhile_eq_nil_iff.mpr hfraction
    simp [htake, hdrop, htake', hdrop', hne, parseExponent]

/-- The text of a decimal number is read as its value. -/
lemma number_text : number d.text = some d.value := by
  have hunsigned : unsigned d.chars = d.chars := unsigned_eq_self fun c => @mem_chars d c
  have hunderscore : '_' ∉ d.chars := fun h => absurd (d.mem_chars h) (by decide)
  rw [d.isAmount_text.number, magnitude, literal_text, hunsigned,
    dropUnderscores_eq_self hunderscore, Option.bind_some, parseDecimal_chars]

/-- A natural number, without leading zeros. -/
def ofNat (n : ℕ) : Decimal where
  whole := Nat.toDigits 10 n
  fraction := none
  whole_ne_nil := Nat.toDigits_ne_nil
  isDigit_whole := fun _ hc => Nat.isDigit_of_mem_toDigits (by decide) (by decide) hc
  isDigit_fraction := by simp

@[simp] lemma value_ofNat (n : ℕ) : (ofNat n).value = n := by
  change (digitsVal (Nat.toDigits 10 n) : ℚ) + (0 : ℕ) / 10 ^ 0 = n
  rw [digitsVal_toDigits, Nat.cast_zero, zero_div, add_zero]

end Decimal

example : parse (py " 1_000 ") = some (ofRat 1000) := by decide +kernel
example : parse (py "1.2.3") = none := by decide
example : (parse (py "-1e-400")).map sleepCheck = some .sleeps := by decide +kernel

end Floats

end ModelDispatcher.Lib
