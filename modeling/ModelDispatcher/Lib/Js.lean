import Mathlib.Data.List.DropRight
import ModelDispatcher.Lib.Floats

/-!
JavaScript strings, as sequences of UTF-16 code units, and the values `JSON.parse` builds.
-/

namespace ModelDispatcher.Lib.Js

open Text Binary64

/-! ### Strings -/

abbrev JsStr := List UInt16

instance : LawfulBEq JsStr := inferInstance

/-- The code units of one code point. -/
def units : PyChar → JsStr
  | .scalar c =>
    if c.toNat < 0x10000 then [c.toNat.toUInt16]
    else
      let v := c.toNat - 0x10000
      [(0xD800 + v / 0x400).toUInt16, (0xDC00 + v % 0x400).toUInt16]
  | .surrogate n => [(0xD800 + n.val).toUInt16]

/-- The text as a JavaScript program sees it. -/
def utf16 (s : PyStr) : JsStr := s.flatMap units

/-- A string literal. -/
def js (s : String) : JsStr := utf16 (py s)

/-- `String(n)` of a natural number. -/
def ofNat (n : ℕ) : JsStr := utf16 ((Nat.toDigits 10 n).map .scalar)

@[simp] lemma utf16_append (s t : PyStr) : utf16 (s ++ t) = utf16 s ++ utf16 t :=
  List.flatMap_append

lemma units_ne_nil (c : PyChar) : units c ≠ [] := by
  cases c with
  | surrogate n => simp [units]
  | scalar c =>
    simp only [units]
    split_ifs <;> simp

/-- Only the empty text has no code units. -/
lemma utf16_eq_nil {s : PyStr} : utf16 s = [] ↔ s = [] := by
  cases s with
  | nil => simp [utf16]
  | cons c s => simp [utf16, units_ne_nil]

example : js "é" = [0xE9] ∧ utf16 [.scalar '😀'] = [0xD83D, 0xDE00] := by decide

/-- The code units `trim` removes: white space and line terminators. -/
def spaces : List UInt16 :=
  [0x9, 0xA, 0xB, 0xC, 0xD, 0x20, 0xA0, 0x1680, 0x2000, 0x2001, 0x2002, 0x2003, 0x2004, 0x2005,
   0x2006, 0x2007, 0x2008, 0x2009, 0x200A, 0x2028, 0x2029, 0x202F, 0x205F, 0x3000, 0xFEFF]

/-- `s.trim()`. -/
def trim (s : JsStr) : JsStr :=
  ((s.dropWhile spaces.contains).reverse.dropWhile spaces.contains).reverse

/-- The text has no blanks around it, and is not empty. -/
def Trimmed (s : JsStr) : Prop := trim s = s ∧ s ≠ []

instance (s : JsStr) : Decidable (Trimmed s) := inferInstanceAs (Decidable (_ ∧ _))

lemma trim_eq (s : JsStr) :
    trim s = (s.dropWhile spaces.contains).rdropWhile spaces.contains := rfl

/-- What is trimmed does not begin with a blank. -/
lemma dropWhile_trim (s : JsStr) : (trim s).dropWhile spaces.contains = trim s := by
  rw [List.dropWhile_eq_self_iff]
  intro hpos
  obtain ⟨rest, hrest⟩ : trim s <+: s.dropWhile spaces.contains := List.rdropWhile_prefix _ _
  have hlen : 0 < (s.dropWhile spaces.contains).length := by
    rw [← hrest, List.length_append]
    omega
  have hhead := List.dropWhile_get_zero_not spaces.contains s hlen
  simpa [← hrest, List.getElem_append_left hpos] using hhead

lemma trim_trim (s : JsStr) : trim (trim s) = trim s := by
  conv_lhs => rw [trim_eq, dropWhile_trim]
  exact List.rdropWhile_idempotent spaces.contains (s.dropWhile spaces.contains)

lemma trimmed_trim {s : JsStr} (h : trim s ≠ []) : Trimmed (trim s) := ⟨trim_trim s, h⟩

/-! ### Numbers -/

/-- `Math.min(x, y)`: NaN if one of them is, and negative zero before zero. -/
def mathMin (x y : Double) : Double :=
  if x = .nan ∨ y = .nan then .nan
  else if y.lt x ∨ (y.isZero ∧ x.isZero ∧ y.isNeg) then y
  else x

/-- `Math.floor(x)`, which keeps the sign of zero. -/
def mathFloor : Double → Double
  | .fin x => if x.units = 0 then .fin x else ofRat ⌊x.val⌋
  | x => x

section

variable {x : Double} {y z : Finite}

@[simp] lemma nan_mathMin : mathMin .nan x = .nan := if_pos (.inl rfl)

@[simp] lemma mathMin_nan : mathMin x .nan = .nan := if_pos (.inr rfl)

lemma mathMin_infinity (h : x ≠ .nan) : mathMin x (.inf false) = x := by
  cases x with
  | nan => exact absurd rfl h
  | inf neg => cases neg <;> rfl
  | fin x => rfl

lemma mathMin_minus_infinity (h : x ≠ .nan) : mathMin x (.inf true) = .inf true := by
  cases x with
  | nan => exact absurd rfl h
  | inf neg => cases neg <;> rfl
  | fin x => rfl

lemma infinity_mathMin : mathMin (.inf false) (.fin y) = .fin y := rfl

lemma minus_infinity_mathMin : mathMin (.inf true) (.fin y) = .inf true := by
  simp [mathMin, Double.lt, Double.isZero]

/-- The lesser of two numbers is one of them. -/
lemma mathMin_fin : ∃ c : Finite, mathMin (.fin y) (.fin z) = .fin c ∧ (c = y ∨ c = z) ∧
    c.val ≤ y.val ∧ c.val ≤ z.val := by
  unfold mathMin
  rw [if_neg (by simp)]
  split_ifs with h
  · refine ⟨z, rfl, .inr rfl, ?_, le_rfl⟩
    rcases h with hlt | ⟨hz, hy, -⟩
    · exact (Double.lt_fin.mp hlt).le
    · have hz' : z.units = 0 := by simpa [Double.isZero] using hz
      have hy' : y.units = 0 := by simpa [Double.isZero] using hy
      simp [Finite.val, Finite.int, hz', hy']
  · exact ⟨y, rfl, .inl rfl, le_rfl, not_lt.mp fun hlt => h (.inl (Double.lt_fin.mpr hlt))⟩

end

lemma mathFloor_fin {z : Finite} (hz : 0 ≤ z.int) :
    ∃ w : Finite, mathFloor (.fin z) = .fin w ∧ 0 ≤ w.int ∧ w.int ≤ z.int := by
  unfold mathFloor
  dsimp only
  split_ifs
  · exact ⟨z, rfl, hz, le_rfl⟩
  · have hval : 0 ≤ z.val := Finite.val_nonneg.mpr hz
    have hfloor : (0 : ℚ) ≤ ⌊z.val⌋ := by exact_mod_cast Int.floor_nonneg.mpr hval
    have hunits : ⌊z.val⌋ * scale ≤ (z.units : ℚ) := by
      have hint : (z.int : ℚ) = z.units := by exact_mod_cast Double.int_eq_units hz
      rw [← hint, ← le_div_iff₀ Finite.scale_pos']
      exact Int.floor_le z.val
    have hround := roundUnits_mono (by positivity) hunits
    rw [roundUnits_of_isDouble z.isDouble] at hround
    rw [ofRat_eq_rounded hfloor, rounded, dif_pos (hround.trans_lt z.lt_overflow)]
    refine ⟨_, rfl, ?_⟩
    rw [Double.int_eq_units hz]
    simpa [Finite.int] using hround

/-! ### Values -/

inductive JsValue
  | undefined
  | null
  | boolean (b : Bool)
  | number (x : Double)
  | string (s : JsStr)
  | array (items : List JsValue)
  | object (fields : List (JsStr × JsValue))

namespace JsValue

/-- `value[key]` of an object or an array, and `undefined` of anything else, for a key that is no
index of an array and no name the prototype has. -/
def property (key : JsStr) : JsValue → JsValue
  | .object fields => ((fields.find? (·.1 = key)).map Prod.snd).getD .undefined
  | _ => .undefined

/-- `value[0]`. -/
def first : JsValue → JsValue
  | .array items => items.headD .undefined
  | .string (c :: _) => .string [c]
  | .object fields => (JsValue.object fields).property (js "0")
  | _ => .undefined

def truthy : JsValue → Bool
  | .undefined | .null => false
  | .boolean b => b
  | .number x => x ≠ .nan && !x.isZero
  | .string s => s ≠ []
  | .array _ | .object _ => true

def isNullish : JsValue → Bool
  | .undefined | .null => true
  | _ => false

def isUndefined : JsValue → Bool
  | .undefined => true
  | _ => false

/-- The string that a value with `typeof value === "string"` is. -/
def asString : JsValue → Option JsStr
  | .string s => some s
  | _ => none

/-- The items of an array. -/
def elements : JsValue → List JsValue
  | .array items => items
  | _ => []

end JsValue

end ModelDispatcher.Lib.Js
