import Mathlib.Data.List.Chain
import ModelDispatcher.Lib.Js

/-!
The code points of a JavaScript string: pairs of surrogates are joined, lone ones are kept.
-/

namespace ModelDispatcher.Lib.CodePoints

open Text Js

/-! ### Surrogates -/

/-- The first half of a pair. -/
def High (n : ℕ) : Prop := 0xD800 ≤ n ∧ n < 0xDC00

/-- The second half of a pair. -/
def Low (n : ℕ) : Prop := 0xDC00 ≤ n ∧ n < 0xE000

instance : DecidablePred High := fun _ => inferInstanceAs (Decidable (_ ∧ _))
instance : DecidablePred Low := fun _ => inferInstanceAs (Decidable (_ ∧ _))

/-- The code point with a number. -/
def point (n : ℕ) : PyChar :=
  if h : 0xD800 ≤ n ∧ n < 0xE000 then .surrogate ⟨n - 0xD800, by omega⟩
  else .scalar (Char.ofNat n)

/-- The code point of a pair. -/
def joined (high low : ℕ) : PyChar :=
  point (0x10000 + (high - 0xD800) * 0x400 + (low - 0xDC00))

lemma point_ord (c : PyChar) : point c.ord = c := by
  cases c with
  | scalar c =>
    have hvalid : ¬ (0xD800 ≤ c.toNat ∧ c.toNat < 0xE000) := by
      rcases c.valid with h | h
      · exact fun h' => absurd (show c.toNat < 0xD800 from h) (by omega)
      · exact fun h' => absurd (show 0xDFFF < c.toNat from h.1) (by omega)
    rw [PyChar.ord, point, dif_neg hvalid, Char.ofNat_toNat]
  | surrogate n =>
    have hn := n.isLt
    rw [PyChar.ord, point, dif_pos (by omega)]
    exact congrArg PyChar.surrogate (Fin.ext (by simp))

lemma ord_lt (c : PyChar) : c.ord < 0x110000 := by
  cases c with
  | scalar c =>
    rcases c.valid with h | h
    · exact (show c.toNat < 0xD800 from h).trans (by decide)
    · exact h.2
  | surrogate n =>
    have hn := n.isLt
    simp only [PyChar.ord]
    omega

lemma isScalar_iff (c : PyChar) : c.isScalar ↔ ¬ High c.ord ∧ ¬ Low c.ord := by
  cases c with
  | scalar c =>
    have hord := point_ord (.scalar c)
    have hnot : ¬ (0xD800 ≤ c.toNat ∧ c.toNat < 0xE000) := by
      intro h
      rw [PyChar.ord, point, dif_pos h] at hord
      cases hord
    simp only [PyChar.isScalar, PyChar.ord, High, Low, true_iff]
    omega
  | surrogate n =>
    have hn := n.isLt
    simp only [PyChar.isScalar, PyChar.ord, High, Low, Bool.false_eq_true, false_iff]
    omega

lemma ord_point {n : ℕ} (h : n < 0x110000) : (point n).ord = n := by
  unfold point
  split_ifs with hs
  · simp only [PyChar.ord]
    omega
  · have hvalid : n.isValidChar := by
      unfold Nat.isValidChar
      omega
    rw [PyChar.ord, Char.ofNat, dif_pos hvalid]
    rfl

lemma ord_joined {high low : ℕ} (hh : High high) (hl : Low low) :
    (joined high low).ord = 0x10000 + (high - 0xD800) * 0x400 + (low - 0xDC00) := by
  obtain ⟨hh, hh'⟩ := hh
  obtain ⟨hl, hl'⟩ := hl
  exact ord_point (by omega)

/-! ### Code units and code points -/

def ords (s : PyStr) : List ℕ := s.map PyChar.ord

@[simp] lemma ords_append (s t : PyStr) : ords (s ++ t) = ords s ++ ords t := List.map_append

/-- The code points of a string. -/
def codePoints : JsStr → PyStr
  | [] => []
  | [u] => [point u.toNat]
  | u :: v :: rest =>
    if High u.toNat ∧ Low v.toNat then joined u.toNat v.toNat :: codePoints rest
    else point u.toNat :: codePoints (v :: rest)

example : codePoints [0xD83D, 0xDE00, 0xD83D] = [.scalar '😀', .surrogate 0x3D] := by decide

/-- The units of a code point, by its number. -/
lemma units_eq (c : PyChar) : units c =
    if c.ord < 0x10000 then [c.ord.toUInt16]
    else [(0xD800 + (c.ord - 0x10000) / 0x400).toUInt16,
      (0xDC00 + (c.ord - 0x10000) % 0x400).toUInt16] := by
  cases c with
  | scalar c => rfl
  | surrogate n =>
    have hn := n.isLt
    rw [PyChar.ord, if_pos (by omega)]
    rfl

lemma toUInt16_toNat (u : UInt16) : u.toNat.toUInt16 = u := by simp

lemma toNat_toUInt16 {n : ℕ} (h : n < 0x10000) : n.toUInt16.toNat = n := by
  simpa using Nat.mod_eq_of_lt h

lemma units_point (u : UInt16) : units (point u.toNat) = [u] := by
  have hu := u.toNat_lt
  rw [units_eq, ord_point (by omega), if_pos (by omega), toUInt16_toNat]

lemma units_joined {u v : UInt16} (hu : High u.toNat) (hv : Low v.toNat) :
    units (joined u.toNat v.toNat) = [u, v] := by
  rw [units_eq, ord_joined hu hv, if_neg (by omega)]
  obtain ⟨hu, hu'⟩ := hu
  obtain ⟨hv, hv'⟩ := hv
  have hhigh : 0xD800 + (0x10000 + (u.toNat - 0xD800) * 0x400 + (v.toNat - 0xDC00) - 0x10000)
      / 0x400 = u.toNat := by omega
  have hlow : 0xDC00 + (0x10000 + (u.toNat - 0xD800) * 0x400 + (v.toNat - 0xDC00) - 0x10000)
      % 0x400 = v.toNat := by omega
  rw [hhigh, hlow, toUInt16_toNat, toUInt16_toNat]

/-- Every string is the code units of its code points. -/
lemma utf16_codePoints (s : JsStr) : utf16 (codePoints s) = s := by
  induction s using codePoints.induct with
  | case1 => rfl
  | case2 u => simp [codePoints, utf16, units_point]
  | case3 u v rest h ih =>
    rw [codePoints, if_pos h, utf16, List.flatMap_cons, units_joined h.1 h.2]
    exact congrArg (u :: v :: ·) ih
  | case4 u v rest h ih =>
    rw [codePoints, if_neg h, utf16, List.flatMap_cons, units_point]
    exact congrArg (u :: ·) ih

lemma codePoints_injective {s t : JsStr} (h : codePoints s = codePoints t) : s = t := by
  rw [← utf16_codePoints s, h, utf16_codePoints]

/-! ### Texts without pairs of lone surrogates -/

/-- No high surrogate is in front of a low one: the code points are those of some string. -/
def Canonical (s : PyStr) : Prop := s.IsChain fun c d => ¬ (High c.ord ∧ Low d.ord)

/-- A text that can be encoded has no surrogates at all. -/
lemma canonical_of_encodable {s : PyStr} (h : Utf8Encodable s) : Canonical s :=
  (List.isChain_iff_getElem).mpr fun _ _ hpair =>
    ((isScalar_iff _).mp (h _ (List.getElem_mem _))).1 hpair.1

lemma ord_joined_not_surrogate {high low : ℕ} (hh : High high) (hl : Low low) :
    ¬ High (joined high low).ord ∧ ¬ Low (joined high low).ord := by
  rw [ord_joined hh hl]
  simp only [High, Low]
  omega

/-- The first code point is the first unit, or the pair it begins. -/
lemma head_codePoints {v : UInt16} {rest : JsStr} {c : PyChar}
    (h : c ∈ (codePoints (v :: rest)).head?) (hlow : Low c.ord) : c.ord = v.toNat := by
  have hv := v.toNat_lt
  cases rest with
  | nil =>
    obtain rfl := Option.mem_some_iff.mp h
    exact ord_point (by omega)
  | cons w rest =>
    rw [codePoints] at h
    split_ifs at h with hpair
    · obtain rfl := Option.mem_some_iff.mp h
      exact absurd hlow (ord_joined_not_surrogate hpair.1 hpair.2).2
    · obtain rfl := Option.mem_some_iff.mp h
      exact ord_point (by omega)

lemma canonical_codePoints (s : JsStr) : Canonical (codePoints s) := by
  induction s using codePoints.induct with
  | case1 => exact List.isChain_nil
  | case2 u => exact List.isChain_singleton _
  | case3 u v rest h ih =>
    rw [codePoints, if_pos h]
    refine List.isChain_cons.mpr ⟨fun d _ hpair => ?_, ih⟩
    exact (ord_joined_not_surrogate h.1 h.2).1 hpair.1
  | case4 u v rest h ih =>
    have hu := u.toNat_lt
    rw [codePoints, if_neg h]
    refine List.isChain_cons.mpr ⟨fun d hd hpair => h ?_, ih⟩
    rw [ord_point (by omega)] at hpair
    exact ⟨hpair.1, head_codePoints hd hpair.2 ▸ hpair.2⟩

/-- A code point in front of some units is read on its own, unless it begins a pair. -/
lemma codePoints_units {c : PyChar} {s : JsStr}
    (h : ∀ v ∈ s.head?, ¬ (High c.ord ∧ Low v.toNat)) :
    codePoints (units c ++ s) = c :: codePoints s := by
  have hc := ord_lt c
  rw [units_eq]
  split_ifs with hsmall
  · have hunit : c.ord.toUInt16.toNat = c.ord := toNat_toUInt16 hsmall
    cases s with
    | nil => simp only [List.append_nil, codePoints, hunit, point_ord]
    | cons v rest =>
      rw [List.singleton_append, codePoints, hunit, if_neg (h v rfl), point_ord]
  · have hhigh := toNat_toUInt16 (show 0xD800 + (c.ord - 0x10000) / 0x400 < 0x10000 by omega)
    have hlow := toNat_toUInt16 (show 0xDC00 + (c.ord - 0x10000) % 0x400 < 0x10000 by omega)
    have hpair : High (0xD800 + (c.ord - 0x10000) / 0x400) ∧
        Low (0xDC00 + (c.ord - 0x10000) % 0x400) := by
      simp only [High, Low]
      omega
    rw [List.cons_append, List.singleton_append, codePoints, hhigh, hlow, if_pos hpair]
    have hjoined : joined (0xD800 + (c.ord - 0x10000) / 0x400)
        (0xDC00 + (c.ord - 0x10000) % 0x400) = c := by
      have hsum : 0x10000 + (0xD800 + (c.ord - 0x10000) / 0x400 - 0xD800) * 0x400 +
          (0xDC00 + (c.ord - 0x10000) % 0x400 - 0xDC00) = c.ord := by omega
      rw [joined, hsum, point_ord]
    rw [hjoined]

/-- The first unit of a text is that of its first code point. -/
lemma head_units {c : PyChar} {v : UInt16} {s : JsStr} (h : v ∈ (units c ++ s).head?)
    (hlow : Low v.toNat) : Low c.ord := by
  have hc := ord_lt c
  rw [units_eq] at h
  split_ifs at h with hsmall
  · obtain rfl := Option.mem_some_iff.mp h
    rwa [toNat_toUInt16 hsmall] at hlow
  · obtain rfl := Option.mem_some_iff.mp h
    rw [toNat_toUInt16 (by omega)] at hlow
    simp only [Low] at hlow
    omega

/-- The code points of the code units of a text are the text. -/
lemma codePoints_utf16 {s : PyStr} (h : Canonical s) : codePoints (utf16 s) = s := by
  induction s with
  | nil => rfl
  | cons c s ih =>
    obtain ⟨hhead, htail⟩ := List.isChain_cons.mp h
    rw [utf16, List.flatMap_cons, codePoints_units ?_, ← utf16, ih htail]
    rintro v hv ⟨hhigh, hlow⟩
    cases s with
    | nil => cases hv
    | cons d s => exact hhead d rfl ⟨hhigh, head_units hv hlow⟩

/-! ### UTF-8 -/

/-- The scalar values of a string, with a replacement for a lone surrogate. -/
def scalarValues (s : JsStr) : List Char :=
  (codePoints s).map fun
    | .scalar c => c
    | .surrogate _ => '\uFFFD'

def utf8 (cs : List Char) : List UInt8 := cs.flatMap String.utf8EncodeChar

/-- The text of some bytes, if they are UTF-8. -/
def decodeUtf8 (raw : List UInt8) : Option (List Char) :=
  ((⟨raw.toArray⟩ : ByteArray).utf8Decode?).map Array.toList

lemma decodeUtf8_utf8 (cs : List Char) : decodeUtf8 (utf8 cs) = some cs := by
  have harray : (⟨(utf8 cs).toArray⟩ : ByteArray) = cs.utf8Encode := by
    rw [List.utf8Encode]
    exact ByteArray.ext (by simp [utf8])
  rw [decodeUtf8, harray, List.utf8Decode?_utf8Encode, Option.map_some]

end ModelDispatcher.Lib.CodePoints
