import Mathlib.Algebra.Order.Ring.Nat
import Mathlib.Data.List.TakeWhile
import Mathlib.Data.Int.Notation
import Mathlib.Data.Nat.Notation
import Mathlib.Tactic.Lemma

/-!
Python strings, as sequences of code points.

A code point is a Unicode scalar value or a lone surrogate. Lone surrogates are what
`str.encode("utf-8")` refuses, so they are kept in the model.
-/

namespace ModelDispatcher.Lib.Text

/-- One code point of a Python string. -/
inductive PyChar
  | scalar (c : Char)
  | surrogate (n : Fin 0x800)
  deriving DecidableEq

abbrev PyStr := List PyChar

/-- A string literal. -/
def py (s : String) : PyStr := s.toList.map .scalar

def PyChar.ord : PyChar → ℕ
  | .scalar c => c.toNat
  | .surrogate n => 0xD800 + n

/-! ### UTF-8 -/

def PyChar.isScalar : PyChar → Bool
  | .scalar _ => true
  | .surrogate _ => false

def PyChar.utf8Size : PyChar → ℕ
  | .scalar c => c.utf8Size
  | .surrogate _ => 3

/-- No lone surrogate: the string can be encoded as UTF-8. -/
def Utf8Encodable (s : PyStr) : Prop := ∀ c ∈ s, c.isScalar

instance (s : PyStr) : Decidable (Utf8Encodable s) :=
  inferInstanceAs (Decidable (∀ c ∈ s, c.isScalar))

/-- `len(s.encode("utf-8"))`, with `none` for `UnicodeEncodeError`. -/
def utf8Len (s : PyStr) : Option ℕ :=
  if Utf8Encodable s then some ((s.map PyChar.utf8Size).sum) else none

@[simp] lemma encodable_nil : Utf8Encodable [] := by simp [Utf8Encodable]

lemma encodable_append {s t : PyStr} :
    Utf8Encodable (s ++ t) ↔ Utf8Encodable s ∧ Utf8Encodable t := by
  simp [Utf8Encodable, or_imp, forall_and]

lemma encodable_py (s : String) : Utf8Encodable (py s) := by
  simp [Utf8Encodable, py, PyChar.isScalar]

/-- Every code point is ASCII. -/
def Ascii (s : PyStr) : Prop := ∀ c ∈ s, c.ord < 0x80

lemma PyChar.utf8Size_pos (c : PyChar) : 1 ≤ c.utf8Size := by
  cases c with
  | scalar c => exact c.utf8Size_pos
  | surrogate n =>
    rw [utf8Size]
    omega

lemma PyChar.utf8Size_eq_one_iff {c : PyChar} : c.utf8Size = 1 ↔ c.ord < 0x80 := by
  cases c with
  | scalar c =>
    rw [utf8Size, ord, Char.utf8Size_eq_one_iff, UInt32.le_iff_toNat_le]
    exact Nat.lt_succ_iff.symm
  | surrogate n =>
    rw [utf8Size, ord]
    omega

lemma Ascii.encodable {s : PyStr} (h : Ascii s) : Utf8Encodable s := by
  intro c hc
  cases c with
  | scalar c => rfl
  | surrogate n =>
    have hlt := h _ hc
    rw [PyChar.ord] at hlt
    omega

/-- A code point takes a byte at least, so the characters are no more than the bytes, and as many
only in ASCII. -/
lemma length_le_sum_utf8Size (s : PyStr) : s.length ≤ (s.map PyChar.utf8Size).sum ∧
    ((s.map PyChar.utf8Size).sum = s.length ↔ Ascii s) := by
  induction s with
  | nil => simp [Ascii]
  | cons c s ih =>
    obtain ⟨hle, hiff⟩ := ih
    have hpos := c.utf8Size_pos
    have hascii : Ascii (c :: s) ↔ c.ord < 0x80 ∧ Ascii s := List.forall_mem_cons
    rw [List.map_cons, List.sum_cons, List.length_cons, hascii, ← hiff,
      ← PyChar.utf8Size_eq_one_iff]
    omega

lemma length_le_utf8Len {s : PyStr} {n : ℕ} (h : utf8Len s = some n) : s.length ≤ n := by
  unfold utf8Len at h
  split_ifs at h
  cases h
  exact (length_le_sum_utf8Size s).1

lemma utf8Len_eq_length_iff {s : PyStr} : utf8Len s = some s.length ↔ Ascii s := by
  unfold utf8Len
  rw [← (length_le_sum_utf8Size s).2]
  split_ifs with h
  · simp
  · refine iff_of_false (by simp) fun heq => h ?_
    exact ((length_le_sum_utf8Size s).2.mp heq).encodable

/-! ### Character classes -/

/-- The code points `str.isspace` accepts; also the class `\s`. -/
def spaces : List ℕ :=
  [0x9, 0xA, 0xB, 0xC, 0xD, 0x1C, 0x1D, 0x1E, 0x1F, 0x20, 0x85, 0xA0, 0x1680, 0x2000, 0x2001,
   0x2002, 0x2003, 0x2004, 0x2005, 0x2006, 0x2007, 0x2008, 0x2009, 0x200A, 0x2028, 0x2029,
   0x202F, 0x205F, 0x3000]

def PyChar.isSpace (c : PyChar) : Bool := spaces.contains c.ord

/-- The zeros of the runs of ten decimal digits (category Nd); also the class `\d`. -/
def digitZeros : List ℕ :=
  [0x30, 0x660, 0x6F0, 0x7C0, 0x966, 0x9E6, 0xA66, 0xAE6, 0xB66, 0xBE6, 0xC66, 0xCE6, 0xD66,
   0xDE6, 0xE50, 0xED0, 0xF20, 0x1040, 0x1090, 0x17E0, 0x1810, 0x1946, 0x19D0, 0x1A80, 0x1A90,
   0x1B50, 0x1BB0, 0x1C40, 0x1C50, 0xA620, 0xA8D0, 0xA900, 0xA9D0, 0xA9F0, 0xAA50, 0xABF0,
   0xFF10, 0x104A0, 0x10D30, 0x11066, 0x110F0, 0x11136, 0x111D0, 0x112F0, 0x11450, 0x114D0,
   0x11650, 0x116C0, 0x11730, 0x118E0, 0x11950, 0x11C50, 0x11D50, 0x11DA0, 0x16A60, 0x16AC0,
   0x16B50, 0x1D7CE, 0x1D7D8, 0x1D7E2, 0x1D7EC, 0x1D7F6, 0x1E140, 0x1E2F0, 0x1E950, 0x1FBF0]

/-- The value of a decimal digit. -/
def PyChar.digitVal (c : PyChar) : Option ℕ :=
  (digitZeros.find? fun z => z ≤ c.ord && c.ord < z + 10).map (c.ord - ·)

def PyChar.isDigit (c : PyChar) : Bool := c.digitVal.isSome

/-- A digit is one of ten in a row. -/
lemma PyChar.digitVal_spec {c : PyChar} {d : ℕ} (h : c.digitVal = some d) :
    d < 10 ∧ ∃ z ∈ digitZeros, c.ord = z + d := by
  obtain ⟨z, hz, rfl⟩ := Option.map_eq_some_iff.mp h
  have hrun := List.find?_some hz
  simp only [Bool.and_eq_true, decide_eq_true_eq] at hrun
  exact ⟨by omega, z, List.mem_of_find?_eq_some hz, by omega⟩

/-- No blank is a digit. -/
lemma PyChar.not_isSpace_of_isDigit {c : PyChar} (h : c.isDigit) : c.isSpace = false := by
  obtain ⟨d, hd⟩ := Option.isSome_iff_exists.mp h
  obtain ⟨hlt, z, hz, hord⟩ := digitVal_spec hd
  have hdisjoint : ∀ z ∈ digitZeros, ∀ x ∈ spaces, ¬ (z ≤ x ∧ x < z + 10) := by
    decide
  refine Bool.eq_false_iff.mpr fun hspace => ?_
  exact hdisjoint z hz c.ord (by simpa [isSpace] using hspace) ⟨by omega, by omega⟩

/-! ### String methods -/

/-- `s.strip()`. -/
def strip (s : PyStr) : PyStr :=
  ((s.dropWhile PyChar.isSpace).reverse.dropWhile PyChar.isSpace).reverse

/-- `s.split(sep)` for a one-character separator. -/
def split (s : PyStr) (sep : Char) : List PyStr := s.splitOn (.scalar sep)

/-- `sep.join(parts)` for a one-character separator. -/
def join (sep : Char) (parts : List PyStr) : PyStr := [.scalar sep].intercalate parts

/-- A joined string goes on after a separator. -/
lemma join_append (sep : Char) {parts more : List PyStr} (hparts : parts ≠ [])
    (hmore : more ≠ []) :
    join sep (parts ++ more) = join sep parts ++ .scalar sep :: join sep more := by
  unfold join
  induction parts with
  | nil => exact absurd rfl hparts
  | cons part parts ih =>
    cases parts with
    | nil =>
      rw [List.singleton_append, List.intercalate_cons_of_ne_nil hmore,
        List.intercalate_singleton]
      simp
    | cons next rest =>
      rw [List.cons_append, List.cons_append, List.intercalate_cons_cons, ← List.cons_append,
        ih (by simp), List.intercalate_cons_cons]
      simp only [List.append_assoc]

/-- A separator splits what stands before it from what stands after it. -/
lemma split_append (sep : Char) (s t : PyStr) :
    split (s ++ .scalar sep :: t) sep = split s sep ++ split t sep := by
  unfold split
  rw [List.splitOn_eq_splitOnP, List.splitOn_eq_splitOnP, List.splitOn_eq_splitOnP]
  exact List.splitOnP_append_cons s t BEq.rfl

/-- Splitting a joined string splits each of its parts. -/
lemma split_join (sep : Char) {parts : List PyStr} (h : parts ≠ []) :
    split (join sep parts) sep = parts.flatMap (split · sep) := by
  induction parts with
  | nil => exact absurd rfl h
  | cons part parts ih =>
    cases parts with
    | nil => simp [join]
    | cons next rest =>
      have hjoin : join sep (part :: next :: rest) =
          join sep [part] ++ .scalar sep :: join sep (next :: rest) :=
        join_append sep (List.cons_ne_nil part []) (List.cons_ne_nil next rest)
      have hpart : join sep [part] = part := List.intercalate_singleton
      rw [hjoin, hpart, split_append, ih (List.cons_ne_nil next rest)]
      rfl

/-- A string without the separator is its own only piece. -/
lemma split_eq_singleton {sep : Char} {s : PyStr} (h : .scalar sep ∉ s) :
    split s sep = [s] := by
  unfold split
  rw [List.splitOn_eq_splitOnP]
  refine List.splitOnP_eq_singleton fun c hc => ?_
  refine beq_eq_false_iff_ne.mpr ?_
  rintro rfl
  exact h hc

/-! ### Visible characters through the string methods -/

/-- The string has a character that is not white space. -/
def NonBlank (s : PyStr) : Prop := ∃ c ∈ s, c.isSpace = false

lemma mem_dropWhile_isSpace {c : PyChar} (hc : c.isSpace = false) {s : PyStr} :
    c ∈ s.dropWhile PyChar.isSpace ↔ c ∈ s := by
  induction s with
  | nil => rfl
  | cons x s ih =>
    by_cases hx : x.isSpace
    · have hne : c ≠ x := by
        rintro rfl
        rw [hx] at hc
        cases hc
      rw [List.dropWhile_cons_of_pos hx, ih, List.mem_cons, or_iff_right hne]
    · rw [List.dropWhile_cons_of_neg hx]

lemma mem_strip {c : PyChar} (hc : c.isSpace = false) {s : PyStr} : c ∈ strip s ↔ c ∈ s := by
  rw [strip, List.mem_reverse, mem_dropWhile_isSpace hc, List.mem_reverse,
    mem_dropWhile_isSpace hc]

lemma nonBlank_strip {s : PyStr} : NonBlank (strip s) ↔ NonBlank s :=
  exists_congr fun _ => and_congr_left fun hc => mem_strip hc

/-- Stripping leaves nothing exactly of a blank string. -/
lemma strip_ne_nil_iff {s : PyStr} : strip s ≠ [] ↔ NonBlank s := by
  constructor
  · intro h
    by_contra hblank
    have hspaces : ∀ c ∈ s, c.isSpace := by
      intro c hc
      by_contra hspace
      exact hblank ⟨c, hc, Bool.eq_false_iff.mpr hspace⟩
    have hdrop : s.dropWhile PyChar.isSpace = [] := List.dropWhile_eq_nil_iff.mpr hspaces
    exact h (by rw [strip, hdrop]; rfl)
  · rintro ⟨c, hc, hspace⟩
    exact List.ne_nil_of_mem ((mem_strip hspace).mpr hc)

/-- The characters of the pieces are those of the string, but for the separator. -/
lemma mem_flatten_split {s : PyStr} {sep : Char} {c : PyChar} :
    c ∈ (split s sep).flatten ↔ c ∈ s ∧ c ≠ .scalar sep := by
  unfold split
  rw [List.splitOn_eq_splitOnP]
  induction s with
  | nil => simp
  | cons x s ih =>
    rw [List.splitOnP_cons_eq_if_modifyHead]
    by_cases hx : x = .scalar sep
    · subst hx
      rw [if_pos BEq.rfl, List.flatten_cons, List.nil_append, ih, List.mem_cons, or_and_right]
      simp
    · obtain ⟨head, tail, hsplit⟩ := List.exists_cons_of_ne_nil
        (List.splitOnP_ne_nil (· == PyChar.scalar sep) s)
      have hne : c = x → c ≠ .scalar sep := fun h => h ▸ hx
      rw [hsplit, List.flatten_cons, List.mem_append] at ih
      rw [hsplit, if_neg (by simpa using hx), List.modifyHead_cons, List.flatten_cons,
        List.mem_append, List.mem_cons, or_assoc, ih, List.mem_cons, or_and_right,
        and_iff_left_of_imp hne]

/-- The characters of a joined string are those of its parts, but for the separator. -/
lemma mem_join {parts : List PyStr} {sep : Char} {c : PyChar} (hc : c ≠ .scalar sep) :
    c ∈ join sep parts ↔ c ∈ parts.flatten := by
  unfold join
  induction parts with
  | nil => simp
  | cons part parts ih =>
    cases parts with
    | nil => simp
    | cons next rest =>
      rw [List.flatten_cons, List.mem_append, ← ih, List.intercalate_cons_cons, List.mem_append,
        List.mem_append, List.mem_singleton, or_iff_left hc]

/-- The digit limit of `int.__str__` and `int.__repr__`. -/
def maxStrDigits : ℕ := 4300

/-- `str(n)`, with `none` for the `ValueError` of an integer past the digit limit. -/
def strInt (n : ℤ) : Option PyStr :=
  if n.natAbs < 10 ^ maxStrDigits then
    some ((if n < 0 then py "-" else []) ++ (Nat.toDigits 10 n.natAbs).map .scalar)
  else none

example : strInt (-42) = some (py "-42") := by decide +kernel

end ModelDispatcher.Lib.Text
