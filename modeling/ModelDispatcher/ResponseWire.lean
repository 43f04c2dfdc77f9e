import ModelDispatcher.ErrorDecoding
import ModelDispatcher.Lib.CodePoints
import ModelDispatcher.Lib.JsonText
import ModelDispatcher.Pipeline

/-!
The bodies of the server as texts: what `json.dumps` writes of a response, `JSON.parse` of the
client reads back.
-/

namespace ModelDispatcher.ResponseWire

open Lib.Text Lib.Json Lib.Js Lib.Binary64 Lib.Dicts Lib.CodePoints Lib.JsonText Lib.Promises
open DataTypes Exceptions Payloads Orchestration Pipeline GatewayClient ErrorDecoding

/-! ### `JSON.parse`, given the number a numeral stands for -/

/-- The code units of a string. -/
def stringUnits (s : List Glyph) : JsStr :=
  s.map fun
    | .raw n => n.toUInt16
    | .short letter => (shortCode letter).toUInt16
    | .unit n => n.toUInt16

section

variable (number : Codes → Double)

mutual

def valueOf : Tree → JsValue
  | .null => .null
  | .bool b => .boolean b
  | .number text => .number (number text)
  | .string s => .string (stringUnits s)
  | .array items => .array (valuesOf items)
  | .object fields => .object (PyDict.ofList (fieldsOf fields)).entries

def valuesOf : List Tree → List JsValue
  | [] => []
  | t :: rest => valueOf t :: valuesOf rest

def fieldsOf : List (List Glyph × Tree) → List (JsStr × JsValue)
  | [] => []
  | (k, t) :: rest => (stringUnits k, valueOf t) :: fieldsOf rest

end

/-- `JSON.parse`, with `none` for a `SyntaxError`. -/
def jsonParse (text : JsStr) : Option JsValue :=
  (parseText (text.map UInt16.toNat)).map (valueOf number)

end

/-! ### The syntax `json.dumps` writes -/

@[simp] lemma ords_py (s : String) : ords (py s) = codes s := by
  simp [ords, py, codes, PyChar.ord]

/-- The default separators. -/
def dumpsStyle : Style := ⟨[' '.toNat], [' '.toNat], by decide, by decide⟩

/-- What a scalar value is written as. -/
def scalarGlyphs (c : Char) : List Glyph :=
  match c with
  | '"' => [.short '"'.toNat]
  | '\\' => [.short '\\'.toNat]
  | '\n' => [.short 'n'.toNat]
  | '\r' => [.short 'r'.toNat]
  | '\t' => [.short 't'.toNat]
  | '\x08' => [.short 'b'.toNat]
  | '\x0c' => [.short 'f'.toNat]
  | c =>
    if 0x20 ≤ c.toNat ∧ c.toNat ≤ 0x7E then [.raw c.toNat]
    else if c.toNat < 0x10000 then [.unit c.toNat]
    else
      let v := c.toNat - 0x10000
      [.unit (0xD800 + v / 0x400), .unit (0xDC00 + v % 0x400)]

def charGlyphs : PyChar → List Glyph
  | .scalar c => scalarGlyphs c
  | .surrogate n => [.unit (0xD800 + n)]

/-- The numeral of an integer. -/
def decimal (n : ℤ) : Codes := ords ((strInt n).getD [])

mutual

def treeOf : JSONValue → Tree
  | .null => .null
  | .bool b => .bool b
  | .int n => .number (decimal n)
  | .float literal => .number (codes literal)
  | .str s => .string (s.flatMap charGlyphs)
  | .list items => .array (treesOf items)
  | .dict fields => .object (membersOf fields)

def treesOf : List JSONValue → List Tree
  | [] => []
  | v :: rest => treeOf v :: treesOf rest

def membersOf : List (PyStr × JSONValue) → List (List Glyph × Tree)
  | [] => []
  | (k, v) :: rest => (k.flatMap charGlyphs, treeOf v) :: membersOf rest

end

/-! ### Escapes -/

lemma digitChar_toNat {n : ℕ} (h : n < 16) : (Nat.digitChar n).toNat = hexDigit n := by
  revert h
  revert n
  decide

/-- Padding the hexadecimal digits of a code unit to four. -/
lemma ords_unicodeEscape {n : ℕ} (h : n < 0x10000) :
    ords (unicodeEscape n) = renderGlyph (.unit n) := by
  have hdigit : ∀ m : ℕ, (Nat.digitChar (m % 16)).toNat = hexDigit (m % 16) := fun m =>
    digitChar_toNat (Nat.mod_lt m (by omega))
  have hpadded : ((List.replicate (4 - (Nat.toDigits 16 n).length) '0' ++
      Nat.toDigits 16 n).map Char.toNat) = [hexDigit (n / 0x1000 % 16), hexDigit (n / 0x100 % 16),
        hexDigit (n / 0x10 % 16), hexDigit (n % 16)] := by
    rw [← hdigit, ← hdigit, ← hdigit, ← hdigit]
    have hlast : ∀ {m : ℕ}, m < 16 → Nat.toDigits 16 m = [Nat.digitChar m] := fun hm =>
      Nat.toDigits_of_lt_base hm
    have hmore : ∀ {m : ℕ}, 16 ≤ m →
        Nat.toDigits 16 m = Nat.toDigits 16 (m / 16) ++ [Nat.digitChar (m % 16)] := fun hm =>
      Nat.toDigits_of_base_le (by omega) hm
    have hzero : (Nat.digitChar 0).toNat = '0'.toNat := rfl
    have h2 : n / 16 / 16 = n / 0x100 := by omega
    have h3 : n / 16 / 16 / 16 = n / 0x1000 := by omega
    by_cases h₁ : n < 16
    · rw [hlast h₁]
      simp [hzero, List.replicate, show n / 0x1000 % 16 = 0 by omega,
        show n / 0x100 % 16 = 0 by omega, show n / 0x10 % 16 = 0 by omega,
        show n % 16 = n by omega]
    · by_cases h₂ : n / 16 < 16
      · rw [hmore (by omega), hlast h₂]
        simp [hzero, List.replicate, show n / 0x1000 % 16 = 0 by omega,
          show n / 0x100 % 16 = 0 by omega, show n / 0x10 % 16 = n / 16 by omega]
      · by_cases h₃ : n / 0x100 < 16
        · rw [hmore (by omega), hmore (by omega), h2, hlast h₃]
          simp [hzero, show n / 0x1000 % 16 = 0 by omega,
            show n / 0x100 % 16 = n / 0x100 by omega]
        · rw [hmore (by omega), hmore (by omega), h2, hmore (by omega), ← h2, h3,
            hlast (by omega)]
          simp [h2, show n / 0x1000 % 16 = n / 0x1000 by omega]
  unfold unicodeEscape
  dsimp only
  rw [ords_append, ords_py, ords, List.map_map, renderGlyph, ← hpadded]
  rfl

lemma ords_flatMap {s : PyStr} {f : PyChar → PyStr} {g : PyChar → List Glyph}
    (h : ∀ c, ords (f c) = (g c).flatMap renderGlyph) :
    ords (s.flatMap f) = (s.flatMap g).flatMap renderGlyph := by
  induction s with
  | nil => rfl
  | cons c s ih =>
    rw [List.flatMap_cons, List.flatMap_cons, ords_append, List.flatMap_append, h, ih]

/-- The characters that have an escape of one letter. -/
def escaped : List Char := ['"', '\\', '\n', '\r', '\t', '\x08', '\x0c']

lemma scalarGlyphs_of_not_escaped {c : Char} (h : c ∉ escaped) : scalarGlyphs c =
    if 0x20 ≤ c.toNat ∧ c.toNat ≤ 0x7E then [.raw c.toNat]
    else if c.toNat < 0x10000 then [.unit c.toNat]
    else [.unit (0xD800 + (c.toNat - 0x10000) / 0x400),
      .unit (0xDC00 + (c.toNat - 0x10000) % 0x400)] := by
  unfold scalarGlyphs
  split <;> first | rfl | exact absurd (by decide) h

lemma escapeScalar_of_not_escaped {c : Char} (h : c ∉ escaped) : escapeScalar c =
    if 0x20 ≤ c.toNat ∧ c.toNat ≤ 0x7E then [.scalar c]
    else if c.toNat < 0x10000 then unicodeEscape c.toNat
    else unicodeEscape (0xD800 + (c.toNat - 0x10000) / 0x400) ++
      unicodeEscape (0xDC00 + (c.toNat - 0x10000) % 0x400) := by
  unfold escapeScalar
  split <;> first | rfl | exact absurd (by decide) h

lemma ords_escapeScalar (c : Char) :
    ords (escapeScalar c) = (scalarGlyphs c).flatMap renderGlyph := by
  have hc : c.toNat < 0x110000 := ord_lt (.scalar c)
  by_cases hescaped : c ∈ escaped
  · simp only [escaped, List.mem_cons, List.not_mem_nil, or_false] at hescaped
    rcases hescaped with rfl | rfl | rfl | rfl | rfl | rfl | rfl <;> rfl
  · rw [scalarGlyphs_of_not_escaped hescaped, escapeScalar_of_not_escaped hescaped]
    split_ifs with hascii hsmall
    · rfl
    · simpa using ords_unicodeEscape hsmall
    · have hhigh : 0xD800 + (c.toNat - 0x10000) / 0x400 < 0x10000 := by omega
      have hlow : 0xDC00 + (c.toNat - 0x10000) % 0x400 < 0x10000 := by omega
      rw [ords_append, ords_unicodeEscape hhigh, ords_unicodeEscape hlow, List.flatMap_cons,
        List.flatMap_singleton]

lemma ords_escapeChar (c : PyChar) : ords (escapeChar c) = (charGlyphs c).flatMap renderGlyph := by
  cases c with
  | scalar c => exact ords_escapeScalar c
  | surrogate n =>
    have hn := n.isLt
    simpa [escapeChar, charGlyphs] using ords_unicodeEscape (show 0xD800 + n.val < 0x10000 by omega)

lemma ords_quote (s : PyStr) : ords (quote s) = renderString (s.flatMap charGlyphs) := by
  rw [quote, ords_append, ords_append, ords_flatMap ords_escapeChar]
  rfl

/-! ### The text is the rendered syntax -/

mutual

lemma ords_write : ∀ v : JSONValue, ords (write v) = renderTree dumpsStyle (treeOf v)
  | .null => rfl
  | .bool true => rfl
  | .bool false => rfl
  | .int _ => rfl
  | .float literal => by rw [write, ords_py, treeOf, renderTree]
  | .str s => by rw [write, ords_quote, treeOf, renderTree]
  | .list items => by
    rw [write, ords_append, ords_append, ords_writeItems items, treeOf, renderTree]
    rfl
  | .dict fields => by
    rw [write, ords_append, ords_append, ords_writeFields fields, treeOf, renderTree]
    rfl

lemma ords_writeItems : ∀ items : List JSONValue,
    ords (commaSep (writeItems items)) = renderItems dumpsStyle (treesOf items)
  | [] => rfl
  | [v] => by
    rw [writeItems, writeItems, commaSep, ords_write v, treesOf, treesOf, renderItems,
      renderMoreItems, List.append_nil]
  | v :: w :: rest => by
    have hrest := ords_writeItems (w :: rest)
    simp only [writeItems, treesOf] at hrest ⊢
    rw [commaSep, ords_append, ords_append, ords_write v, hrest, renderItems_more,
      List.append_assoc]
    rfl

lemma ords_writeFields : ∀ fields : List (PyStr × JSONValue),
    ords (commaSep (writeFields fields)) = renderFields dumpsStyle (membersOf fields)
  | [] => rfl
  | [(k, v)] => by
    rw [writeFields, writeFields, commaSep, ords_append, ords_append, ords_quote, ords_write v,
      membersOf, membersOf, renderFields, renderMoreFields, List.append_nil, ords_py]
    rfl
  | (k, v) :: (l, w) :: rest => by
    have hrest := ords_writeFields ((l, w) :: rest)
    simp only [writeFields, membersOf] at hrest ⊢
    rw [commaSep, ords_append, ords_append, ords_append, ords_append, ords_quote, ords_write v,
      hrest, renderFields_more, List.append_assoc, List.append_assoc, ords_py, ords_py]
    rfl

end

/-! ### Values that survive -/

mutual

/-- The integers are in the range where a double is exact. -/
def Counted : JSONValue → Prop
  | .int n => n.natAbs ≤ 2 ^ 53
  | .list items => CountedItems items
  | .dict fields => CountedFields fields
  | _ => True

def CountedItems : List JSONValue → Prop
  | [] => True
  | v :: rest => Counted v ∧ CountedItems rest

def CountedFields : List (PyStr × JSONValue) → Prop
  | [] => True
  | (_, v) :: rest => Counted v ∧ CountedFields rest

end

mutual

/-- No floats, and no two keys of an object that the client cannot tell apart. -/
def Shaped : JSONValue → Prop
  | .float _ => False
  | .list items => ShapedItems items
  | .dict fields => (fields.map fun field => utf16 field.1).Nodup ∧ ShapedFields fields
  | _ => True

def ShapedItems : List JSONValue → Prop
  | [] => True
  | v :: rest => Shaped v ∧ ShapedItems rest

def ShapedFields : List (PyStr × JSONValue) → Prop
  | [] => True
  | (_, v) :: rest => Shaped v ∧ ShapedFields rest

end

mutual

/-- The value as the client sees it. -/
def seen : JSONValue → JsValue
  | .null => .null
  | .bool b => .boolean b
  | .int n => .number (ofRat n)
  | .float _ => .undefined
  | .str s => .string (utf16 s)
  | .list items => .array (seenItems items)
  | .dict fields => .object (seenFields fields)

def seenItems : List JSONValue → List JsValue
  | [] => []
  | v :: rest => seen v :: seenItems rest

def seenFields : List (PyStr × JSONValue) → List (JsStr × JsValue)
  | [] => []
  | (k, v) :: rest => (utf16 k, seen v) :: seenFields rest

end

/-- Numerals of integers are read exactly, as far as doubles go. -/
def Exact (number : Codes → Double) : Prop :=
  ∀ n : ℤ, n.natAbs ≤ 2 ^ 53 → number (decimal n) = ofRat n

/-! ### Numerals -/

lemma isDigit_toNat {c : Char} (h : c.isDigit) : isDigit c.toNat := by
  simp only [Char.isDigit, Bool.and_eq_true, decide_eq_true_eq] at h
  have hlow : '0'.toNat ≤ c.toNat := h.1
  have hhigh : c.toNat ≤ '9'.toNat := h.2
  rw [isDigit, decide_eq_true hlow, decide_eq_true hhigh]
  rfl

/-- The digits of a positive number do not begin with zero; the induction drops the last one. -/
lemma head_toDigits (n : ℕ) (hpos : 0 < n) : (Nat.toDigits 10 n).head? ≠ some '0' := by
  induction n using Nat.strong_induction_on with
  | _ n ih =>
    by_cases h : n < 10
    · rw [Nat.toDigits_of_lt_base h]
      clear ih
      revert hpos
      revert h
      revert n
      decide
    · rw [Nat.toDigits_of_base_le (by omega) (by omega),
        List.head?_append_of_ne_nil _ Nat.toDigits_ne_nil]
      exact ih (n / 10) (by omega) (by omega)

lemma natural_toDigits (n : ℕ) : natural ((Nat.toDigits 10 n).map Char.toNat) := by
  by_cases hzero : n = 0
  · subst hzero
    rfl
  have hhead := head_toDigits n (by omega)
  have hdigits : ∀ c ∈ Nat.toDigits 10 n, isDigit c.toNat := fun c hc =>
    isDigit_toNat (Nat.isDigit_of_mem_toDigits (by omega) (by omega) hc)
  cases hcases : Nat.toDigits 10 n with
  | nil => exact absurd hcases Nat.toDigits_ne_nil
  | cons d ds =>
    rw [hcases] at hhead hdigits
    have hd : d.toNat ≠ '0'.toNat := fun h => hhead (congrArg some (Char.toNat_inj.mp h))
    have hds : (ds.map Char.toNat).all isDigit := by
      simpa using fun c hc => hdigits c (List.mem_cons_of_mem _ hc)
    rw [List.map_cons, natural, hdigits d (by simp), hds, decide_eq_true hd, Bool.or_true]
    rfl

lemma lt_of_exact {n : ℤ} (h : n.natAbs ≤ 2 ^ 53) : n.natAbs < 10 ^ maxStrDigits :=
  lt_of_le_of_lt h ((by norm_num : 2 ^ 53 < 10 ^ 16).trans_le
    (Nat.pow_le_pow_right (by norm_num) (by decide)))

lemma isInteger_decimal {n : ℤ} (hsmall : n.natAbs < 10 ^ maxStrDigits) :
    isInteger (decimal n) := by
  have hnatural := natural_toDigits n.natAbs
  unfold decimal strInt
  rw [if_pos hsmall, Option.getD_some, ords_append]
  have hdigits : ords ((Nat.toDigits 10 n.natAbs).map .scalar) =
      (Nat.toDigits 10 n.natAbs).map Char.toNat := by
    rw [ords, List.map_map]
    rfl
  rw [hdigits]
  split_ifs with hneg
  · change isInteger ('-'.toNat :: _) = true
    rw [isInteger, if_pos rfl]
    exact hnatural
  · change isInteger ((Nat.toDigits 10 n.natAbs).map Char.toNat) = true
    cases hcases : (Nat.toDigits 10 n.natAbs).map Char.toNat with
    | nil => rw [hcases] at hnatural; cases hnatural
    | cons d ds =>
      rw [hcases] at hnatural
      have hminus : d ≠ '-'.toNat := by
        rintro rfl
        cases hnatural
      rw [isInteger, if_neg hminus]
      exact hnatural

/-! ### The syntax is well formed -/

mutual

/-- Integers are short enough to print, and floats are printed as numerals. -/
def Numerals : JSONValue → Prop
  | .int n => n.natAbs < 10 ^ maxStrDigits
  | .float literal => isNumeral (codes literal) ∧ ∀ c ∈ codes literal, numeralChar c
  | .list items => NumeralsItems items
  | .dict fields => NumeralsFields fields
  | _ => True

def NumeralsItems : List JSONValue → Prop
  | [] => True
  | v :: rest => Numerals v ∧ NumeralsItems rest

def NumeralsFields : List (PyStr × JSONValue) → Prop
  | [] => True
  | (_, v) :: rest => Numerals v ∧ NumeralsFields rest

end

mutual

lemma numerals_of_counted : ∀ v : JSONValue, Shaped v → Counted v → Numerals v
  | .null, _, _ => by simp only [Numerals]
  | .bool _, _, _ => by simp only [Numerals]
  | .int n, _, hcounted => by
    simp only [Counted, Numerals] at hcounted ⊢
    exact lt_of_exact hcounted
  | .float _, hshaped, _ => by simp only [Shaped] at hshaped
  | .str _, _, _ => by simp only [Numerals]
  | .list items, hshaped, hcounted => by
    simp only [Shaped, Counted, Numerals] at hshaped hcounted ⊢
    exact numeralsItems_of_counted items hshaped hcounted
  | .dict fields, hshaped, hcounted => by
    simp only [Shaped, Counted, Numerals] at hshaped hcounted ⊢
    exact numeralsFields_of_counted fields hshaped.2 hcounted

lemma numeralsItems_of_counted : ∀ items : List JSONValue, ShapedItems items →
    CountedItems items → NumeralsItems items
  | [], _, _ => by simp only [NumeralsItems]
  | v :: rest, hshaped, hcounted => by
    simp only [ShapedItems, CountedItems, NumeralsItems] at hshaped hcounted ⊢
    exact ⟨numerals_of_counted v hshaped.1 hcounted.1,
      numeralsItems_of_counted rest hshaped.2 hcounted.2⟩

lemma numeralsFields_of_counted : ∀ fields : List (PyStr × JSONValue), ShapedFields fields →
    CountedFields fields → NumeralsFields fields
  | [], _, _ => by simp only [NumeralsFields]
  | (_, v) :: rest, hshaped, hcounted => by
    simp only [ShapedFields, CountedFields, NumeralsFields] at hshaped hcounted ⊢
    exact ⟨numerals_of_counted v hshaped.1 hcounted.1,
      numeralsFields_of_counted rest hshaped.2 hcounted.2⟩

end

lemma plain_charGlyphs (c : PyChar) : ∀ g ∈ charGlyphs c, g.Plain (· < 0x80) := by
  cases c with
  | surrogate n =>
    have hn := n.isLt
    simp only [charGlyphs, List.mem_singleton, forall_eq, Glyph.Plain]
    omega
  | scalar c =>
    have hc : c.toNat < 0x110000 := ord_lt (.scalar c)
    change ∀ g ∈ scalarGlyphs c, g.Plain (· < 0x80)
    by_cases hescaped : c ∈ escaped
    · simp only [escaped, List.mem_cons, List.not_mem_nil, or_false] at hescaped
      have hletters : ∀ letter ∈ shortLetters, ∀ g ∈ [Glyph.short letter], g.Plain (· < 0x80) := by
        intro letter hletter g hg
        obtain rfl := List.mem_singleton.mp hg
        exact hletter
      rcases hescaped with rfl | rfl | rfl | rfl | rfl | rfl | rfl <;>
        exact hletters _ (by decide)
    · rw [scalarGlyphs_of_not_escaped hescaped]
      split_ifs with hascii hsmall
      · have hne : ∀ d ∈ escaped, c.toNat ≠ d.toNat := fun d hd h =>
          hescaped (Char.toNat_inj.mp h ▸ hd)
        simp only [List.mem_singleton, forall_eq, Glyph.Plain]
        exact ⟨hascii.1, hne '"' (by decide), hne '\\' (by decide), by omega⟩
      · simpa [Glyph.Plain] using hsmall
      · simp only [List.mem_cons, List.not_mem_nil, or_false, forall_eq_or_imp, forall_eq,
          Glyph.Plain]
        omega

lemma plain_glyphs (s : PyStr) : ∀ g ∈ s.flatMap charGlyphs, g.Plain (· < 0x80) := by
  intro g hg
  obtain ⟨c, -, hc⟩ := List.mem_flatMap.mp hg
  exact plain_charGlyphs c g hc

mutual

lemma plain_treeOf : ∀ v : JSONValue, Numerals v → Plain (· < 0x80) (treeOf v)
  | .null, _ => by simp only [treeOf, Plain]
  | .bool _, _ => by simp only [treeOf, Plain]
  | .int n, h => by
    simp only [Numerals] at h
    simp only [treeOf, Plain]
    exact isNumeral_of_isInteger (isInteger_decimal h)
  | .float _, h => by
    simp only [Numerals] at h
    simp only [treeOf, Plain]
    exact h
  | .str s, _ => by
    simp only [treeOf, Plain]
    exact plain_glyphs s
  | .list items, h => by
    simp only [Numerals, treeOf, Plain] at h ⊢
    exact plain_treesOf items h
  | .dict fields, h => by
    simp only [Numerals, treeOf, Plain] at h ⊢
    exact plain_membersOf fields h

lemma plain_treesOf : ∀ items : List JSONValue, NumeralsItems items →
    PlainItems (· < 0x80) (treesOf items)
  | [], _ => by simp only [treesOf, PlainItems]
  | v :: rest, h => by
    simp only [NumeralsItems, treesOf, PlainItems] at h ⊢
    exact ⟨plain_treeOf v h.1, plain_treesOf rest h.2⟩

lemma plain_membersOf : ∀ fields : List (PyStr × JSONValue), NumeralsFields fields →
    PlainFields (· < 0x80) (membersOf fields)
  | [], _ => by simp only [membersOf, PlainFields]
  | (k, v) :: rest, h => by
    simp only [NumeralsFields, membersOf, PlainFields] at h ⊢
    exact ⟨plain_glyphs k, plain_treeOf v h.1, plain_membersOf rest h.2⟩

end

/-! ### What is read -/

lemma stringUnits_charGlyphs (c : PyChar) : stringUnits (charGlyphs c) = units c := by
  cases c with
  | surrogate n => rfl
  | scalar c =>
    change stringUnits (scalarGlyphs c) = units (.scalar c)
    by_cases hescaped : c ∈ escaped
    · simp only [escaped, List.mem_cons, List.not_mem_nil, or_false] at hescaped
      rcases hescaped with rfl | rfl | rfl | rfl | rfl | rfl | rfl <;> decide
    · rw [scalarGlyphs_of_not_escaped hescaped, units]
      split_ifs with hascii hsmall hsmall
      · rfl
      · omega
      · rfl
      · rfl

lemma stringUnits_glyphs (s : PyStr) : stringUnits (s.flatMap charGlyphs) = utf16 s := by
  have happend : ∀ gs hs : List Glyph, stringUnits (gs ++ hs) = stringUnits gs ++ stringUnits hs :=
    fun _ _ => List.map_append
  induction s with
  | nil => rfl
  | cons c s ih =>
    rw [List.flatMap_cons, happend, stringUnits_charGlyphs, ih]
    rfl

section

variable {number : Codes → Double}

mutual

lemma valueOf_treeOf (hnumber : Exact number) : ∀ v : JSONValue, Shaped v → Counted v →
    valueOf number (treeOf v) = seen v
  | .null, _, _ => rfl
  | .bool _, _, _ => rfl
  | .int n, _, hcounted => by
    simp only [Counted] at hcounted
    rw [treeOf, valueOf, hnumber n hcounted, seen]
  | .float _, hshaped, _ => by simp only [Shaped] at hshaped
  | .str s, _, _ => by rw [treeOf, valueOf, stringUnits_glyphs, seen]
  | .list items, hshaped, hcounted => by
    simp only [Shaped, Counted] at hshaped hcounted
    rw [treeOf, valueOf, valuesOf_treesOf hnumber items hshaped hcounted, seen]
  | .dict fields, hshaped, hcounted => by
    simp only [Shaped, Counted] at hshaped hcounted
    have hkeys : ∀ fields : List (PyStr × JSONValue),
        (seenFields fields).map Prod.fst = fields.map fun field => utf16 field.1 := by
      intro fields
      induction fields with
      | nil => rfl
      | cons field rest ih => exact congrArg (utf16 field.1 :: ·) ih
    rw [treeOf, valueOf, fieldsOf_membersOf hnumber fields hshaped.2 hcounted, seen,
      PyDict.entries_ofList (by rw [hkeys]; exact hshaped.1)]

lemma valuesOf_treesOf (hnumber : Exact number) : ∀ items : List JSONValue, ShapedItems items →
    CountedItems items → valuesOf number (treesOf items) = seenItems items
  | [], _, _ => rfl
  | v :: rest, hshaped, hcounted => by
    simp only [ShapedItems, CountedItems] at hshaped hcounted
    rw [treesOf, valuesOf, valueOf_treeOf hnumber v hshaped.1 hcounted.1,
      valuesOf_treesOf hnumber rest hshaped.2 hcounted.2, seenItems]

lemma fieldsOf_membersOf (hnumber : Exact number) : ∀ fields : List (PyStr × JSONValue),
    ShapedFields fields → CountedFields fields →
      fieldsOf number (membersOf fields) = seenFields fields
  | [], _, _ => rfl
  | (k, v) :: rest, hshaped, hcounted => by
    simp only [ShapedFields, CountedFields] at hshaped hcounted
    rw [membersOf, fieldsOf, stringUnits_glyphs, valueOf_treeOf hnumber v hshaped.1 hcounted.1,
      fieldsOf_membersOf hnumber rest hshaped.2 hcounted.2, seenFields]

end

end

/-! ### Reading a text back -/

/-- In ASCII the code units are the code points. -/
lemma toNat_utf16 {s : PyStr} (h : Ascii s) : (utf16 s).map UInt16.toNat = ords s := by
  induction s with
  | nil => rfl
  | cons c s ih =>
    obtain ⟨hc, hs⟩ := List.forall_mem_cons.mp h
    rw [utf16, List.flatMap_cons, units_eq, if_pos (by omega), ← utf16, List.map_append, ih hs,
      List.map_singleton, toNat_toUInt16 (by omega)]
    rfl

/-- The text is ASCII. -/
lemma ascii_write {v : JSONValue} (h : Numerals v) : Ascii (write v) := by
  intro c hc
  have hmem : c.ord ∈ renderTree dumpsStyle (treeOf v) := by
    rw [← ords_write]
    exact List.mem_map_of_mem hc
  exact (mem_renderTree _ (plain_treeOf v h) _ hmem).elim id id

/-- `JSON.parse` reads back what `json.dumps` wrote. -/
lemma jsonParse_write {number : Codes → Double} (hnumber : Exact number) {v : JSONValue}
    (hshaped : Shaped v) (hcounted : Counted v) :
    jsonParse number (utf16 (write v)) = some (seen v) := by
  have hnumerals := numerals_of_counted v hshaped hcounted
  rw [jsonParse, toNat_utf16 (ascii_write hnumerals), ords_write,
    parseText_render (plain_treeOf v hnumerals), Option.map_some,
    valueOf_treeOf hnumber v hshaped hcounted]

/-! ### The bodies of the pipeline -/

lemma shaped_stringObject {fields : List (PyStr × PyStr)}
    (h : (fields.map fun field => utf16 field.1).Nodup) : Shaped (.dict (stringObject fields)) := by
  have hfields : ∀ fields : List (PyStr × PyStr), ShapedFields (stringObject fields) := by
    intro fields
    induction fields with
    | nil => simp only [stringObject, List.map_nil, ShapedFields]
    | cons field rest ih =>
      simp only [stringObject, List.map_cons, ShapedFields, Shaped, true_and]
      exact ih
  simp only [Shaped]
  exact ⟨by simpa [stringObject, Function.comp_def] using h, hfields fields⟩

lemma shaped_toPayload (repr : PyStr → PyStr) (e : ModelDispatcherError) :
    Shaped (.dict (toPayload repr e)) := by
  by_cases hquota : ∃ handoff, e = .quotaExceededError handoff
  · obtain ⟨handoff, rfl⟩ := hquota
    rw [toPayload_handoff]
    refine shaped_stringObject ?_
    cases handoff.detail with
    | none =>
      change [utf16 (py "error"), utf16 (py "provider"), utf16 (py "action")].Nodup
      decide
    | some detail =>
      change [utf16 (py "error"), utf16 (py "provider"), utf16 (py "action"),
        utf16 (py "detail")].Nodup
      decide
  · obtain ⟨rest, hrest, hpayload⟩ := toPayload_error repr fun handoff h => hquota ⟨handoff, h⟩
    rw [hpayload]
    refine shaped_stringObject ?_
    rcases hrest with rfl | ⟨toolName, rfl⟩
    · change [utf16 (py "error"), utf16 (py "detail")].Nodup
      decide
    · change [utf16 (py "error"), utf16 (py "detail"), utf16 (py "tool")].Nodup
      decide

lemma shaped_optional (s : Option PyStr) : Shaped (Pipeline.optional s) := by
  cases s <;> simp only [Pipeline.optional, Shaped]

lemma shapedItems_map {α : Type} {f : α → JSONValue} (h : ∀ a, Shaped (f a)) (items : List α) :
    ShapedItems (items.map f) := by
  induction items with
  | nil => simp only [List.map_nil, ShapedItems]
  | cons a items ih =>
    simp only [List.map_cons, ShapedItems]
    exact ⟨h a, ih⟩

lemma shaped_serialiseResult (result : RunResult) (complexity : PyStr) :
    Shaped (.dict (serialiseResult result complexity)) := by
  have hattempt : ∀ attempt, Shaped (serialiseAttempt attempt) := by
    intro attempt
    simp only [serialiseAttempt, Shaped, ShapedFields, shaped_optional, and_true]
    change [utf16 (py "provider"), utf16 (py "error")].Nodup
    decide
  have hstep : ∀ step, Shaped (serialiseStep step) := by
    intro step
    simp only [serialiseStep, Shaped, ShapedFields, shaped_optional,
      shapedItems_map hattempt step.attempts, and_true]
    change [utf16 (py "message"), utf16 (py "usage"), utf16 (py "attempts")].Nodup
    decide
  simp only [serialiseResult, Shaped, ShapedFields, shaped_optional,
    shapedItems_map hstep result.steps, and_true, true_and]
  constructor
  · change [utf16 (py "final"), utf16 (py "stop_reason"), utf16 (py "complexity"),
      utf16 (py "usage"), utf16 (py "steps")].Nodup
    decide
  · change [utf16 (py "prompt"), utf16 (py "completion"), utf16 (py "total")].Nodup
    decide

/-- What a dispatch is caught as. -/
lemma shaped_invoke {c : Collaborators} {request : CompletionRequest}
    {tenant : Config.TenantContext}
    {s t : Machines.Machine} {status : ℕ} {body : JSONObject}
    (h : (invoke c request tenant).run s = .ok (status, body) t) : Shaped (.dict body) := by
  unfold invoke at h
  rw [EStateM.run_bind] at h
  cases hrun : (catchLibrary (c.gatewayFactory.dispatch c.world request tenant none)).run s with
  | error e t => rw [hrun] at h; cases h
  | ok outcome t =>
    rw [hrun] at h
    cases outcome with
    | error e =>
      cases h
      exact shaped_toPayload c.repr e
    | ok result =>
      cases h
      exact shaped_serialiseResult result _

lemma shaped_runDispatch {c : Collaborators} {appCheckToken authorizationHeader : Option PyStr}
    {rawBody : Bytes} {s t : Machines.Machine} {status : ℕ} {body : JSONObject}
    (h : (runDispatch c appCheckToken authorizationHeader rawBody).run s = .ok (status, body) t) :
    Shaped (.dict body) := by
  have hrefused : ∀ code : PyStr, Shaped (.dict [(py "error", .str code)]) := fun code =>
    @shaped_stringObject [(py "error", code)] (List.nodup_singleton _)
  have hbad : ∀ detail : PyStr,
      Shaped (.dict [(py "error", .str (py "bad_request")), (py "detail", .str detail)]) := by
    intro detail
    refine @shaped_stringObject [(py "error", py "bad_request"), (py "detail", detail)] ?_
    change [utf16 (py "error"), utf16 (py "detail")].Nodup
    decide
  unfold runDispatch at h
  cases happ : c.verifier appCheckToken with
  | error e =>
    rw [happ] at h
    cases h
    exact hrefused _
  | ok app =>
    rw [happ] at h
    cases hauth : c.authVerifier authorizationHeader with
    | error e =>
      rw [hauth] at h
      cases h
      exact hrefused _
    | ok claims =>
      rw [hauth] at h
      cases hdecode : decodeRequest c.loads rawBody with
      | error detail =>
        rw [hdecode] at h
        cases h
        exact hbad detail
      | ok v =>
        rw [hdecode] at h
        exact shaped_invoke h

/-- **Responses are read back.** Every body the pipeline answers with, written by `json.dumps`, is
read by `JSON.parse` as the very same value: all its texts, lone surrogates included, and all its
counts, as long as these are in the range where doubles are exact. A successful response is what
the caller of the client is handed. -/
theorem responses_read_back (number : Codes → Double) (c : Collaborators)
    (appCheckToken authorizationHeader : Option PyStr) (rawBody : Bytes) (q : Quota.QuotaState)
    (status : ℕ) (body : JSONObject) (t : Machines.Machine) (hnumber : Exact number)
    (h : served c appCheckToken authorizationHeader rawBody q = .ok (status, body) t)
    (hcounted : Counted (.dict body)) :
    jsonParse number (wire body) = some (seen (.dict body)) ∧
    ∀ (runtime : Runtime) (bus : Bus) (fuel : ℕ) (log : List Event),
      runtime.parse = jsonParse number → runtime.text log = .fulfilled (wire body) →
      200 ≤ status ∧ status ≤ 299 →
        (decodeOutcome runtime ⟨status⟩ bus fuel).run log =
          .ok (.ok (seen (.dict body))) (log ++ [.bodyRead (.fulfilled (wire body))]) := by
  have hparse : jsonParse number (wire body) = some (seen (.dict body)) :=
    jsonParse_write hnumber (shaped_runDispatch h) hcounted
  refine ⟨hparse, fun runtime bus fuel log hruntime htext hstatus => ?_⟩
  have hread : (readJson runtime).run log =
      .ok (seen (.dict body)) (log ++ [.bodyRead (.fulfilled (wire body))]) := by
    have hne := wire_ne_nil body
    unfold EStateM.run readJson
    rw [get_bind, htext]
    rw [← hruntime] at hparse
    generalize wire body = text at hne hparse ⊢
    cases text with
    | nil => exact absurd rfl hne
    | cons u text =>
      change EStateM.Result.ok ((runtime.parse (u :: text)).getD .undefined) _ = _
      rw [hparse]
      rfl
  have hok : Response.ok ⟨status⟩ := by
    simpa [Response.ok] using hstatus
  unfold decodeOutcome
  rw [EStateM.run_bind, hread]
  dsimp only
  rw [if_pos hok]
  rfl

namespace Sample

/-- The number of a numeral without fraction and exponent. -/
def number : Codes → Double
  | [] => ofRat 0
  | c :: ds =>
    if c = '-'.toNat then ofRat (-(Nat.ofDigitChars 10 (ds.map Char.ofNat) 0 : ℕ))
    else ofRat (Nat.ofDigitChars 10 ((c :: ds).map Char.ofNat) 0 : ℕ)

lemma exact_number : Exact number := by
  intro n hn
  have hsmall := lt_of_exact hn
  have hdigits : (ords ((Nat.toDigits 10 n.natAbs).map .scalar)).map Char.ofNat =
      Nat.toDigits 10 n.natAbs := by
    rw [ords, List.map_map, List.map_map]
    exact (List.map_congr_left fun c _ => Char.ofNat_toNat c).trans (List.map_id _)
  have hnatural := natural_toDigits n.natAbs
  unfold decimal strInt
  rw [if_pos hsmall, Option.getD_some, ords_append]
  split_ifs with hneg
  · change number ('-'.toNat :: ords ((Nat.toDigits 10 n.natAbs).map .scalar)) = _
    rw [number, if_pos rfl, hdigits, Nat.ofDigitChars_ten_toDigits]
    congr 1
    rw [← Int.cast_natCast, ← Int.cast_neg]
    congr 1
    omega
  · have hrest : ords ((Nat.toDigits 10 n.natAbs).map .scalar) =
        (Nat.toDigits 10 n.natAbs).map Char.toNat := by
      rw [ords, List.map_map]
      rfl
    change number (ords ((Nat.toDigits 10 n.natAbs).map .scalar)) = _
    rw [← hrest] at hnatural
    generalize ords ((Nat.toDigits 10 n.natAbs).map .scalar) = text at hnatural hdigits
    cases text with
    | nil => cases hnatural
    | cons c ds =>
      have hminus : c ≠ '-'.toNat := by
        rintro rfl
        cases hnatural
      rw [number, if_neg hminus, hdigits, Nat.ofDigitChars_ten_toDigits]
      congr 1
      rw [← Int.cast_natCast]
      congr 1
      omega

/-- The text of an error with an emoji, a quote and a lone surrogate. -/
def detail : PyStr := [.scalar '😀', .scalar '"', point 0xD83D]

/-- A server whose decoder refuses every body. -/
def collaborators : Collaborators :=
  defaults id Pipeline.Sample.vendors (fun _ => none) (fun _ => .error detail) id
    Pipeline.Sample.anyApp (fun _ => .ok ⟨none⟩)
    (Wiring.mockWorld Pipeline.Sample.vendors fun _ => 0)

end Sample

/-- The detail of a refusal comes through, whatever it is made of. -/
theorem refusal_read_back :
    jsonParse Sample.number (wire [(py "error", .str (py "bad_request")),
      (py "detail", .str Sample.detail)]) =
    some (.object [(js "error", .string (js "bad_request")),
      (js "detail", .string [0xD83D, 0xDE00, 0x22, 0xD83D])]) := by
  have hread := (responses_read_back Sample.number Sample.collaborators none none [] {} 400
    [(py "error", .str (py "bad_request")), (py "detail", .str Sample.detail)] { quota := {} }
    Sample.exact_number rfl (by simp only [Counted, CountedFields, and_self])).1
  rw [hread]
  rfl

end ModelDispatcher.ResponseWire
