import ModelDispatcher.Lib.Text

/-!
JSON values and the text `json.dumps` writes for them, with its default separators and
`ensure_ascii`.
-/

namespace ModelDispatcher.Lib.Json

open Text

/-- A JSON value; a float is kept as the literal `json.dumps` prints for it. -/
inductive JSONValue
  | null
  | bool (b : Bool)
  | int (n : ℤ)
  | float (literal : String)
  | str (s : PyStr)
  | list (items : List JSONValue)
  | dict (fields : List (PyStr × JSONValue))

/-- A JSON object: what the code types as `dict[str, JSONValue]`. -/
abbrev JSONObject := List (PyStr × JSONValue)

/-! ### Escaping -/

/-- `\uXXXX` for a 16-bit code unit. -/
def unicodeEscape (n : ℕ) : PyStr :=
  let hex := Nat.toDigits 16 n
  py "\\u" ++ (List.replicate (4 - hex.length) '0' ++ hex).map .scalar

def escapeScalar (c : Char) : PyStr :=
  match c with
  | '"' => py "\\\""
  | '\\' => py "\\\\"
  | '\n' => py "\\n"
  | '\r' => py "\\r"
  | '\t' => py "\\t"
  | '\x08' => py "\\b"
  | '\x0c' => py "\\f"
  | c =>
    if 0x20 ≤ c.toNat ∧ c.toNat ≤ 0x7E then [.scalar c]
    else if c.toNat < 0x10000 then unicodeEscape c.toNat
    else
      let v := c.toNat - 0x10000
      unicodeEscape (0xD800 + v / 0x400) ++ unicodeEscape (0xDC00 + v % 0x400)

def escapeChar : PyChar → PyStr
  | .scalar c => escapeScalar c
  | .surrogate n => unicodeEscape (0xD800 + n)

def quote (s : PyStr) : PyStr := py "\"" ++ s.flatMap escapeChar ++ py "\""

/-! ### `json.dumps` -/

def commaSep : List PyStr → PyStr
  | [] => []
  | [s] => s
  | s :: t :: rest => s ++ py ", " ++ commaSep (t :: rest)

mutual

/-- The text of a value whose integers are all short enough to print. -/
def write : JSONValue → PyStr
  | .null => py "null"
  | .bool b => py (if b then "true" else "false")
  | .int n => (strInt n).getD []
  | .float literal => py literal
  | .str s => quote s
  | .list items => py "[" ++ commaSep (writeItems items) ++ py "]"
  | .dict fields => py "\x7b" ++ commaSep (writeFields fields) ++ py "\x7d"

def writeItems : List JSONValue → List PyStr
  | [] => []
  | v :: rest => write v :: writeItems rest

def writeFields : List (PyStr × JSONValue) → List PyStr
  | [] => []
  | (k, v) :: rest => (quote k ++ py ": " ++ write v) :: writeFields rest

end

mutual

/-- Every integer in the value is within the digit limit of `int.__repr__`. -/
def Printable : JSONValue → Bool
  | .int n => (strInt n).isSome
  | .list items => printableItems items
  | .dict fields => printableFields fields
  | _ => true

def printableItems : List JSONValue → Bool
  | [] => true
  | v :: rest => Printable v && printableItems rest

def printableFields : List (PyStr × JSONValue) → Bool
  | [] => true
  | (_, v) :: rest => Printable v && printableFields rest

end

/-- `json.dumps(v)`, with `none` for the `ValueError` of an integer past the digit limit. -/
def dumps (v : JSONValue) : Option PyStr := if Printable v then some (write v) else none

example : dumps (.dict [(py "a", .list [.int 1, .null]), (py "b", .str (py "x\n"))]) =
    some (py "\x7b\"a\": [1, null], \"b\": \"x\\n\"\x7d") := by decide +kernel

/-! ### The text is ASCII, so it encodes -/

lemma encodable_map_scalar (cs : List Char) : Utf8Encodable (cs.map .scalar) := by
  simp [Utf8Encodable, PyChar.isScalar]

lemma encodable_unicodeEscape (n : ℕ) : Utf8Encodable (unicodeEscape n) := by
  simp only [unicodeEscape, encodable_append]
  exact ⟨encodable_py _, encodable_map_scalar _⟩

lemma encodable_escapeChar (c : PyChar) : Utf8Encodable (escapeChar c) := by
  cases c with
  | surrogate n => exact encodable_unicodeEscape _
  | scalar c =>
    show Utf8Encodable (escapeScalar c)
    unfold escapeScalar
    split <;> try exact encodable_py _
    split_ifs
    · simp [Utf8Encodable, PyChar.isScalar]
    · exact encodable_unicodeEscape _
    · exact encodable_append.mpr ⟨encodable_unicodeEscape _, encodable_unicodeEscape _⟩

lemma encodable_quote (s : PyStr) : Utf8Encodable (quote s) := by
  simp only [quote, encodable_append]
  refine ⟨⟨encodable_py _, fun c hc => ?_⟩, encodable_py _⟩
  obtain ⟨d, -, hd⟩ := List.mem_flatMap.mp hc
  exact encodable_escapeChar d c hd

lemma encodable_strInt (n : ℤ) : Utf8Encodable ((strInt n).getD []) := by
  unfold strInt
  split_ifs
  · exact encodable_append.mpr ⟨encodable_py _, encodable_map_scalar _⟩
  · exact encodable_append.mpr ⟨encodable_nil, encodable_map_scalar _⟩
  · exact encodable_nil

lemma encodable_commaSep (ss : List PyStr) (h : ∀ s ∈ ss, Utf8Encodable s) :
    Utf8Encodable (commaSep ss) := by
  induction ss with
  | nil => exact encodable_nil
  | cons s rest ih =>
    rcases rest with _ | ⟨t, u⟩
    · exact h s (by simp)
    · simp only [commaSep, encodable_append]
      exact ⟨⟨h s (by simp), encodable_py _⟩, ih fun x hx => h x (by simp [hx])⟩

mutual

lemma encodable_write : ∀ v : JSONValue, Utf8Encodable (write v)
  | .null => encodable_py _
  | .bool _ => encodable_py _
  | .int n => encodable_strInt n
  | .float _ => encodable_py _
  | .str s => encodable_quote s
  | .list items => by
    simp only [write, encodable_append]
    exact ⟨⟨encodable_py _, encodable_commaSep _ (encodable_writeItems items)⟩, encodable_py _⟩
  | .dict fields => by
    simp only [write, encodable_append]
    exact ⟨⟨encodable_py _, encodable_commaSep _ (encodable_writeFields fields)⟩, encodable_py _⟩

lemma encodable_writeItems : ∀ items : List JSONValue, ∀ s ∈ writeItems items, Utf8Encodable s
  | [] => by simp [writeItems]
  | v :: rest => by
    simp only [writeItems, List.mem_cons, forall_eq_or_imp]
    exact ⟨encodable_write v, encodable_writeItems rest⟩

lemma encodable_writeFields :
    ∀ fields : List (PyStr × JSONValue), ∀ s ∈ writeFields fields, Utf8Encodable s
  | [] => by simp [writeFields]
  | (k, v) :: rest => by
    simp only [writeFields, List.mem_cons, forall_eq_or_imp, encodable_append]
    exact ⟨⟨⟨encodable_quote k, encodable_py _⟩, encodable_write v⟩, encodable_writeFields rest⟩

end

end ModelDispatcher.Lib.Json
