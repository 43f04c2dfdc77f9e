import Mathlib.Data.List.TakeDrop
import Mathlib.Data.List.TakeWhile
import Mathlib.Data.Nat.Notation
import Mathlib.Tactic.Lemma

/-!
The grammar of JSON texts: a parser into syntax trees, writers that differ in the blanks they put
after separators, and that the parser reads back what any of them wrote.

A text is a sequence of character codes, of whatever encoding; a tree keeps how each character of a
string and each number was written.
-/

namespace ModelDispatcher.Lib.JsonText

abbrev Codes := List ℕ

def codes (s : String) : Codes := s.toList.map Char.toNat

/-! ### Trees -/

/-- A character of a string: itself, or an escape of one letter, or `\uXXXX`. -/
inductive Glyph
  | raw (n : ℕ)
  | short (letter : ℕ)
  | unit (n : ℕ)
  deriving DecidableEq

inductive Tree
  | null
  | bool (b : Bool)
  | number (text : Codes)
  | string (s : List Glyph)
  | array (items : List Tree)
  | object (fields : List (List Glyph × Tree))

/-! ### Tokens -/

def isSpace (n : ℕ) : Bool := n = 0x20 || n = 0x9 || n = 0xA || n = 0xD

def skipSpace (text : Codes) : Codes := text.dropWhile isSpace

def isDigit (n : ℕ) : Bool := '0'.toNat ≤ n && n ≤ '9'.toNat

/-- One digit or more. -/
def digits (text : Codes) : Bool := text ≠ [] && text.all isDigit

/-- Digits without leading zeros. -/
def natural : Codes → Bool
  | [] => false
  | d :: ds => isDigit d && ds.all isDigit && (ds = [] || d ≠ '0'.toNat)

/-- A numeral without fraction and exponent. -/
def isInteger : Codes → Bool
  | [] => false
  | c :: rest => if c = '-'.toNat then natural rest else natural (c :: rest)

def fraction : Codes → Bool
  | [] => true
  | _ :: ds => digits ds

def exponent : Codes → Bool
  | [] => true
  | [_] => false
  | _ :: c :: ds => if c = '+'.toNat ∨ c = '-'.toNat then digits ds else digits (c :: ds)

def isNumeral (text : Codes) : Bool :=
  let (mantissa, e) := text.span fun n => n ≠ 'e'.toNat && n ≠ 'E'.toNat
  let (i, f) := mantissa.span fun n => n ≠ '.'.toNat
  isInteger i && fraction f && exponent e

/-- The characters a numeral is made of. -/
def numeralChar (n : ℕ) : Bool := isDigit n || (codes "+-.eE").contains n

def shortLetters : Codes := codes "\"\\/bfnrt"

/-- The character an escape of one letter stands for. -/
def shortCode (letter : ℕ) : ℕ :=
  if letter = 'b'.toNat then 0x8
  else if letter = 't'.toNat then 0x9
  else if letter = 'n'.toNat then 0xA
  else if letter = 'f'.toNat then 0xC
  else if letter = 'r'.toNat then 0xD
  else letter

def hexValue (n : ℕ) : Option ℕ :=
  if isDigit n then some (n - '0'.toNat)
  else if 'a'.toNat ≤ n ∧ n ≤ 'f'.toNat then some (n - 'a'.toNat + 10)
  else if 'A'.toNat ≤ n ∧ n ≤ 'F'.toNat then some (n - 'A'.toNat + 10)
  else none

def hex4 (a b c d : ℕ) : Option ℕ := do
  return ((((← hexValue a) * 16 + (← hexValue b)) * 16 + (← hexValue c)) * 16 + (← hexValue d))

/-! ### The parser -/

/-- The glyphs of a string up to the closing quote, and what is behind it. -/
def string : Codes → Option (List Glyph × Codes)
  | [] => none
  | c :: rest =>
    if c = '"'.toNat then some ([], rest)
    else if c = '\\'.toNat then
      match rest with
      | [] => none
      | letter :: rest =>
        if letter = 'u'.toNat then
          match rest with
          | a :: b :: c :: d :: rest => do
            let n ← hex4 a b c d
            let (s, rest) ← string rest
            return (.unit n :: s, rest)
          | _ => none
        else if shortLetters.contains letter then do
          let (s, rest) ← string rest
          return (.short letter :: s, rest)
        else none
    else if c < 0x20 then none
    else do
      let (s, rest) ← string rest
      return (.raw c :: s, rest)

/-- One of the three words. -/
def word (text : Codes) : Option (Tree × Codes) :=
  if (codes "null").isPrefixOf text then some (.null, text.drop 4)
  else if (codes "true").isPrefixOf text then some (.bool true, text.drop 4)
  else if (codes "false").isPrefixOf text then some (.bool false, text.drop 5)
  else none

def numeral (text : Codes) : Option (Tree × Codes) :=
  let (n, rest) := text.span numeralChar
  if isNumeral n then some (.number n, rest) else none

/-- What follows a separator or ends a sequence, after blanks: whether more is to come. -/
def separator (close : Char) (text : Codes) : Option (Bool × Codes) :=
  match skipSpace text with
  | [] => none
  | c :: rest =>
    if c = ','.toNat then some (true, skipSpace rest)
    else if c = close.toNat then some (false, rest)
    else none

/-- The key of a member and the colon behind it. -/
def key : Codes → Option (List Glyph × Codes)
  | [] => none
  | c :: rest =>
    if c = '"'.toNat then do
      let (s, rest) ← string rest
      match skipSpace rest with
      | [] => none
      | c :: rest => if c = ':'.toNat then some (s, skipSpace rest) else none
    else none

mutual

/-- The value a text begins with, and the rest; the fuel bounds the nesting. -/
def value : ℕ → Codes → Option (Tree × Codes)
  | 0, _ => none
  | _, [] => none
  | fuel + 1, c :: rest =>
    if c = '"'.toNat then do
      let (s, rest) ← string rest
      return (.string s, rest)
    else if c = '['.toNat then
      if (skipSpace rest).head? = some ']'.toNat then some (.array [], (skipSpace rest).tail)
      else do
        let (items, rest) ← elements fuel (skipSpace rest)
        return (.array items, rest)
    else if c = '\x7b'.toNat then
      if (skipSpace rest).head? = some '\x7d'.toNat then some (.object [], (skipSpace rest).tail)
      else do
        let (fields, rest) ← members fuel (skipSpace rest)
        return (.object fields, rest)
    else if numeralChar c then numeral (c :: rest)
    else word (c :: rest)

def elements : ℕ → Codes → Option (List Tree × Codes)
  | 0, _ => none
  | fuel + 1, text => do
    let (item, rest) ← value fuel text
    match ← separator ']' rest with
    | (false, rest) => return ([item], rest)
    | (true, rest) =>
      let (items, rest) ← elements fuel rest
      return (item :: items, rest)

def members : ℕ → Codes → Option (List (List Glyph × Tree) × Codes)
  | 0, _ => none
  | fuel + 1, text => do
    let (name, rest) ← key text
    let (item, rest) ← value fuel rest
    match ← separator '\x7d' rest with
    | (false, rest) => return ([(name, item)], rest)
    | (true, rest) =>
      let (fields, rest) ← members fuel rest
      return ((name, item) :: fields, rest)

end

/-- The tree of a whole text. -/
def parseText (text : Codes) : Option Tree := do
  let (tree, rest) ← value (2 * text.length + 2) (skipSpace text)
  if skipSpace rest = [] then return tree else none

/-! ### Writers -/

/-- The blanks behind a comma and behind a colon. -/
structure Style where
  comma : Codes
  colon : Codes
  comma_space : ∀ c ∈ comma, isSpace c
  colon_space : ∀ c ∈ colon, isSpace c

/-- `\uXXXX`, with small letters. -/
def hexDigit (n : ℕ) : ℕ := if n < 10 then '0'.toNat + n else 'a'.toNat + (n - 10)

def renderGlyph : Glyph → Codes
  | .raw n => [n]
  | .short letter => ['\\'.toNat, letter]
  | .unit n => ['\\'.toNat, 'u'.toNat, hexDigit (n / 0x1000 % 16), hexDigit (n / 0x100 % 16),
      hexDigit (n / 0x10 % 16), hexDigit (n % 16)]

def renderString (s : List Glyph) : Codes := '"'.toNat :: s.flatMap renderGlyph ++ ['"'.toNat]

section

variable (style : Style)

mutual

def renderTree : Tree → Codes
  | .null => codes "null"
  | .bool b => codes (if b then "true" else "false")
  | .number text => text
  | .string s => renderString s
  | .array items => '['.toNat :: renderItems items ++ [']'.toNat]
  | .object fields => '\x7b'.toNat :: renderFields fields ++ ['\x7d'.toNat]

def renderItems : List Tree → Codes
  | [] => []
  | t :: rest => renderTree t ++ renderMoreItems rest

def renderMoreItems : List Tree → Codes
  | [] => []
  | t :: rest => ','.toNat :: style.comma ++ (renderTree t ++ renderMoreItems rest)

def renderFields : List (List Glyph × Tree) → Codes
  | [] => []
  | (k, t) :: rest =>
    renderString k ++ ':'.toNat :: style.colon ++ (renderTree t ++ renderMoreFields rest)

def renderMoreFields : List (List Glyph × Tree) → Codes
  | [] => []
  | (k, t) :: rest => ','.toNat :: style.comma ++
      (renderString k ++ ':'.toNat :: style.colon ++ (renderTree t ++ renderMoreFields rest))

end

end

/-! ### What can be written, given the codes that may stand for themselves -/

section

variable (P : ℕ → Prop)

/-- The glyph stands for itself in a text. -/
def Glyph.Plain : Glyph → Prop
  | .raw n => 0x20 ≤ n ∧ n ≠ '"'.toNat ∧ n ≠ '\\'.toNat ∧ P n
  | .short letter => letter ∈ shortLetters
  | .unit n => n < 0x10000

mutual

/-- Strings are made of plain glyphs, and numbers are numerals. -/
def Plain : Tree → Prop
  | .null | .bool _ => True
  | .number text => isNumeral text ∧ ∀ c ∈ text, numeralChar c
  | .string s => ∀ g ∈ s, g.Plain P
  | .array items => PlainItems items
  | .object fields => PlainFields fields

def PlainItems : List Tree → Prop
  | [] => True
  | t :: rest => Plain t ∧ PlainItems rest

def PlainFields : List (List Glyph × Tree) → Prop
  | [] => True
  | (k, t) :: rest => (∀ g ∈ k, g.Plain P) ∧ Plain t ∧ PlainFields rest

end

end

lemma isDigit_chars {text : Codes} (h : text.all isDigit) : ∀ c ∈ text,
    numeralChar c ∧ c ≠ '.'.toNat ∧ c ≠ 'e'.toNat ∧ c ≠ 'E'.toNat := by
  intro c hc
  have hdigit : isDigit c := List.all_eq_true.mp h c hc
  refine ⟨by simp [numeralChar, hdigit], ?_, ?_, ?_⟩ <;>
    (rintro rfl; revert hdigit; decide)

lemma digits_of_natural {text : Codes} (h : natural text) : text.all isDigit := by
  cases text with
  | nil => rfl
  | cons d ds =>
    simp only [natural, Bool.and_eq_true] at h
    rw [List.all_cons, h.1.1, h.1.2]
    rfl

/-- An integer is a numeral. -/
lemma isNumeral_of_isInteger {text : Codes} (h : isInteger text) :
    isNumeral text ∧ ∀ c ∈ text, numeralChar c := by
  have hchars : ∀ c ∈ text, numeralChar c ∧ c ≠ '.'.toNat ∧ c ≠ 'e'.toNat ∧ c ≠ 'E'.toNat := by
    cases text with
    | nil => nofun
    | cons c rest =>
      rw [isInteger] at h
      split_ifs at h with hminus
      · subst hminus
        refine List.forall_mem_cons.mpr ⟨by decide, isDigit_chars (digits_of_natural h)⟩
      · exact isDigit_chars (digits_of_natural h)
  have hspan : ∀ p : ℕ → Bool, (∀ c ∈ text, p c) → text.span p = (text, []) := by
    intro p hp
    rw [List.span_eq_takeWhile_dropWhile, List.dropWhile_eq_nil_iff.mpr hp]
    have htake := List.takeWhile_append_dropWhile (p := p) (l := text)
    rw [List.dropWhile_eq_nil_iff.mpr hp, List.append_nil] at htake
    rw [htake]
  refine ⟨?_, fun c hc => (hchars c hc).1⟩
  have he := hspan (fun n => n ≠ 'e'.toNat && n ≠ 'E'.toNat) fun c hc => by
    obtain ⟨-, -, hsmall, hlarge⟩ := hchars c hc
    rw [decide_eq_true hsmall, decide_eq_true hlarge]
    rfl
  have hdot := hspan (fun n => n ≠ '.'.toNat) fun c hc => decide_eq_true (hchars c hc).2.1
  simp only [isNumeral, he, hdot, h, fraction, exponent, Bool.and_self]

/-! ### Reading back -/

variable {P : ℕ → Prop}

lemma hexValue_hexDigit {n : ℕ} (h : n < 16) : hexValue (hexDigit n) = some n := by
  revert h
  revert n
  decide

lemma hex4_hexDigits {n : ℕ} (h : n < 0x10000) :
    hex4 (hexDigit (n / 0x1000 % 16)) (hexDigit (n / 0x100 % 16)) (hexDigit (n / 0x10 % 16))
      (hexDigit (n % 16)) = some n := by
  have hmod : ∀ m : ℕ, m % 16 < 16 := fun m => Nat.mod_lt m (by omega)
  simp only [hex4, hexValue_hexDigit (hmod _), Option.bind_eq_bind, Option.bind_some,
    Option.pure_def]
  congr 1
  omega

/-- A glyph in front of a string. -/
lemma string_renderGlyph {p : Glyph} (h : p.Plain P) (text : Codes) :
    string (renderGlyph p ++ text) = (string text).map fun (s, rest) => (p :: s, rest) := by
  have hslash : '\\'.toNat ≠ '"'.toNat := by decide
  cases p with
  | raw n =>
    obtain ⟨hlow, hquote, hslash, -⟩ := h
    rw [renderGlyph, List.singleton_append, string.eq_def]
    dsimp only
    rw [if_neg hquote, if_neg hslash, if_neg (Nat.not_lt.mpr hlow)]
    cases string text <;> rfl
  | short letter =>
    have hmem : shortLetters.contains letter := List.contains_iff_mem.mpr h
    have hunit : letter ≠ 'u'.toNat := by
      rintro rfl
      revert hmem
      decide
    rw [renderGlyph, List.cons_append, List.singleton_append, string.eq_def]
    dsimp only
    rw [if_neg hslash, if_pos rfl, if_neg hunit, if_pos hmem]
    cases string text <;> rfl
  | unit n =>
    rw [renderGlyph, string.eq_def]
    dsimp only [List.cons_append, List.nil_append]
    rw [if_neg hslash, if_pos rfl, if_pos rfl, hex4_hexDigits h]
    cases string text <;> rfl

/-- The induction is on the glyphs. -/
lemma string_render {s : List Glyph} (h : ∀ g ∈ s, g.Plain P) (text : Codes) :
    string (s.flatMap renderGlyph ++ ['"'.toNat] ++ text) = some (s, text) := by
  induction s with
  | nil =>
    rw [List.flatMap_nil, List.nil_append, List.singleton_append, string.eq_def]
    rfl
  | cons p s ih =>
    rw [List.flatMap_cons, List.append_assoc, List.append_assoc,
      string_renderGlyph (h p (by simp)), ← List.append_assoc,
      ih fun q hq => h q (by simp [hq])]
    rfl

section

variable {style : Style}

/-- The text goes on with no character of a numeral. -/
def Stops (text : Codes) : Prop := ∀ c ∈ text.head?, numeralChar c = false

lemma stops_cons {c : ℕ} {text : Codes} (h : numeralChar c = false) : Stops (c :: text) := by
  intro d hd
  obtain rfl := Option.mem_some_iff.mp hd
  exact h

lemma skipSpace_append {blanks text : Codes} (h : ∀ c ∈ blanks, isSpace c) :
    skipSpace (blanks ++ text) = skipSpace text := by
  rw [skipSpace, List.dropWhile_append_of_pos h, skipSpace]

lemma skipSpace_cons {c : ℕ} {text : Codes} (h : isSpace c = false) :
    skipSpace (c :: text) = c :: text := by
  simp [skipSpace, h]

/-- What a value begins with. -/
def opens (c : ℕ) : Bool := !isSpace c && c ≠ ']'.toNat

lemma opens_of_numeralChar {c : ℕ} (h : numeralChar c) : opens c := by
  have hcases : isDigit c ∨ c ∈ codes "+-.eE" := by simpa [numeralChar] using h
  rcases hcases with h | h
  · simp only [isDigit, Bool.and_eq_true, decide_eq_true_eq] at h
    have hlow : 48 ≤ c := h.1
    have hhigh : c ≤ 57 := h.2
    have hne : c ≠ 93 := by omega
    simp only [opens, isSpace, Bool.and_eq_true, Bool.not_eq_true', Bool.or_eq_false_iff,
      decide_eq_false_iff_not, decide_eq_true_eq]
    exact ⟨by omega, hne⟩
  · have hall : ∀ d ∈ codes "+-.eE", opens d := by decide
    exact hall c h

lemma isNumeral_ne_nil {text : Codes} (h : isNumeral text) : text ≠ [] := by
  rintro rfl
  cases h

variable (style) in
/-- A value begins with a character that opens one. -/
lemma render_cons {t : Tree} (h : Plain P t) :
    ∃ c rest, renderTree style t = c :: rest ∧ opens c := by
  cases t with
  | null => exact ⟨_, _, rfl, by decide⟩
  | bool b => cases b <;> exact ⟨_, _, rfl, by decide⟩
  | number text =>
    simp only [Plain] at h
    obtain ⟨hnumeral, hchars⟩ := h
    obtain ⟨c, rest, rfl⟩ := List.exists_cons_of_ne_nil (isNumeral_ne_nil hnumeral)
    exact ⟨c, rest, by rw [renderTree], opens_of_numeralChar (hchars c (by simp))⟩
  | string s => exact ⟨_, _, by rw [renderTree, renderString]; rfl, by decide⟩
  | array items => exact ⟨_, _, by rw [renderTree]; rfl, by decide⟩
  | object fields => exact ⟨_, _, by rw [renderTree]; rfl, by decide⟩

lemma skipSpace_render {t : Tree} (h : Plain P t) (text : Codes) :
    skipSpace (renderTree style t ++ text) = renderTree style t ++ text := by
  obtain ⟨c, rest, hrender, hopens⟩ := render_cons style h
  rw [hrender, List.cons_append, skipSpace_cons]
  simp only [opens, Bool.and_eq_true, Bool.not_eq_true'] at hopens
  exact hopens.1

lemma separator_close (close : Char) (hcomma : close.toNat ≠ ','.toNat)
    (hspace : isSpace close.toNat = false) (text : Codes) :
    separator close (close.toNat :: text) = some (false, text) := by
  rw [separator, skipSpace_cons hspace]
  dsimp only
  rw [if_neg hcomma, if_pos rfl]

lemma separator_comma (close : Char) {blanks text : Codes} (h : ∀ c ∈ blanks, isSpace c)
    (htext : skipSpace text = text) :
    separator close (','.toNat :: blanks ++ text) = some (true, text) := by
  rw [List.cons_append, separator, skipSpace_cons (by decide)]
  dsimp only
  rw [if_pos rfl, skipSpace_append h, htext]

lemma key_render {k : List Glyph} (hk : ∀ g ∈ k, g.Plain P) {text : Codes}
    (htext : skipSpace text = text) :
    key (renderString k ++ ':'.toNat :: style.colon ++ text) = some (k, text) := by
  have hstring : string (k.flatMap renderGlyph ++ ['"'.toNat] ++
      (':'.toNat :: style.colon ++ text)) = some (k, ':'.toNat :: style.colon ++ text) :=
    string_render hk _
  rw [List.append_assoc, renderString, List.cons_append, List.cons_append, key.eq_def]
  dsimp only
  rw [if_pos rfl, hstring]
  change (match skipSpace (':'.toNat :: style.colon ++ text) with
    | [] => none
    | c :: rest => if c = ':'.toNat then some (k, skipSpace rest) else none) = _
  rw [List.cons_append, skipSpace_cons (by decide)]
  dsimp only
  rw [if_pos rfl, skipSpace_append style.colon_space, htext]

/-- The rest of a sequence that goes on begins with a comma. -/
lemma renderItems_more (t u : Tree) (rest : List Tree) : renderItems style (t :: u :: rest) =
    renderTree style t ++ (','.toNat :: style.comma ++ renderItems style (u :: rest)) := by
  rw [renderItems, renderMoreItems, renderItems]

lemma renderFields_more (k l : List Glyph) (t u : Tree) (rest : List (List Glyph × Tree)) :
    renderFields style ((k, t) :: (l, u) :: rest) =
      renderString k ++ ':'.toNat :: style.colon ++
        (renderTree style t ++
          (','.toNat :: style.comma ++ renderFields style ((l, u) :: rest))) := by
  rw [renderFields, renderMoreFields, renderFields]

lemma span_numeral {n text : Codes} (h : ∀ c ∈ n, numeralChar c) (htext : Stops text) :
    (n ++ text).span numeralChar = (n, text) := by
  have hnone : text.takeWhile numeralChar = [] ∧ text.dropWhile numeralChar = text := by
    cases text with
    | nil => exact ⟨rfl, rfl⟩
    | cons c rest => simp [htext c rfl]
  rw [List.span_eq_takeWhile_dropWhile, List.takeWhile_append_of_pos h,
    List.dropWhile_append_of_pos h, hnone.1, hnone.2, List.append_nil]

/-! The ways a sequence goes on. -/

lemma elements_last {fuel : ℕ} {text rest after : Codes} {item : Tree}
    (hvalue : value fuel text = some (item, rest))
    (hclose : separator ']' rest = some (false, after)) :
    elements (fuel + 1) text = some ([item], after) := by
  simp [elements, hvalue, hclose]

lemma elements_more {fuel : ℕ} {text rest more after : Codes} {item : Tree} {items : List Tree}
    (hvalue : value fuel text = some (item, rest))
    (hcomma : separator ']' rest = some (true, more))
    (hitems : elements fuel more = some (items, after)) :
    elements (fuel + 1) text = some (item :: items, after) := by
  simp [elements, hvalue, hcomma, hitems]

lemma members_last {fuel : ℕ} {text keyed rest after : Codes} {k : List Glyph} {item : Tree}
    (hkey : key text = some (k, keyed)) (hvalue : value fuel keyed = some (item, rest))
    (hclose : separator '\x7d' rest = some (false, after)) :
    members (fuel + 1) text = some ([(k, item)], after) := by
  simp [members, hkey, hvalue, hclose]

lemma members_more {fuel : ℕ} {text keyed rest more after : Codes} {k : List Glyph} {item : Tree}
    {fields : List (List Glyph × Tree)} (hkey : key text = some (k, keyed))
    (hvalue : value fuel keyed = some (item, rest))
    (hcomma : separator '\x7d' rest = some (true, more))
    (hfields : members fuel more = some (fields, after)) :
    members (fuel + 1) text = some ((k, item) :: fields, after) := by
  simp [members, hkey, hvalue, hcomma, hfields]

variable (style) in
lemma length_render_pos {t : Tree} (h : Plain P t) : 0 < (renderTree style t).length := by
  obtain ⟨c, rest, hrender, -⟩ := render_cons style h
  simp [hrender]

mutual

/-- A value that was written is read, whatever follows it; the nesting is below the length. -/
lemma value_render : ∀ (t : Tree) (fuel : ℕ) (text : Codes), Plain P t →
    2 * (renderTree style t).length ≤ fuel → Stops text →
      value fuel (renderTree style t ++ text) = some (t, text)
  | t, 0, text, h, hfuel, _ => by
    obtain ⟨c, rest, hrender, -⟩ := render_cons style h
    rw [hrender, List.length_cons] at hfuel
    omega
  | .null, fuel + 1, text, _, _, _ => rfl
  | .bool true, fuel + 1, text, _, _, _ => rfl
  | .bool false, fuel + 1, text, _, _, _ => rfl
  | .number n, fuel + 1, text, h, _, htext => by
    simp only [Plain] at h
    obtain ⟨hnumeral, hchars⟩ := h
    have hspan := span_numeral hchars htext
    obtain ⟨c, rest, rfl⟩ := List.exists_cons_of_ne_nil (isNumeral_ne_nil hnumeral)
    have hc : numeralChar c := hchars c (by simp)
    have hquote : c ≠ '"'.toNat := by rintro rfl; revert hc; decide
    have hbracket : c ≠ '['.toNat := by rintro rfl; revert hc; decide
    have hbrace : c ≠ '\x7b'.toNat := by rintro rfl; revert hc; decide
    rw [renderTree, List.cons_append, value, if_neg hquote, if_neg hbracket, if_neg hbrace,
      if_pos hc,
      numeral, ← List.cons_append, hspan]
    dsimp only
    rw [if_pos hnumeral]
  | .string s, fuel + 1, text, h, _, _ => by
    simp only [Plain] at h
    rw [renderTree, renderString, List.cons_append, List.cons_append, value, if_pos rfl,
      string_render h]
    rfl
  | .array [], fuel + 1, text, _, _, _ => rfl
  | .array (t :: rest), fuel + 1, text, h, hfuel, _ => by
    simp only [Plain, PlainItems] at h
    obtain ⟨c, more, hrender, hopens⟩ := render_cons style h.1
    have hitems := elements_render (t :: rest) (by simp) fuel text ⟨h.1, h.2⟩ (by
      rw [renderTree, List.length_append, List.length_cons, List.length_singleton] at hfuel
      omega)
    have hskip : skipSpace (renderItems style (t :: rest) ++ ']'.toNat :: text) =
        renderItems style (t :: rest) ++ ']'.toNat :: text := by
      rw [renderItems, List.append_assoc, skipSpace_render h.1]
    have hhead : (renderItems style (t :: rest) ++ ']'.toNat :: text).head? ≠ some ']'.toNat := by
      rw [renderItems, hrender]
      intro heq
      cases heq
      revert hopens
      decide
    rw [renderTree, List.cons_append, List.cons_append, List.append_assoc, List.singleton_append,
      value,
      if_neg (by decide), if_pos rfl, hskip, if_neg hhead, hitems]
    rfl
  | .object [], fuel + 1, text, _, _, _ => rfl
  | .object ((k, t) :: rest), fuel + 1, text, h, hfuel, _ => by
    simp only [Plain] at h
    have hfields := members_render ((k, t) :: rest) (by simp) fuel text h (by
      rw [renderTree, List.length_append, List.length_cons, List.length_singleton] at hfuel
      omega)
    have hskip : skipSpace (renderFields style ((k, t) :: rest) ++ '\x7d'.toNat :: text) =
        renderFields style ((k, t) :: rest) ++ '\x7d'.toNat :: text := by
      rw [renderFields, renderString]
      exact skipSpace_cons (by decide)
    have hhead : (renderFields style ((k, t) :: rest) ++ '\x7d'.toNat :: text).head? ≠
        some '\x7d'.toNat := by
      rw [renderFields, renderString]
      intro heq
      cases heq
    rw [renderTree, List.cons_append, List.cons_append, List.append_assoc, List.singleton_append,
      value,
      if_neg (by decide), if_neg (by decide), if_pos rfl, hskip, if_neg hhead, hfields]
    rfl

lemma elements_render : ∀ (items : List Tree), items ≠ [] → ∀ (fuel : ℕ) (text : Codes),
    PlainItems P items → 2 * (renderItems style items).length + 1 ≤ fuel →
      elements fuel (renderItems style items ++ ']'.toNat :: text) = some (items, text)
  | [], h, _, _, _, _ => absurd rfl h
  | t :: rest, _, 0, _, _, hfuel => by omega
  | [t], _, fuel + 1, text, h, hfuel => by
    simp only [PlainItems] at h
    rw [renderItems, renderMoreItems, List.append_nil] at hfuel ⊢
    exact elements_last (value_render t fuel _ h.1 (by omega) (stops_cons (by decide)))
      (separator_close ']' (by decide) (by decide) text)
  | t :: u :: rest, _, fuel + 1, text, h, hfuel => by
    simp only [PlainItems] at h
    obtain ⟨ht, hu, hrest⟩ := h
    have hpos := length_render_pos style ht
    rw [renderItems_more] at hfuel ⊢
    simp only [List.length_append, List.length_cons] at hfuel
    have hskip : skipSpace (renderItems style (u :: rest) ++ ']'.toNat :: text) =
        renderItems style (u :: rest) ++ ']'.toNat :: text := by
      rw [renderItems, List.append_assoc, skipSpace_render hu]
    rw [List.append_assoc, List.append_assoc]
    exact elements_more (value_render t fuel _ ht (by omega) (stops_cons (by decide)))
      (separator_comma ']' style.comma_space hskip)
      (elements_render (u :: rest) (by simp) fuel text ⟨hu, hrest⟩ (by omega))

lemma members_render : ∀ (fields : List (List Glyph × Tree)), fields ≠ [] →
    ∀ (fuel : ℕ) (text : Codes), PlainFields P fields →
      2 * (renderFields style fields).length + 1 ≤ fuel →
        members fuel (renderFields style fields ++ '\x7d'.toNat :: text) = some (fields, text)
  | [], h, _, _, _, _ => absurd rfl h
  | _ :: rest, _, 0, _, _, hfuel => by omega
  | [(k, t)], _, fuel + 1, text, h, hfuel => by
    simp only [PlainFields] at h
    obtain ⟨hk, ht, -⟩ := h
    rw [renderFields, renderMoreFields, List.append_nil] at hfuel ⊢
    simp only [List.length_append, List.length_cons] at hfuel
    rw [List.append_assoc]
    exact members_last (key_render hk (skipSpace_render ht _))
      (value_render t fuel _ ht (by omega) (stops_cons (by decide)))
      (separator_close '\x7d' (by decide) (by decide) text)
  | (k, t) :: (l, u) :: rest, _, fuel + 1, text, h, hfuel => by
    simp only [PlainFields] at h
    obtain ⟨hk, ht, hl, hu, hrest⟩ := h
    have hpos := length_render_pos style ht
    rw [renderFields_more] at hfuel ⊢
    simp only [List.length_append, List.length_cons] at hfuel
    have hskip : skipSpace (renderFields style ((l, u) :: rest) ++ '\x7d'.toNat :: text) =
        renderFields style ((l, u) :: rest) ++ '\x7d'.toNat :: text := by
      rw [renderFields, renderString]
      exact skipSpace_cons (by decide)
    have hsplit : ∀ more : Codes, renderString k ++ ':'.toNat :: style.colon ++
        (renderTree style t ++
          (','.toNat :: style.comma ++ renderFields style ((l, u) :: rest))) ++ more =
          renderString k ++ ':'.toNat :: style.colon ++
            (renderTree style t ++ (','.toNat :: style.comma ++
              (renderFields style ((l, u) :: rest) ++ more))) := by simp
    rw [hsplit]
    exact members_more (key_render hk (skipSpace_render ht _))
      (value_render t fuel _ ht (by omega) (stops_cons (by decide)))
      (separator_comma '\x7d' style.comma_space hskip)
      (members_render ((l, u) :: rest) (by simp) fuel text ⟨hl, hu, hrest⟩ (by omega))

end

/-- **The parser reads back what was written**, in every style. -/
theorem parseText_render {t : Tree} (h : Plain P t) : parseText (renderTree style t) = some t := by
  have hskip : skipSpace (renderTree style t ++ []) = renderTree style t ++ [] :=
    skipSpace_render h []
  have hvalue : value (2 * (renderTree style t).length + 2) (renderTree style t ++ []) =
      some (t, []) :=
    value_render t _ [] h (by omega) nofun
  rw [List.append_nil] at hvalue hskip
  rw [parseText, hskip, hvalue]
  rfl

/-! ### The characters of a text -/

lemma lt_of_isSpace {n : ℕ} (h : isSpace n) : n < 0x80 := by
  simp only [isSpace, Bool.or_eq_true, decide_eq_true_eq] at h
  omega

lemma lt_of_numeralChar {n : ℕ} (h : numeralChar n) : n < 0x80 := by
  have hcases : isDigit n ∨ n ∈ codes "+-.eE" := by simpa [numeralChar] using h
  rcases hcases with h | h
  · simp only [isDigit, Bool.and_eq_true, decide_eq_true_eq] at h
    exact h.2.trans_lt (by decide)
  · have hall : ∀ d ∈ codes "+-.eE", d < 0x80 := by decide
    exact hall n h

lemma mem_renderGlyph {g : Glyph} (h : g.Plain P) : ∀ n ∈ renderGlyph g, n < 0x80 ∨ P n := by
  cases g with
  | raw m =>
    intro n hn
    obtain rfl := List.mem_singleton.mp hn
    exact .inr h.2.2.2
  | short letter =>
    have hall : ∀ letter ∈ shortLetters, ∀ n ∈ renderGlyph (.short letter), n < 0x80 := by decide
    exact fun n hn => .inl (hall letter h n hn)
  | unit m =>
    have hhex : ∀ d < 16, hexDigit d < 0x80 := by decide
    intro n hn
    simp only [renderGlyph, List.mem_cons, List.not_mem_nil, or_false] at hn
    left
    rcases hn with rfl | rfl | rfl | rfl | rfl | rfl
    · decide
    · decide
    all_goals exact hhex _ (Nat.mod_lt _ (by omega))

lemma mem_renderString {s : List Glyph} (h : ∀ g ∈ s, g.Plain P) :
    ∀ n ∈ renderString s, n < 0x80 ∨ P n := by
  intro n hn
  rw [renderString, List.cons_append, List.mem_cons, List.mem_append, List.mem_singleton] at hn
  rcases hn with rfl | hn | rfl
  · exact .inl (by decide)
  · obtain ⟨g, hg, hn⟩ := List.mem_flatMap.mp hn
    exact mem_renderGlyph (h g hg) n hn
  · exact .inl (by decide)

/-- A punctuation mark and the blanks behind it. -/
lemma mem_punctuation {c n : ℕ} {blanks : Codes} (hc : c < 0x80) (hblanks : ∀ b ∈ blanks, isSpace b)
    (h : n ∈ c :: blanks) : n < 0x80 := by
  rcases List.mem_cons.mp h with rfl | h
  · exact hc
  · exact lt_of_isSpace (hblanks n h)

mutual

/-- A text is ASCII, but for the codes that stand for themselves. -/
lemma mem_renderTree : ∀ t : Tree, Plain P t → ∀ n ∈ renderTree style t, n < 0x80 ∨ P n
  | .null, _ => fun n hn => by
    have hall : ∀ n ∈ codes "null", n < 0x80 := by decide
    exact .inl (hall n hn)
  | .bool b, _ => fun n hn => by
    have hall : ∀ b : Bool, ∀ n ∈ codes (if b then "true" else "false"), n < 0x80 := by decide
    exact .inl (hall b n hn)
  | .number text, h => fun n hn => by
    simp only [Plain] at h
    rw [renderTree] at hn
    exact .inl (lt_of_numeralChar (h.2 n hn))
  | .string s, h => fun n hn => by
    simp only [Plain] at h
    rw [renderTree] at hn
    exact mem_renderString h n hn
  | .array items, h => fun n hn => by
    simp only [Plain] at h
    rw [renderTree, List.cons_append, List.mem_cons, List.mem_append, List.mem_singleton] at hn
    rcases hn with rfl | hn | rfl
    · exact .inl (by decide)
    · exact mem_renderItems items h n hn
    · exact .inl (by decide)
  | .object fields, h => fun n hn => by
    simp only [Plain] at h
    rw [renderTree, List.cons_append, List.mem_cons, List.mem_append, List.mem_singleton] at hn
    rcases hn with rfl | hn | rfl
    · exact .inl (by decide)
    · exact mem_renderFields fields h n hn
    · exact .inl (by decide)

lemma mem_renderItems : ∀ items : List Tree, PlainItems P items →
    ∀ n ∈ renderItems style items, n < 0x80 ∨ P n
  | [], _ => nofun
  | [t], h => fun n hn => by
    simp only [PlainItems] at h
    rw [renderItems, renderMoreItems, List.append_nil] at hn
    exact mem_renderTree t h.1 n hn
  | t :: u :: rest, h => fun n hn => by
    have hrest := mem_renderItems (u :: rest)
    simp only [PlainItems] at h hrest
    rw [renderItems_more, List.mem_append, List.mem_append] at hn
    rcases hn with hn | hn | hn
    · exact mem_renderTree t h.1 n hn
    · exact .inl (mem_punctuation (by decide) style.comma_space hn)
    · exact hrest h.2 n hn

lemma mem_renderFields : ∀ fields : List (List Glyph × Tree), PlainFields P fields →
    ∀ n ∈ renderFields style fields, n < 0x80 ∨ P n
  | [], _ => nofun
  | [(k, t)], h => fun n hn => by
    simp only [PlainFields] at h
    rw [renderFields, renderMoreFields, List.append_nil, List.mem_append, List.mem_append] at hn
    rcases hn with (hn | hn) | hn
    · exact mem_renderString h.1 n hn
    · exact .inl (mem_punctuation (by decide) style.colon_space hn)
    · exact mem_renderTree t h.2.1 n hn
  | (k, t) :: (l, u) :: rest, h => fun n hn => by
    have hrest := mem_renderFields ((l, u) :: rest)
    simp only [PlainFields] at h hrest
    rw [renderFields_more, List.mem_append, List.mem_append, List.mem_append,
      List.mem_append] at hn
    rcases hn with (hn | hn) | hn | hn | hn
    · exact mem_renderString h.1 n hn
    · exact .inl (mem_punctuation (by decide) style.colon_space hn)
    · exact mem_renderTree t h.2.1 n hn
    · exact .inl (mem_punctuation (by decide) style.comma_space hn)
    · exact hrest h.2.2 n hn

end

end

end ModelDispatcher.Lib.JsonText
