import ModelDispatcher.Lib.CodePoints

/-!
URLs: percent-encoding, the parameters of a query, and the components of an address.

A decoder reads back what an encoder wrote, and what is encoded never ends a component early.
-/

namespace ModelDispatcher.Lib.Urls

open Text Js CodePoints

/-- A property of the elements of a list, checked on the list and not on the whole type. -/
lemma forall_of_all {α : Type} {s : List α} {P : α → Prop} [DecidablePred P]
    (h : s.all (fun u => decide (P u)) = true) : ∀ u ∈ s, P u :=
  fun u hu => of_decide_eq_true (List.all_eq_true.mp h u hu)

/-! ### Percent-encoding -/

/-- An upper-case hexadecimal digit. -/
def hexDigit (n : ℕ) : UInt16 := (if n < 10 then 0x30 + n else 0x37 + n).toUInt16

def hexValue (u : UInt16) : Option ℕ :=
  if 0x30 ≤ u.toNat ∧ u.toNat ≤ 0x39 then some (u.toNat - 0x30)
  else if 0x41 ≤ u.toNat ∧ u.toNat ≤ 0x46 then some (u.toNat - 0x37)
  else if 0x61 ≤ u.toNat ∧ u.toNat ≤ 0x66 then some (u.toNat - 0x57)
  else none

def percentByte (b : UInt8) : JsStr := [0x25, hexDigit (b.toNat / 16), hexDigit (b.toNat % 16)]

/-- The bytes with all but the kept ones escaped. -/
def percentEncode (kept : UInt8 → Bool) (bytes : List UInt8) : JsStr :=
  bytes.flatMap fun b => if kept b then [b.toUInt16] else percentByte b

/-- The byte of an escape. -/
def escape (u high low : UInt16) : Option UInt8 := do
  let h ← hexValue high
  let l ← hexValue low
  if u = 0x25 then some (16 * h + l).toUInt8 else none

/-- The bytes of an ASCII text, with its escapes undone. -/
def percentDecode : JsStr → List UInt8
  | u :: high :: low :: rest =>
    match escape u high low with
    | some b => b :: percentDecode rest
    | none => u.toUInt8 :: percentDecode (high :: low :: rest)
  | u :: rest => u.toUInt8 :: percentDecode rest
  | [] => []

/-- What is kept is ASCII, and does not begin an escape. -/
structure Kept (kept : UInt8 → Bool) : Prop where
  ascii : ∀ b, kept b → b < 0x80
  percent : kept 0x25 = false

lemma hexValue_hexDigit {n : ℕ} (h : n < 16) : hexValue (hexDigit n) = some n := by
  have hall : ∀ n < 16, hexValue (hexDigit n) = some n := by decide
  exact hall n h

lemma percentDecode_percentByte (b : UInt8) (rest : JsStr) :
    percentDecode (percentByte b ++ rest) = b :: percentDecode rest := by
  have hb := b.toNat_lt
  have hsum : 16 * (b.toNat / 16) + b.toNat % 16 = b.toNat := by omega
  have hescape : escape 0x25 (hexDigit (b.toNat / 16)) (hexDigit (b.toNat % 16)) = some b := by
    rw [escape, hexValue_hexDigit (by omega), hexValue_hexDigit (by omega)]
    change some (16 * (b.toNat / 16) + b.toNat % 16).toUInt8 = _
    rw [hsum]
    simp
  change percentDecode (_ :: _ :: _ :: rest) = _
  rw [percentDecode, hescape]

lemma percentDecode_cons {u : UInt16} (h : u ≠ 0x25) (rest : JsStr) :
    percentDecode (u :: rest) = u.toUInt8 :: percentDecode rest := by
  rcases rest with _ | ⟨high, _ | ⟨low, rest⟩⟩
  · rfl
  · rfl
  · have hescape : escape u high low = none := by
      simp [escape, h]
    rw [percentDecode, hescape]

/-- A byte is read back, escaped or not. -/
lemma percentDecode_encodeByte {kept : UInt8 → Bool} (hkept : Kept kept) (b : UInt8)
    (rest : JsStr) :
    percentDecode ((if kept b then [b.toUInt16] else percentByte b) ++ rest) =
      b :: percentDecode rest := by
  split_ifs with hb
  · have hpercent : b.toUInt16 ≠ 0x25 := by
      intro h
      have hbyte : b = 0x25 := by
        rw [← UInt8.toUInt8_toUInt16 b, h]
        rfl
      rw [hbyte, hkept.percent] at hb
      cases hb
    rw [List.singleton_append, percentDecode_cons hpercent, UInt8.toUInt8_toUInt16]
  · exact percentDecode_percentByte b rest

lemma percentDecode_percentEncode {kept : UInt8 → Bool} (hkept : Kept kept) (bytes : List UInt8) :
    percentDecode (percentEncode kept bytes) = bytes := by
  induction bytes with
  | nil => rfl
  | cons b bytes ih =>
    rw [percentEncode, List.flatMap_cons, percentDecode_encodeByte hkept]
    exact congrArg (b :: ·) ih

/-- An escape is made of a percent sign and digits. -/
lemma mem_percentByte {b : UInt8} {u : UInt16} (h : u ∈ percentByte b) :
    u = 0x25 ∨ (hexValue u).isSome := by
  have hb := b.toNat_lt
  rcases List.mem_cons.mp h with rfl | h
  · exact .inl rfl
  · refine .inr ?_
    rcases List.mem_cons.mp h with rfl | h
    · rw [hexValue_hexDigit (by omega), Option.isSome_some]
    · rw [List.mem_singleton.mp h, hexValue_hexDigit (by omega), Option.isSome_some]

/-- What is neither kept nor part of an escape does not occur. -/
lemma not_mem_percentEncode {kept : UInt8 → Bool} {u : UInt16} (hkept : kept u.toUInt8 = false)
    (hescape : u ≠ 0x25 ∧ hexValue u = none) (bytes : List UInt8) :
    u ∉ percentEncode kept bytes := by
  intro h
  obtain ⟨b, -, hb⟩ := List.mem_flatMap.mp h
  split_ifs at hb with hkeep
  · rw [List.mem_singleton.mp hb, UInt8.toUInt8_toUInt16, hkeep] at hkept
    cases hkept
  · rcases mem_percentByte hb with h | h
    · exact hescape.1 h
    · rw [hescape.2] at h
      cases h

/-! ### Components -/

def isAlphanumeric (b : UInt8) : Bool :=
  (0x30 ≤ b && b ≤ 0x39) || (0x41 ≤ b && b ≤ 0x5A) || (0x61 ≤ b && b ≤ 0x7A)

/-- What `encodeURIComponent` keeps: letters, digits, and `-_.!~*'()`. -/
def unreserved (b : UInt8) : Bool :=
  isAlphanumeric b || [0x2D, 0x5F, 0x2E, 0x21, 0x7E, 0x2A, 0x27, 0x28, 0x29].contains b

/-- What is kept in a query: letters, digits, and `*-._`. -/
def formKept (b : UInt8) : Bool := isAlphanumeric b || [0x2A, 0x2D, 0x2E, 0x5F].contains b

lemma isAlphanumeric_lt {b : UInt8} (h : isAlphanumeric b) : b < 0x80 := by
  simp only [isAlphanumeric, Bool.or_eq_true, Bool.and_eq_true, decide_eq_true_eq] at h
  rcases h with (⟨-, h⟩ | ⟨-, h⟩) | ⟨-, h⟩ <;> exact UInt8.lt_of_le_of_lt h (by decide)

lemma kept_of_contains {extra : List UInt8} (hascii : ∀ b ∈ extra, b < 0x80)
    (hpercent : 0x25 ∉ extra) : Kept fun b => isAlphanumeric b || extra.contains b where
  ascii b h := by
    rcases Bool.or_eq_true_iff.mp h with h | h
    · exact isAlphanumeric_lt h
    · exact hascii b (by simpa using h)
  percent := by simpa [isAlphanumeric] using hpercent

lemma kept_form : Kept formKept :=
  kept_of_contains (forall_of_all (by decide)) (by decide)

/-- `encodeURIComponent(s)`, with `none` for the exception that a lone surrogate raises. -/
def encodeURIComponent (s : JsStr) : Option JsStr :=
  if (codePoints s).all PyChar.isScalar then some (percentEncode unreserved (utf8 (scalarValues s)))
  else none

/-- The units that end a component of a URL. -/
def delimiters : JsStr := js "/\\?#"

/-- A blank is written as a plus sign. -/
def formUnit (u : UInt16) : UInt16 := if u = 0x20 then 0x2B else u

def blankUnit (u : UInt16) : UInt16 := if u = 0x2B then 0x20 else u

lemma blankUnit_formUnit {u : UInt16} (h : u ≠ 0x2B) : blankUnit (formUnit u) = u := by
  by_cases hblank : u = 0x20
  · rw [hblank]
    decide
  · rw [formUnit, if_neg hblank, blankUnit, if_neg h]

/-- A name or a value, as `URLSearchParams` writes it. -/
def formEncode (s : JsStr) : JsStr :=
  (percentEncode (fun b => b = 0x20 || formKept b) (utf8 (scalarValues s))).map formUnit

def formDecode (s : JsStr) : Option (List Char) :=
  decodeUtf8 (percentDecode (s.map blankUnit))

/-- `new URLSearchParams(params).toString()`. -/
def serializeParams (params : List (JsStr × JsStr)) : JsStr :=
  [0x26].intercalate (params.map fun param => formEncode param.1 ++ 0x3D :: formEncode param.2)

/-- The parameters a query is read as, if their bytes are UTF-8. -/
def parseParams (query : JsStr) : Option (List (List Char × List Char)) :=
  ((query.splitOn 0x26).filter (· ≠ [])).mapM fun part => do
    let name ← formDecode (part.takeWhile (· ≠ 0x3D))
    let value ← formDecode ((part.dropWhile (· ≠ 0x3D)).drop 1)
    return (name, value)

lemma kept_formOrBlank : Kept fun b => b = 0x20 || formKept b where
  ascii b h := by
    rcases Bool.or_eq_true_iff.mp h with h | h
    · rw [of_decide_eq_true h]
      decide
    · exact kept_form.ascii b h
  percent := by decide

lemma formDecode_formEncode (s : JsStr) : formDecode (formEncode s) = some (scalarValues s) := by
  have hplus : (0x2B : UInt16) ∉
      percentEncode (fun b => b = 0x20 || formKept b) (utf8 (scalarValues s)) :=
    not_mem_percentEncode (by decide) (by decide) _
  have hback : (formEncode s).map blankUnit =
      percentEncode (fun b => b = 0x20 || formKept b) (utf8 (scalarValues s)) := by
    rw [formEncode, List.map_map]
    exact (List.map_congr_left fun u hu => blankUnit_formUnit fun h => hplus (h ▸ hu)).trans
      (List.map_id _)
  rw [formDecode, hback, percentDecode_percentEncode kept_formOrBlank, decodeUtf8_utf8]

/-- What separates parameters does not occur in a name or a value. -/
lemma not_mem_formEncode {u : UInt16} (hkept : (u.toUInt8 = 0x20 || formKept u.toUInt8) = false)
    (hblank : u ≠ 0x2B) (hescape : u ≠ 0x25 ∧ hexValue u = none) (s : JsStr) :
    u ∉ formEncode s := by
  intro h
  obtain ⟨v, hv, hu⟩ := List.mem_map.mp h
  unfold formUnit at hu
  split_ifs at hu with hspace
  · exact hblank hu.symm
  · exact not_mem_percentEncode hkept hescape _ (hu ▸ hv)

lemma not_mem_separators (s : JsStr) : 0x26 ∉ formEncode s ∧ 0x3D ∉ formEncode s :=
  ⟨not_mem_formEncode (by decide) (by decide) (by decide) s,
    not_mem_formEncode (by decide) (by decide) (by decide) s⟩

/-- One parameter is read back. -/
lemma takeWhile_formEncode (name value : JsStr) :
    (formEncode name ++ 0x3D :: formEncode value).takeWhile (· ≠ 0x3D) = formEncode name ∧
      ((formEncode name ++ 0x3D :: formEncode value).dropWhile (· ≠ 0x3D)).drop 1 =
        formEncode value := by
  have hname : ∀ u ∈ formEncode name, decide (u ≠ 0x3D) = true := fun u hu =>
    decide_eq_true fun h => (not_mem_separators name).2 (h ▸ hu)
  constructor
  · rw [List.takeWhile_append_of_pos hname]
    simp
  · rw [List.dropWhile_append_of_pos hname]
    simp

/-- A parameter has its equals sign, and no ampersand. -/
lemma split_serializeParams (params : List (JsStr × JsStr)) :
    ((serializeParams params).splitOn 0x26).filter (· ≠ []) =
      params.map fun param => formEncode param.1 ++ 0x3D :: formEncode param.2 := by
  cases params with
  | nil => rfl
  | cons param params =>
    have hamp : ∀ part ∈ (param :: params).map fun param : JsStr × JsStr =>
        formEncode param.1 ++ 0x3D :: formEncode param.2, (0x26 : UInt16) ∉ part := by
      intro part hpart
      obtain ⟨p, -, rfl⟩ := List.mem_map.mp hpart
      simp [(not_mem_separators p.1).1, (not_mem_separators p.2).1]
    rw [serializeParams, List.splitOn_intercalate _ hamp (List.cons_ne_nil _ _)]
    refine List.filter_eq_self.mpr fun part hpart => ?_
    obtain ⟨p, -, rfl⟩ := List.mem_map.mp hpart
    simp

/-- Parameters are read back as they were written, but for lone surrogates. -/
lemma parseParams_serializeParams (params : List (JsStr × JsStr)) :
    parseParams (serializeParams params) =
      some (params.map fun param => (scalarValues param.1, scalarValues param.2)) := by
  have hread : ∀ param : JsStr × JsStr,
      (do
        let part := formEncode param.1 ++ 0x3D :: formEncode param.2
        let name ← formDecode (part.takeWhile (· ≠ 0x3D))
        let value ← formDecode ((part.dropWhile (· ≠ 0x3D)).drop 1)
        return (name, value)) = some (scalarValues param.1, scalarValues param.2) := by
    intro param
    obtain ⟨hname, hvalue⟩ := takeWhile_formEncode param.1 param.2
    dsimp only
    rw [hname, hvalue, formDecode_formEncode, formDecode_formEncode]
    rfl
  rw [parseParams, split_serializeParams, List.mapM_map]
  exact (congrArg (List.mapM · params) (funext hread)).trans (List.mapM_pure)

/-- Parameters do not end a query early. The induction is on the parameters. -/
lemma not_mem_serializeParams {u : UInt16} (hform : ∀ s, u ∉ formEncode s)
    (hseparator : u ≠ 0x26 ∧ u ≠ 0x3D) (params : List (JsStr × JsStr)) :
    u ∉ serializeParams params := by
  have hpart : ∀ param : JsStr × JsStr, u ∉ formEncode param.1 ++ 0x3D :: formEncode param.2 := by
    intro param
    simp [hform, hseparator.2]
  unfold serializeParams
  induction params with
  | nil => exact List.not_mem_nil
  | cons param params ih =>
    cases params with
    | nil =>
      rw [List.map_singleton, List.intercalate_singleton]
      exact hpart param
    | cons next rest =>
      rw [List.map_cons, List.map_cons, List.intercalate_cons_cons, List.mem_append,
        List.mem_append, List.mem_singleton]
      rintro ((h | h) | h)
      · exact hpart param h
      · exact hseparator.1 h
      · exact ih h

/-! ### Addresses -/

/-- The components of an absolute URL. -/
structure Address where
  scheme : JsStr
  authority : JsStr
  path : JsStr
  query : Option JsStr
  fragment : Option JsStr
  deriving DecidableEq

/-- What follows a mark, if it is there. -/
def after (mark : UInt16) (s : JsStr) : Option JsStr :=
  match s with
  | [] => none
  | u :: rest => if u = mark then some rest else none

/-- A backslash ends a component as a slash does. -/
def address (url : JsStr) : Option Address :=
  let scheme := url.takeWhile (· ∉ 0x3A :: delimiters)
  let rest := url.drop scheme.length
  if (js "://").isPrefixOf rest then
    let rest := rest.drop 3
    let authority := rest.takeWhile (· ∉ delimiters)
    let rest := rest.drop authority.length
    let path := rest.takeWhile (· ∉ js "?#")
    let rest := rest.drop path.length
    let query := (after 0x3F rest).map (·.takeWhile (· ≠ 0x23))
    let rest := rest.drop (query.elim 0 fun query => query.length + 1)
    some ⟨scheme, authority, path, query, after 0x23 rest⟩
  else none

example : address (js "https://a.b/c?d=e#f") =
    some ⟨js "https", js "a.b", js "/c", some (js "d=e"), some (js "f")⟩ := by decide

lemma takeWhile_stop {p : UInt16 → Bool} {s : JsStr} {u : UInt16} {rest : JsStr}
    (h : ∀ v ∈ s, p v) (hu : p u = false) : (s ++ u :: rest).takeWhile p = s := by
  rw [List.takeWhile_append_of_pos h, List.takeWhile_cons_of_neg (by simp [hu]), List.append_nil]

/-- The query that is put at the end of a URL. -/
def queryText (query : Option JsStr) : JsStr := query.elim [] (0x3F :: ·)

/-- A URL that is put together from components is read as these components. -/
lemma address_append {scheme authority path : JsStr} {query : Option JsStr}
    (hscheme : ∀ u ∈ scheme, u ∉ 0x3A :: delimiters) (hauthority : ∀ u ∈ authority, u ∉ delimiters)
    (hpath : ∀ u ∈ path, u ∉ js "?#") (hquery : ∀ text ∈ query, 0x23 ∉ text) :
    address (scheme ++ js "://" ++ authority ++ 0x2F :: path ++ queryText query) =
      some ⟨scheme, authority, 0x2F :: path, query, none⟩ := by
  have hurl : scheme ++ js "://" ++ authority ++ 0x2F :: path ++ queryText query =
      scheme ++ 0x3A :: 0x2F :: 0x2F :: (authority ++ 0x2F :: (path ++ queryText query)) := by
    simp [show js "://" = [0x3A, 0x2F, 0x2F] from by decide]
  have htakeScheme : (scheme ++ 0x3A :: 0x2F :: 0x2F ::
      (authority ++ 0x2F :: (path ++ queryText query))).takeWhile (· ∉ 0x3A :: delimiters) =
        scheme :=
    takeWhile_stop (fun u hu => decide_eq_true (hscheme u hu)) (by decide)
  have htakeAuthority : (authority ++ 0x2F :: (path ++ queryText query)).takeWhile
      (· ∉ delimiters) = authority :=
    takeWhile_stop (fun u hu => decide_eq_true (hauthority u hu)) (by decide)
  have htakePath : (0x2F :: (path ++ queryText query)).takeWhile (· ∉ js "?#") = 0x2F :: path := by
    have hslash : ∀ u ∈ (0x2F :: path : JsStr), decide (u ∉ js "?#") = true := by
      intro u hu
      rcases List.mem_cons.mp hu with rfl | hu
      · decide
      · exact decide_eq_true (hpath u hu)
    rw [← List.cons_append]
    cases query with
    | none =>
      rw [queryText, Option.elim_none, List.append_nil]
      exact List.takeWhile_eq_self_iff.mpr hslash
    | some text => exact takeWhile_stop hslash (by decide)
  have hprefix : (js "://").isPrefixOf ((0x3A : UInt16) :: 0x2F :: 0x2F ::
      (authority ++ 0x2F :: (path ++ queryText query))) = true := by
    rw [show js "://" = [0x3A, 0x2F, 0x2F] from by decide]
    simp
  have hdrop : ((0x3A : UInt16) :: 0x2F :: 0x2F ::
      (authority ++ 0x2F :: (path ++ queryText query))).drop 3 =
        authority ++ 0x2F :: (path ++ queryText query) := rfl
  rw [hurl, address, htakeScheme, List.drop_left, if_pos hprefix, hdrop]
  dsimp only
  rw [htakeAuthority, List.drop_left, htakePath, ← List.cons_append, List.drop_left]
  cases query with
  | none => rfl
  | some text =>
    have htake : text.takeWhile (· ≠ 0x23) = text :=
      List.takeWhile_eq_self_iff.mpr fun u hu =>
        decide_eq_true fun h => hquery text rfl (h ▸ hu)
    have hafter : after 0x3F (queryText (some text)) = some text := rfl
    rw [hafter, Option.map_some, htake, queryText, Option.elim_some, Option.elim_some,
      List.drop_succ_cons, List.drop_length]
    rfl

end ModelDispatcher.Lib.Urls
