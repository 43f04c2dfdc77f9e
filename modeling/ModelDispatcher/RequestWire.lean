import ModelDispatcher.Lib.CodePoints
import ModelDispatcher.Lib.JsonText
import ModelDispatcher.Pipeline

/-!
The bodies of the client as texts: what `JSON.stringify` writes of a request and `fetch` encodes,
`json.loads` of the server reads back, so the prompt that is dispatched is the one that was typed.
-/

namespace ModelDispatcher.RequestWire

open Lib.Text Lib.Json Lib.Js Lib.Binary64 Lib.Dicts Lib.CodePoints Lib.JsonText
open DataTypes Config Pipeline

/-! ### `JSON.stringify`, given how a finite number is printed -/

/-- What a code point of a string is written as. -/
def quotedGlyph (c : PyChar) : Glyph :=
  if c.ord = 0x8 then .short 'b'.toNat
  else if c.ord = 0x9 then .short 't'.toNat
  else if c.ord = 0xA then .short 'n'.toNat
  else if c.ord = 0xC then .short 'f'.toNat
  else if c.ord = 0xD then .short 'r'.toNat
  else if c.ord = '"'.toNat then .short '"'.toNat
  else if c.ord = '\\'.toNat then .short '\\'.toNat
  else if c.ord < 0x20 ∨ High c.ord ∨ Low c.ord then .unit c.ord
  else .raw c.ord

def quoted (s : JsStr) : List Glyph := (codePoints s).map quotedGlyph

section

variable (numberText : ℚ → Codes)

mutual

/-- The syntax of a value, with `none` for `undefined`. -/
def serialized : JsValue → Option Tree
  | .undefined => none
  | .null => some .null
  | .boolean b => some (.bool b)
  | .number (.fin x) => some (.number (numberText x.val))
  | .number _ => some .null
  | .string s => some (.string (quoted s))
  | .array items => some (.array (serializedItems items))
  | .object fields => some (.object (serializedFields fields))

def serializedItems : List JsValue → List Tree
  | [] => []
  | v :: rest => (serialized v).getD .null :: serializedItems rest

def serializedFields : List (JsStr × JsValue) → List (List Glyph × Tree)
  | [] => []
  | (k, v) :: rest =>
    match serialized v with
    | some t => (quoted k, t) :: serializedFields rest
    | none => serializedFields rest

end

/-- No blanks. -/
def stringifyStyle : Style := ⟨[], [], nofun, nofun⟩

/-- The text of a tree. -/
def treeText (t : Tree) : PyStr := (renderTree stringifyStyle t).map point

def stringify (v : JsValue) : Option JsStr :=
  (serialized numberText v).map fun t => utf16 (treeText t)

end

/-- The bytes `fetch` sends of a body: a lone surrogate is replaced. -/
def encodeBody (s : JsStr) : Bytes :=
  (codePoints s).flatMap fun
    | .scalar c => String.utf8EncodeChar c
    | .surrogate _ => String.utf8EncodeChar '\uFFFD'

/-! ### `json.loads`, given the value of a numeral -/

/-- The code point a glyph stands for on its own. -/
def glyphPoint : Glyph → PyChar
  | .raw n => point n
  | .short letter => point (shortCode letter)
  | .unit n => point n

/-- The code points of a string: two escapes in a row may make up a pair. -/
def stringPoints : List Glyph → PyStr
  | .unit high :: .unit low :: rest =>
    if High high ∧ Low low then joined high low :: stringPoints rest
    else point high :: stringPoints (.unit low :: rest)
  | g :: rest => glyphPoint g :: stringPoints rest
  | [] => []

section

variable (numeralValue : Codes → JSONValue)

mutual

def objectOf : Tree → JSONValue
  | .null => .null
  | .bool b => .bool b
  | .number text => numeralValue text
  | .string s => .str (stringPoints s)
  | .array items => .list (objectsOf items)
  | .object fields => .dict (PyDict.ofList (entriesOf fields)).entries

def objectsOf : List Tree → List JSONValue
  | [] => []
  | t :: rest => objectOf t :: objectsOf rest

def entriesOf : List (List Glyph × Tree) → List (PyStr × JSONValue)
  | [] => []
  | (k, t) :: rest => (stringPoints k, objectOf t) :: entriesOf rest

end

/-- The value of a JSON text in UTF-8. -/
def readBody (raw : Bytes) : Option JSONValue := do
  let text ← decodeUtf8 raw
  let tree ← parseText (text.map Char.toNat)
  return objectOf numeralValue tree

end

/-! ### Strings -/

lemma quotedGlyph_cases (c : PyChar) :
    (∃ letter ∈ shortLetters, quotedGlyph c = .short letter ∧ shortCode letter = c.ord) ∨
    (quotedGlyph c = .unit c.ord ∧ c.ord < 0x10000) ∨
    (quotedGlyph c = .raw c.ord ∧ 0x20 ≤ c.ord ∧ c.ord ≠ '"'.toNat ∧ c.ord ≠ '\\'.toNat ∧
      ¬ High c.ord ∧ ¬ Low c.ord) := by
  unfold quotedGlyph
  split_ifs with hb ht hn hf hr hquote hslash hunit
  · exact .inl ⟨'b'.toNat, by decide, rfl, hb.symm⟩
  · exact .inl ⟨'t'.toNat, by decide, rfl, ht.symm⟩
  · exact .inl ⟨'n'.toNat, by decide, rfl, hn.symm⟩
  · exact .inl ⟨'f'.toNat, by decide, rfl, hf.symm⟩
  · exact .inl ⟨'r'.toNat, by decide, rfl, hr.symm⟩
  · exact .inl ⟨'"'.toNat, by decide, rfl, hquote.symm⟩
  · exact .inl ⟨'\\'.toNat, by decide, rfl, hslash.symm⟩
  · refine .inr (.inl ⟨rfl, ?_⟩)
    simp only [High, Low] at hunit
    omega
  · simp only [not_or, not_lt] at hunit
    exact .inr (.inr ⟨rfl, hunit.1, hquote, hslash, hunit.2.1, hunit.2.2⟩)

/-- The numbers of scalar values. -/
def ScalarCode (n : ℕ) : Prop := n < 0x110000 ∧ ¬ High n ∧ ¬ Low n

lemma plain_quotedGlyph (c : PyChar) : (quotedGlyph c).Plain ScalarCode := by
  rcases quotedGlyph_cases c with ⟨letter, hletter, h, -⟩ | ⟨h, hsmall⟩ |
    ⟨h, hlow, hquote, hslash, hscalar⟩
  · rw [h]
    exact hletter
  · rw [h]
    exact hsmall
  · rw [h]
    exact ⟨hlow, hquote, hslash, ord_lt c, hscalar⟩

lemma plain_quoted (s : JsStr) : ∀ g ∈ quoted s, g.Plain ScalarCode := by
  intro g hg
  obtain ⟨c, -, rfl⟩ := List.mem_map.mp hg
  exact plain_quotedGlyph c

lemma glyphPoint_quotedGlyph (c : PyChar) : glyphPoint (quotedGlyph c) = c := by
  rcases quotedGlyph_cases c with ⟨letter, -, h, hcode⟩ | ⟨h, -⟩ | ⟨h, -⟩
  · rw [h, glyphPoint, hcode, point_ord]
  · rw [h, glyphPoint, point_ord]
  · rw [h, glyphPoint, point_ord]

lemma unit_of_quotedGlyph {c : PyChar} {n : ℕ} (h : quotedGlyph c = .unit n) : c.ord = n := by
  rcases quotedGlyph_cases c with ⟨letter, -, hc, -⟩ | ⟨hc, -⟩ | ⟨hc, -⟩
  · rw [hc] at h
    cases h
  · rw [hc] at h
    exact Glyph.unit.inj h
  · rw [hc] at h
    cases h

/-- Escapes that are read one by one: no pair is joined that was not one before. -/
lemma stringPoints_quoted {s : PyStr} (h : Canonical s) :
    stringPoints (s.map quotedGlyph) = s := by
  induction s with
  | nil => rfl
  | cons c s ih =>
    obtain ⟨hhead, htail⟩ := List.isChain_cons.mp h
    have hone : stringPoints (quotedGlyph c :: s.map quotedGlyph) =
        glyphPoint (quotedGlyph c) :: stringPoints (s.map quotedGlyph) := by
      cases s with
      | nil => cases quotedGlyph c <;> rfl
      | cons d s =>
        rw [List.map_cons]
        cases hc : quotedGlyph c with
        | raw n => rfl
        | short letter => rfl
        | unit high =>
          cases hd : quotedGlyph d with
          | raw n => rfl
          | short letter => rfl
          | unit low =>
            have hnot : ¬ (High high ∧ Low low) := by
              rw [← unit_of_quotedGlyph hc, ← unit_of_quotedGlyph hd]
              exact hhead d rfl
            rw [stringPoints, if_neg hnot, glyphPoint]
    rw [List.map_cons, hone, glyphPoint_quotedGlyph, ih htail]

lemma stringPoints_of_quoted (s : JsStr) : stringPoints (quoted s) = codePoints s :=
  stringPoints_quoted (canonical_codePoints s)

/-! ### Values -/

mutual

/-- No object has a key twice. -/
def Keyed : JsValue → Prop
  | .array items => KeyedItems items
  | .object fields => (fields.map Prod.fst).Nodup ∧ KeyedFields fields
  | _ => True

def KeyedItems : List JsValue → Prop
  | [] => True
  | v :: rest => Keyed v ∧ KeyedItems rest

def KeyedFields : List (JsStr × JsValue) → Prop
  | [] => True
  | (_, v) :: rest => Keyed v ∧ KeyedFields rest

end

section

variable (numberText : ℚ → Codes) (numeralValue : Codes → JSONValue)

mutual

/-- The value as the server sees it, with `none` for `undefined`. -/
def received : JsValue → Option JSONValue
  | .undefined => none
  | .null => some .null
  | .boolean b => some (.bool b)
  | .number (.fin x) => some (numeralValue (numberText x.val))
  | .number _ => some .null
  | .string s => some (.str (codePoints s))
  | .array items => some (.list (receivedItems items))
  | .object fields => some (.dict (receivedFields fields))

def receivedItems : List JsValue → List JSONValue
  | [] => []
  | v :: rest => (received v).getD .null :: receivedItems rest

def receivedFields : List (JsStr × JsValue) → List (PyStr × JSONValue)
  | [] => []
  | (k, v) :: rest =>
    match received v with
    | some w => (codePoints k, w) :: receivedFields rest
    | none => receivedFields rest

end

/-- The keys that are received are among those that were sent, in their order. -/
lemma keys_receivedFields (fields : List (JsStr × JsValue)) :
    ((receivedFields numberText numeralValue fields).map Prod.fst).Sublist
      (fields.map fun field => codePoints field.1) := by
  induction fields with
  | nil => exact .slnil
  | cons field rest ih =>
    obtain ⟨k, v⟩ := field
    rw [receivedFields]
    cases received numberText numeralValue v with
    | none => exact ih.cons _
    | some w => exact ih.cons_cons _

lemma nodup_receivedFields {fields : List (JsStr × JsValue)} (h : (fields.map Prod.fst).Nodup) :
    ((receivedFields numberText numeralValue fields).map Prod.fst).Nodup := by
  have hkeys : (fields.map fun field => codePoints field.1) =
      (fields.map Prod.fst).map codePoints := by
    rw [List.map_map]
    rfl
  refine (keys_receivedFields numberText numeralValue fields).nodup ?_
  rw [hkeys]
  exact h.map fun _ _ => codePoints_injective

variable {numberText numeralValue}

mutual

lemma objectOf_serialized : ∀ v : JsValue, Keyed v →
    (serialized numberText v).map (objectOf numeralValue) = received numberText numeralValue v
  | .undefined, _ => rfl
  | .null, _ => rfl
  | .boolean _, _ => rfl
  | .number (.fin _), _ => rfl
  | .number .nan, _ => rfl
  | .number (.inf _), _ => rfl
  | .string s, _ => by
    rw [serialized, Option.map_some, objectOf, stringPoints_of_quoted, received]
  | .array items, h => by
    simp only [Keyed] at h
    rw [serialized, Option.map_some, objectOf, objectsOf_serializedItems items h, received]
  | .object fields, h => by
    simp only [Keyed] at h
    rw [serialized, Option.map_some, objectOf, entriesOf_serializedFields fields h.2,
      PyDict.entries_ofList (nodup_receivedFields numberText numeralValue h.1), received]

lemma objectsOf_serializedItems : ∀ items : List JsValue, KeyedItems items →
    objectsOf numeralValue (serializedItems numberText items) =
      receivedItems numberText numeralValue items
  | [], _ => rfl
  | v :: rest, h => by
    simp only [KeyedItems] at h
    rw [serializedItems, objectsOf, objectsOf_serializedItems rest h.2, receivedItems,
      ← objectOf_serialized v h.1]
    cases serialized numberText v <;> rfl

lemma entriesOf_serializedFields : ∀ fields : List (JsStr × JsValue), KeyedFields fields →
    entriesOf numeralValue (serializedFields numberText fields) =
      receivedFields numberText numeralValue fields
  | [], _ => rfl
  | (k, v) :: rest, h => by
    simp only [KeyedFields] at h
    have hrest := entriesOf_serializedFields rest h.2
    rw [serializedFields, receivedFields, ← objectOf_serialized v h.1]
    cases serialized numberText v with
    | none => exact hrest
    | some t =>
      change entriesOf numeralValue ((quoted k, t) :: _) = _
      rw [entriesOf, stringPoints_of_quoted, hrest]
      rfl

end

/-- Finite numbers are printed as numerals. -/
def PrintsNumerals (numberText : ℚ → Codes) : Prop :=
  ∀ q, isNumeral (numberText q) ∧ ∀ c ∈ numberText q, numeralChar c

mutual

lemma plain_serialized (hnumber : PrintsNumerals numberText) : ∀ v : JsValue,
    ∀ t ∈ serialized numberText v, Plain ScalarCode t
  | .undefined => nofun
  | .null => fun t ht => by
    obtain rfl := Option.mem_some_iff.mp ht
    simp only [Plain]
  | .boolean _ => fun t ht => by
    obtain rfl := Option.mem_some_iff.mp ht
    simp only [Plain]
  | .number (.fin x) => fun t ht => by
    obtain rfl := Option.mem_some_iff.mp ht
    simp only [Plain]
    exact hnumber x.val
  | .number .nan => fun t ht => by
    obtain rfl := Option.mem_some_iff.mp ht
    simp only [Plain]
  | .number (.inf _) => fun t ht => by
    obtain rfl := Option.mem_some_iff.mp ht
    simp only [Plain]
  | .string s => fun t ht => by
    obtain rfl := Option.mem_some_iff.mp ht
    simp only [Plain]
    exact plain_quoted s
  | .array items => fun t ht => by
    obtain rfl := Option.mem_some_iff.mp ht
    simp only [Plain]
    exact plain_serializedItems hnumber items
  | .object fields => fun t ht => by
    obtain rfl := Option.mem_some_iff.mp ht
    simp only [Plain]
    exact plain_serializedFields hnumber fields

lemma plain_serializedItems (hnumber : PrintsNumerals numberText) : ∀ items : List JsValue,
    PlainItems ScalarCode (serializedItems numberText items)
  | [] => by simp only [serializedItems, PlainItems]
  | v :: rest => by
    have hv := plain_serialized hnumber v
    rw [serializedItems]
    simp only [PlainItems]
    refine ⟨?_, plain_serializedItems hnumber rest⟩
    cases hserialized : serialized numberText v with
    | none => simp only [Option.getD_none, Plain]
    | some t => exact hv t hserialized

lemma plain_serializedFields (hnumber : PrintsNumerals numberText) :
    ∀ fields : List (JsStr × JsValue), PlainFields ScalarCode (serializedFields numberText fields)
  | [] => by simp only [serializedFields, PlainFields]
  | (k, v) :: rest => by
    have hv := plain_serialized hnumber v
    rw [serializedFields]
    cases hserialized : serialized numberText v with
    | none => exact plain_serializedFields hnumber rest
    | some t =>
      simp only [PlainFields]
      exact ⟨plain_quoted k, hv t hserialized, plain_serializedFields hnumber rest⟩

end

/-! ### Bytes -/

lemma point_of_scalarCode {n : ℕ} (h : ScalarCode n) : point n = .scalar (Char.ofNat n) := by
  obtain ⟨-, hhigh, hlow⟩ := h
  simp only [High, Low] at hhigh hlow
  rw [point, dif_neg (by omega)]

lemma toNat_ofNat_of_scalarCode {n : ℕ} (h : ScalarCode n) : (Char.ofNat n).toNat = n := by
  have hord := ord_point h.1
  rwa [point_of_scalarCode h] at hord

/-- A text of scalar values is sent as it is. -/
lemma decodeUtf8_encodeBody {text : List ℕ} (h : ∀ n ∈ text, ScalarCode n) :
    decodeUtf8 (encodeBody (utf16 (text.map point))) = some (text.map Char.ofNat) := by
  have hpoints : text.map point = (text.map Char.ofNat).map .scalar := by
    rw [List.map_map]
    exact List.map_congr_left fun n hn => point_of_scalarCode (h n hn)
  have hencodable : Utf8Encodable (text.map point) := hpoints ▸ encodable_map_scalar _
  have hbytes : encodeBody (utf16 (text.map point)) =
      (text.map Char.ofNat).flatMap String.utf8EncodeChar := by
    rw [encodeBody, codePoints_utf16 (canonical_of_encodable hencodable), hpoints,
      List.flatMap_map]
  rw [hbytes, ← utf8, decodeUtf8_utf8]

lemma scalarCode_of_lt {n : ℕ} (h : n < 0x80) : ScalarCode n := by
  simp only [ScalarCode, High, Low]
  omega

/-- What is sent of a value is what the server reads. -/
lemma readBody_stringify (hnumber : PrintsNumerals numberText) {v : JsValue} (hkeyed : Keyed v)
    {body : JsStr} (h : stringify numberText v = some body) :
    readBody numeralValue (encodeBody body) = received numberText numeralValue v := by
  obtain ⟨t, ht, rfl⟩ := Option.map_eq_some_iff.mp h
  have hplain := plain_serialized hnumber v t ht
  have hscalar : ∀ n ∈ renderTree stringifyStyle t, ScalarCode n := fun n hn =>
    (mem_renderTree t hplain n hn).elim scalarCode_of_lt id
  have hcodes : ((renderTree stringifyStyle t).map Char.ofNat).map Char.toNat =
      renderTree stringifyStyle t := by
    rw [List.map_map]
    exact (List.map_congr_left fun n hn => toNat_ofNat_of_scalarCode (hscalar n hn)).trans
      (List.map_id _)
  rw [readBody, treeText, decodeUtf8_encodeBody hscalar, ← objectOf_serialized v hkeyed, ht]
  change (parseText (((renderTree stringifyStyle t).map Char.ofNat).map Char.toNat)).bind
    (fun tree => some (objectOf numeralValue tree)) = _
  rw [hcodes, parseText_render hplain]
  rfl

/-- A field of the object that is read is what was sent of the property. -/
lemma getKey_receivedFields {fields : List (JsStr × JsValue)} (h : (fields.map Prod.fst).Nodup)
    (k : JsStr) : getKey (receivedFields numberText numeralValue fields) (codePoints k) =
      received numberText numeralValue ((JsValue.object fields).property k) := by
  induction fields with
  | nil => rfl
  | cons field rest ih =>
    obtain ⟨k', v⟩ := field
    obtain ⟨hk', hrest⟩ := List.nodup_cons.mp h
    by_cases hk : k' = k
    · subst hk
      have hproperty : (JsValue.object ((k', v) :: rest)).property k' = v := by
        simp [JsValue.property]
      rw [hproperty, receivedFields]
      cases hv : received numberText numeralValue v with
      | some w => simp [getKey]
      | none =>
        have hnone : codePoints k' ∉
            (receivedFields numberText numeralValue rest).map Prod.fst := by
          intro hmem
          have hkeys := (keys_receivedFields numberText numeralValue rest).subset hmem
          obtain ⟨f, hf, heq⟩ := List.mem_map.mp hkeys
          exact hk' (List.mem_map.mpr ⟨f, hf, codePoints_injective heq⟩)
        rw [getKey, Option.map_eq_none_iff, List.find?_eq_none]
        intro f hf heq
        exact hnone (List.mem_map.mpr ⟨f, hf, of_decide_eq_true heq⟩)
    · have hproperty : (JsValue.object ((k', v) :: rest)).property k =
          (JsValue.object rest).property k := by
        simp [JsValue.property, hk]
      rw [hproperty, ← ih hrest, receivedFields]
      cases received numberText numeralValue v with
      | none => rfl
      | some w =>
        have hne : codePoints k' ≠ codePoints k := fun heq => hk (codePoints_injective heq)
        simp [getKey, hne]

end

lemma codePoints_js (s : String) : codePoints (js s) = py s :=
  codePoints_utf16 (canonical_of_encodable (encodable_py s))

/-- The detail of a refused prompt. -/
def refusal : PyStr := py "field 'prompt' must be a non-empty string"

/-- **The prompt arrives.** Whatever a client dispatches that has a text under `prompt` and keeps
the keys of its objects apart, the server dispatches that very text, code unit by code unit, lone
surrogates included, for the tenant that the guards and the body name; a blank prompt is refused. -/
theorem prompt_arrives (numberText : ℚ → Codes) (numeralValue : Codes → JSONValue)
    (c : Collaborators) (appCheckToken authorizationHeader : Option PyStr)
    (fields : List (JsStr × JsValue)) (prompt : JsStr) (app : AppCheckClaims) (claims : AuthClaims)
    (hnumber : PrintsNumerals numberText)
    (hloads : ∀ body v, stringify numberText (.object fields) = some body →
      readBody numeralValue (encodeBody body) = some v → c.loads (encodeBody body) = .ok v)
    (hkeyed : Keyed (.object fields))
    (hprompt : (JsValue.object fields).property (js "prompt") = .string prompt)
    (happ : c.verifier appCheckToken = .ok app)
    (hauth : c.authVerifier authorizationHeader = .ok claims) :
    ∃ body, stringify numberText (.object fields) = some body ∧
      utf16 (codePoints prompt) = prompt ∧
      runDispatch c appCheckToken authorizationHeader (encodeBody body) =
        if strip (codePoints prompt) = [] then
          pure (400, [(py "error", .str (py "bad_request")), (py "detail", .str refusal)])
        else
          let declared := declaredTenant (received numberText numeralValue
            ((JsValue.object fields).property (js "tenant_id")))
          invoke c (userRequest (codePoints prompt) declared)
            (c.tenantFactory (tenantId claims declared)) := by
  have hbody : stringify numberText (.object fields) =
      some (utf16 (treeText (.object (serializedFields numberText fields)))) := by
    rw [stringify, serialized, Option.map_some]
  refine ⟨_, hbody, utf16_codePoints prompt, ?_⟩
  have hread : readBody numeralValue (encodeBody (utf16 (treeText
      (.object (serializedFields numberText fields))))) =
      some (.dict (receivedFields numberText numeralValue fields)) := by
    rw [readBody_stringify hnumber hkeyed hbody, received]
  have hloaded := hloads _ _ hbody hread
  generalize encodeBody (utf16 (treeText (.object (serializedFields numberText fields)))) = raw
    at hread hloaded
  have hne : raw ≠ [] := by
    rintro rfl
    cases hread
  simp only [Keyed] at hkeyed
  have hpromptKey : getKey (receivedFields numberText numeralValue fields) (py "prompt") =
      some (.str (codePoints prompt)) := by
    rw [← codePoints_js, getKey_receivedFields hkeyed.1, hprompt, received]
  have htenantKey : getKey (receivedFields numberText numeralValue fields) (py "tenant_id") =
      received numberText numeralValue ((JsValue.object fields).property (js "tenant_id")) := by
    rw [← codePoints_js, getKey_receivedFields hkeyed.1]
  have hdecode : decodeRequest c.loads raw =
      parseDispatchRequest (receivedFields numberText numeralValue fields) := by
    rw [decodeRequest, orEmptyObject, if_neg hne, hloaded]
  rw [runDispatch, happ]
  dsimp only
  rw [hauth]
  dsimp only
  rw [hdecode, parseDispatchRequest]
  dsimp only
  rw [hpromptKey, htenantKey]
  dsimp only
  by_cases hblank : strip (codePoints prompt) = []
  · rw [if_pos hblank, if_pos hblank]
    rfl
  · rw [if_neg hblank, if_neg hblank]

namespace Sample

def numeralValue : Codes → JSONValue := fun _ => .int 0

/-- The default server, over the reader of bodies. -/
def collaborators : Collaborators :=
  defaults id Pipeline.Sample.vendors (fun _ => none)
    (fun raw => match readBody numeralValue raw with
      | some v => .ok v
      | none => .error (py "Expecting value"))
    id Pipeline.Sample.anyApp (fun _ => .ok ⟨some (py "user-1")⟩)
    (Wiring.mockWorld Pipeline.Sample.vendors fun _ => 0)

/-- An emoji, a line break and half of a pair. -/
def prompt : JsStr := js "hi 😀\n" ++ [0xD83D]

end Sample

/-- A prompt with an emoji, a line break and a lone surrogate arrives. -/
theorem emoji_arrives : ∃ body,
    stringify (fun _ => codes "0") (.object [(js "prompt", .string Sample.prompt)]) = some body ∧
    utf16 (codePoints Sample.prompt) = Sample.prompt ∧
    runDispatch Sample.collaborators none none (encodeBody body) =
      invoke Sample.collaborators
        (userRequest (py "hi 😀\n" ++ [point 0xD83D]) (py "anonymous"))
        (Wiring.buildTenant (py "user-1")) := by
  have hloads : ∀ raw v, readBody Sample.numeralValue raw = some v →
      Sample.collaborators.loads raw = .ok v := by
    intro raw v h
    change (match readBody Sample.numeralValue raw with
      | some v => Except.ok v
      | none => Except.error (py "Expecting value")) = _
    rw [h]
  have hzero : isNumeral (codes "0") ∧ ∀ c ∈ codes "0", numeralChar c := by decide
  have hpoints : codePoints Sample.prompt = py "hi 😀\n" ++ [point 0xD83D] := by
    decide +kernel
  have hblank : strip (codePoints Sample.prompt) ≠ [] := by decide
  obtain ⟨body, hbody, hprompt, hrun⟩ := prompt_arrives (fun _ => codes "0") Sample.numeralValue
    Sample.collaborators none none [(js "prompt", .string Sample.prompt)] Sample.prompt
    ⟨py "dev-bypass", py "dev-bypass"⟩ ⟨some (py "user-1")⟩ (fun _ => hzero)
    (fun body v _ => hloads (encodeBody body) v)
    (by simp [Keyed, KeyedFields]) rfl rfl rfl
  rw [if_neg hblank, hpoints] at hrun
  exact ⟨body, hbody, hprompt, hrun⟩

end ModelDispatcher.RequestWire
