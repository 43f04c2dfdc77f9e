import ModelDispatcher.Replay
import ModelDispatcher.RequestWire
import ModelDispatcher.ResponseWire

/-!
The arguments of tool calls as texts: the OpenAI adapter writes them with `json.dumps` and reads
them with `json.loads`, and what comes back are the arguments, but for surrogates that have become
a pair.
-/

namespace ModelDispatcher.ArgumentsWire

open Lib.Text Lib.Json Lib.Js Lib.Dicts Lib.CodePoints Lib.JsonText DataTypes Replay
open ResponseWire RequestWire

/-! ### Values that come back -/

mutual

/-- Numbers are read as what they were printed from, and no object has a key twice. -/
def Reread (numeralValue : Codes → JSONValue) : JSONValue → Prop
  | .int n => numeralValue (decimal n) = .int n
  | .float literal => numeralValue (codes literal) = .float literal
  | .list items => RereadItems numeralValue items
  | .dict fields => (fields.map Prod.fst).Nodup ∧ RereadFields numeralValue fields
  | _ => True

def RereadItems (numeralValue : Codes → JSONValue) : List JSONValue → Prop
  | [] => True
  | v :: rest => Reread numeralValue v ∧ RereadItems numeralValue rest

def RereadFields (numeralValue : Codes → JSONValue) : List (PyStr × JSONValue) → Prop
  | [] => True
  | (_, v) :: rest => Reread numeralValue v ∧ RereadFields numeralValue rest

end

mutual

/-- No text has the two halves of a pair next to each other. -/
def Unpaired : JSONValue → Prop
  | .str s => Canonical s
  | .list items => UnpairedItems items
  | .dict fields => UnpairedFields fields
  | _ => True

def UnpairedItems : List JSONValue → Prop
  | [] => True
  | v :: rest => Unpaired v ∧ UnpairedItems rest

def UnpairedFields : List (PyStr × JSONValue) → Prop
  | [] => True
  | (k, v) :: rest => Canonical k ∧ Unpaired v ∧ UnpairedFields rest

end

/-! ### Texts -/

/-- The unit of a glyph. -/
def glyphUnit : Glyph → ℕ
  | .raw n => n
  | .short letter => shortCode letter
  | .unit n => n

lemma glyphPoint_eq (g : Glyph) : glyphPoint g = point (glyphUnit g) := by
  cases g <;> rfl

lemma stringUnits_eq (gs : List Glyph) :
    stringUnits gs = gs.map fun g => (glyphUnit g).toUInt16 := by
  refine List.map_congr_left fun g _ => ?_
  cases g <;> rfl

lemma shortCode_lt {letter : ℕ} (h : letter ∈ shortLetters) : shortCode letter < 0x80 := by
  have hall : ∀ letter ∈ shortLetters, shortCode letter < 0x80 := by decide
  exact hall letter h

lemma glyphUnit_lt {g : Glyph} (h : g.Plain (· < 0x80)) : glyphUnit g < 0x10000 := by
  cases g with
  | raw n => exact h.2.2.2.trans (by decide)
  | short letter => exact (shortCode_lt h).trans (by decide)
  | unit n => exact h

/-- Only an escape of four digits is half of a pair. -/
lemma eq_unit_of_surrogate {g : Glyph} (h : g.Plain (· < 0x80))
    (hsurrogate : High (glyphUnit g) ∨ Low (glyphUnit g)) : g = .unit (glyphUnit g) := by
  simp only [High, Low] at hsurrogate
  cases g with
  | raw n =>
    have hlt : n < 0x80 := h.2.2.2
    simp only [glyphUnit] at hsurrogate
    omega
  | short letter =>
    have hlt := shortCode_lt h
    simp only [glyphUnit] at hsurrogate
    omega
  | unit n => rfl

lemma stringPoints_pair {high low : ℕ} (hpair : High high ∧ Low low) (gs : List Glyph) :
    stringPoints (.unit high :: .unit low :: gs) = joined high low :: stringPoints gs := by
  rw [stringPoints, if_pos hpair]

/-- A glyph that does not begin a pair is read on its own. -/
lemma stringPoints_cons {g : Glyph} {gs : List Glyph}
    (h : ∀ high low rest, g = .unit high → gs = .unit low :: rest → ¬ (High high ∧ Low low)) :
    stringPoints (g :: gs) = glyphPoint g :: stringPoints gs := by
  cases g with
  | raw n => cases gs <;> rfl
  | short letter => cases gs <;> rfl
  | unit high =>
    cases gs with
    | nil => rfl
    | cons g' rest =>
      cases g' with
      | raw n => rfl
      | short letter => rfl
      | unit low => rw [stringPoints, if_neg (h high low rest rfl rfl), glyphPoint]

/-- The two decoders agree: joining escapes is joining units. The induction is on the length, as a
pair takes two glyphs. -/
lemma stringPoints_eq (n : ℕ) : ∀ gs : List Glyph, gs.length ≤ n →
    (∀ g ∈ gs, g.Plain (· < 0x80)) → stringPoints gs = codePoints (stringUnits gs) := by
  induction n with
  | zero =>
    intro gs hlen _
    obtain rfl := List.length_eq_zero_iff.mp (Nat.le_zero.mp hlen)
    rfl
  | succ n ih =>
    intro gs hlen hplain
    cases gs with
    | nil => rfl
    | cons g gs =>
      obtain ⟨hg, hgs⟩ := List.forall_mem_cons.mp hplain
      have hunit := toNat_toUInt16 (glyphUnit_lt hg)
      rw [List.length_cons] at hlen
      cases gs with
      | nil =>
        rw [stringPoints_cons (by intro _ _ _ _ h; cases h), glyphPoint_eq, stringUnits_eq,
          List.map_singleton, codePoints, hunit]
        rfl
      | cons g' gs =>
        obtain ⟨hg', hgs'⟩ := List.forall_mem_cons.mp hgs
        have hunit' := toNat_toUInt16 (glyphUnit_lt hg')
        rw [List.length_cons] at hlen
        rw [stringUnits_eq, List.map_cons, List.map_cons, codePoints, hunit, hunit',
          ← stringUnits_eq]
        split_ifs with hpair
        · rw [eq_unit_of_surrogate hg (.inl hpair.1), eq_unit_of_surrogate hg' (.inr hpair.2)]
          rw [stringPoints_pair hpair, ih gs (by omega) hgs']
          rfl
        · rw [stringPoints_cons ?_, glyphPoint_eq, ih (g' :: gs) (by simp; omega) hgs,
            stringUnits_eq, List.map_cons, ← stringUnits_eq]
          rintro high low rest rfl h
          cases h
          exact hpair

/-- A text that was written and read has its surrogates joined. -/
lemma stringPoints_glyphs (s : PyStr) :
    stringPoints (s.flatMap charGlyphs) = codePoints (utf16 s) := by
  rw [stringPoints_eq _ _ le_rfl (plain_glyphs s), stringUnits_glyphs]

lemma codePoints_utf16_iff {s : PyStr} : codePoints (utf16 s) = s ↔ Canonical s :=
  ⟨fun h => h ▸ canonical_codePoints (utf16 s), codePoints_utf16⟩

/-! ### Values -/

section

variable {numeralValue : Codes → JSONValue}

/-- The keys of an object that was written and read. -/
lemma keys_entriesOf (fields : List (PyStr × JSONValue)) :
    (entriesOf numeralValue (membersOf fields)).map Prod.fst =
      fields.map fun field => codePoints (utf16 field.1) := by
  induction fields with
  | nil => rfl
  | cons field rest ih =>
    obtain ⟨k, v⟩ := field
    rw [membersOf, entriesOf, List.map_cons, List.map_cons, ih, stringPoints_glyphs]

lemma keys_foldl_set {κ ν : Type} [DecidableEq κ] {k : κ} (es : List (κ × ν)) (d : PyDict κ ν)
    (h : k ∈ ((es.foldl (fun d e => d.set e.1 e.2) d).entries).map Prod.fst) :
    k ∈ d.entries.map Prod.fst ∨ k ∈ es.map Prod.fst := by
  induction es generalizing d with
  | nil => exact .inl h
  | cons e es ih =>
    rcases ih _ h with h | h
    · rcases PyDict.mem_keys_setEntries.mp h with rfl | h
      · exact .inr (by simp)
      · exact .inl h
    · exact .inr (by simp [h])

/-- The keys of an object that comes back are free of pairs. -/
lemma canonical_keys {fields : List (PyStr × JSONValue)}
    (h : (PyDict.ofList (entriesOf numeralValue (membersOf fields))).entries = fields) :
    ∀ k ∈ fields.map Prod.fst, Canonical k := by
  intro k hk
  rw [← h] at hk
  rcases keys_foldl_set _ _ hk with hk | hk
  · cases hk
  · rw [keys_entriesOf] at hk
    obtain ⟨field, -, rfl⟩ := List.mem_map.mp hk
    exact canonical_codePoints _

mutual

/-- A value comes back as itself exactly when none of its texts changes. -/
lemma objectOf_treeOf : ∀ v : JSONValue, Reread numeralValue v →
    (objectOf numeralValue (treeOf v) = v ↔ Unpaired v)
  | .null, _ => by simp only [treeOf, objectOf, Unpaired]
  | .bool _, _ => by simp only [treeOf, objectOf, Unpaired]
  | .int n, h => by
    simp only [Reread] at h
    simp only [treeOf, objectOf, h, Unpaired]
  | .float literal, h => by
    simp only [Reread] at h
    simp only [treeOf, objectOf, h, Unpaired]
  | .str s, _ => by
    rw [treeOf, objectOf, stringPoints_glyphs, JSONValue.str.injEq, codePoints_utf16_iff, Unpaired]
  | .list items, h => by
    simp only [Reread] at h
    rw [treeOf, objectOf, JSONValue.list.injEq, objectsOf_treesOf items h, Unpaired]
  | .dict fields, h => by
    simp only [Reread] at h
    rw [treeOf, objectOf, JSONValue.dict.injEq, Unpaired]
    have hcanonical : ∀ fields : List (PyStr × JSONValue),
        (∀ k ∈ fields.map Prod.fst, Canonical k) →
          (entriesOf numeralValue (membersOf fields)).map Prod.fst = fields.map Prod.fst := by
      intro fields hkeys
      rw [keys_entriesOf]
      exact List.map_congr_left fun field hfield =>
        codePoints_utf16 (hkeys _ (List.mem_map_of_mem hfield))
    constructor
    · intro heq
      have hkeys := canonical_keys heq
      rw [PyDict.entries_ofList (by rw [hcanonical fields hkeys]; exact h.1)] at heq
      exact (entriesOf_membersOf fields h.2).mp heq
    · intro hunpaired
      have heq := (entriesOf_membersOf fields h.2).mpr hunpaired
      rw [PyDict.entries_ofList (by rw [heq]; exact h.1), heq]

lemma objectsOf_treesOf : ∀ items : List JSONValue, RereadItems numeralValue items →
    (objectsOf numeralValue (treesOf items) = items ↔ UnpairedItems items)
  | [], _ => by simp only [treesOf, objectsOf, UnpairedItems]
  | v :: rest, h => by
    simp only [RereadItems] at h
    rw [treesOf, objectsOf, List.cons.injEq, objectOf_treeOf v h.1, objectsOf_treesOf rest h.2,
      UnpairedItems]

lemma entriesOf_membersOf : ∀ fields : List (PyStr × JSONValue), RereadFields numeralValue fields →
    (entriesOf numeralValue (membersOf fields) = fields ↔ UnpairedFields fields)
  | [], _ => by simp only [membersOf, entriesOf, UnpairedFields]
  | (k, v) :: rest, h => by
    simp only [RereadFields] at h
    rw [membersOf, entriesOf, List.cons.injEq, Prod.mk.injEq, stringPoints_glyphs,
      codePoints_utf16_iff, objectOf_treeOf v h.1, entriesOf_membersOf rest h.2, UnpairedFields,
      and_assoc]

end

/-! ### Calls -/

/-- The value of a JSON text. -/
def readText (numeralValue : Codes → JSONValue) (text : PyStr) : Option JSONValue :=
  (parseText (ords text)).map (objectOf numeralValue)

/-- The arguments that come back. -/
def returned (numeralValue : Codes → JSONValue) (arguments : JSONObject) : JSONObject :=
  (PyDict.ofList (entriesOf numeralValue (membersOf arguments))).entries

lemma readText_write {arguments : JSONObject} (h : Numerals (.dict arguments)) :
    readText numeralValue (write (.dict arguments)) =
      some (.dict (returned numeralValue arguments)) := by
  rw [readText, ords_write, parseText_render (plain_treeOf _ h), Option.map_some, treeOf, objectOf,
    returned]

lemma returned_eq_iff {arguments : JSONObject} (h : Reread numeralValue (.dict arguments)) :
    returned numeralValue arguments = arguments ↔ Unpaired (.dict arguments) := by
  rw [← objectOf_treeOf _ h, treeOf, objectOf, JSONValue.dict.injEq, returned]

mutual

lemma printable_of_numerals : ∀ v : JSONValue, Numerals v → Printable v
  | .null, _ => rfl
  | .bool _, _ => rfl
  | .int n, h => by
    simp only [Numerals] at h
    rw [Printable, strInt, if_pos h]
    rfl
  | .float _, _ => rfl
  | .str _, _ => rfl
  | .list items, h => by
    simp only [Numerals] at h
    exact printableItems_of_numerals items h
  | .dict fields, h => by
    simp only [Numerals] at h
    exact printableFields_of_numerals fields h

lemma printableItems_of_numerals : ∀ items : List JSONValue, NumeralsItems items →
    printableItems items
  | [], _ => rfl
  | v :: rest, h => by
    simp only [NumeralsItems] at h
    rw [printableItems, printable_of_numerals v h.1, printableItems_of_numerals rest h.2]
    rfl

lemma printableFields_of_numerals : ∀ fields : List (PyStr × JSONValue), NumeralsFields fields →
    printableFields fields
  | [], _ => rfl
  | (_, v) :: rest, h => by
    simp only [NumeralsFields] at h
    rw [printableFields, printable_of_numerals v h.1, printableFields_of_numerals rest h.2]
    rfl

end

variable {loads : PyStr → Option JSONObject} {m : Message}

/-- What comes back of the calls of a turn. -/
lemma returned_of_loads
    (hloads : ∀ call ∈ m.toolCalls, ∀ fields,
      readText numeralValue (write (.dict call.arguments)) = some (.dict fields) →
        loads (write (.dict call.arguments)) = some fields)
    (hnumerals : ∀ call ∈ m.toolCalls, Numerals (.dict call.arguments)) :
    ∀ call ∈ m.toolCalls, ∃ text, dumps (.dict call.arguments) = some text ∧
      loads text = some (returned numeralValue call.arguments) := by
  intro call hcall
  have h := hnumerals call hcall
  exact ⟨_, if_pos (printable_of_numerals _ h), hloads call hcall _ (readText_write h)⟩

/-- The calls that come back are the ones that were written. -/
lemma returnedCalls_eq_iff
    (hreread : ∀ call ∈ m.toolCalls, Reread numeralValue (.dict call.arguments)) :
    m.toolCalls.map (fun call => { call with arguments := returned numeralValue call.arguments }) =
        m.toolCalls ↔
      ∀ call ∈ m.toolCalls, Unpaired (.dict call.arguments) := by
  have hcall : ∀ call ∈ m.toolCalls,
      ({ call with arguments := returned numeralValue call.arguments } : ToolCall) = call ↔
        Unpaired (.dict call.arguments) := by
    intro call hmem
    rw [← returned_eq_iff (hreread call hmem)]
    exact ⟨congrArg ToolCall.arguments, fun heq => by rw [heq]⟩
  constructor
  · intro heq call hmem
    exact (hcall call hmem).mp
      (List.map_inj_left.mp (heq.trans (List.map_id _).symm) call hmem)
  · intro hunpaired
    exact (List.map_congr_left fun call hmem => (hcall call hmem).mpr (hunpaired call hmem)).trans
      (List.map_id _)

end

/-- **Arguments on the wire.** A turn that called tools comes back from OpenAI's text encoding of
its arguments as it was exactly when no text in them has the two halves of a surrogate pair next to
each other; it survives every sequence of failovers between the vendors exactly when, besides, its
content is not the empty text, which Anthropic gives back as no content. -/
theorem replayed_exactly_iff (numeralValue : Codes → JSONValue) (loads : PyStr → Option JSONObject)
    (m : Message) (hturn : m.role = .assistant ∧ m.toolCalls ≠ [] ∧ m.toolResult = none)
    (hloads : ∀ call ∈ m.toolCalls, ∀ fields,
      readText numeralValue (write (.dict call.arguments)) = some (.dict fields) →
        loads (write (.dict call.arguments)) = some fields)
    (hnumerals : ∀ call ∈ m.toolCalls, Numerals (.dict call.arguments))
    (hreread : ∀ call ∈ m.toolCalls, Reread numeralValue (.dict call.arguments)) :
    (Vendor.openAI.replay loads m = some m ↔
      ∀ call ∈ m.toolCalls, Unpaired (.dict call.arguments)) ∧
    ((∀ vendors : List Vendor, vendors.foldlM (Vendor.replay loads) m = some m) ↔
      m.content ≠ some [] ∧ ∀ call ∈ m.toolCalls, Unpaired (.dict call.arguments)) := by
  have hreturned := returned_of_loads hloads hnumerals
  have hopenAI : Vendor.openAI.replay loads m = some m ↔
      ∀ call ∈ m.toolCalls, Unpaired (.dict call.arguments) := by
    obtain ⟨chat, hwrite, hread⟩ := openAI_returned hturn _ hreturned
    rw [Vendor.replay, hwrite, Option.bind_some, hread, Option.some.injEq,
      ← returnedCalls_eq_iff hreread]
    exact ⟨congrArg Message.toolCalls, fun heq => by rw [heq]⟩
  refine ⟨hopenAI, fun h => ⟨?_, ?_⟩, ?_⟩
  · have hanthropic : some (Anthropic.toMessage (Anthropic.turnBlocks m)) = some m :=
      h [.anthropic]
    rw [toMessage_turnBlocks] at hanthropic
    have hvisible : GeminiRequest.visibleContent m = m.content :=
      congrArg Message.content (Option.some.inj hanthropic)
    intro hempty
    rw [GeminiRequest.visibleContent, hempty] at hvisible
    cases hvisible
  · refine hopenAI.mp ?_
    simpa using h [.openAI]
  · rintro ⟨hcontent, hunpaired⟩
    refine foldlM_replay_eq ⟨hturn.1, hturn.2.1, hturn.2.2, hcontent⟩ fun call hmem => ?_
    obtain ⟨text, hdumps, hloaded⟩ := hreturned call hmem
    rw [(returned_eq_iff (hreread call hmem)).mpr (hunpaired call hmem)] at hloaded
    exact ⟨text, hdumps, hloaded⟩

namespace Sample

/-- A reader of the one number of the sample. -/
def numeralValue (_ : Codes) : JSONValue := .int 7

def loads (text : PyStr) : Option JSONObject :=
  match readText numeralValue text with
  | some (.dict fields) => some fields
  | _ => none

/-- A turn that asks for one search. -/
def turn (query : PyStr) : Message :=
  { role := .assistant
    toolCalls := [⟨py "1", py "search", [(py "query", .str query), (py "top", .int 7)]⟩] }

lemma numerals_turn (query : PyStr) :
    ∀ call ∈ (turn query).toolCalls, Numerals (.dict call.arguments) := by
  intro call hcall
  rw [List.mem_singleton.mp hcall]
  simp only [Numerals, NumeralsFields, true_and, and_true]
  exact lt_of_exact (by decide)

lemma reread_turn (query : PyStr) :
    ∀ call ∈ (turn query).toolCalls, Reread numeralValue (.dict call.arguments) := by
  intro call hcall
  rw [List.mem_singleton.mp hcall]
  simp only [Reread, RereadFields, numeralValue, and_self, and_true]
  simp [py]

end Sample

/-- An emoji comes back; the two halves of one come back as an emoji. -/
theorem emoji_replayed :
    ([Vendor.openAI, .anthropic, .openAI].foldlM (Vendor.replay Sample.loads)
      (Sample.turn (py "hi 😀"))) = some (Sample.turn (py "hi 😀")) ∧
    Vendor.openAI.replay Sample.loads (Sample.turn [point 0xD83D, point 0xDE00]) ≠
      some (Sample.turn [point 0xD83D, point 0xDE00]) := by
  have hiff := fun query => replayed_exactly_iff Sample.numeralValue Sample.loads
    (Sample.turn query) ⟨rfl, by simp [Sample.turn], rfl⟩
    (fun _ _ _ h => by rw [Sample.loads, h]) (Sample.numerals_turn query) (Sample.reread_turn query)
  constructor
  · refine (hiff _).2.mpr ⟨by simp [Sample.turn], fun call hcall => ?_⟩ _
    rw [List.mem_singleton.mp hcall]
    simp only [Unpaired, UnpairedFields, and_true, ← codePoints_utf16_iff]
    decide +kernel
  · intro h
    have hunpaired := (hiff _).1.mp h _ (List.mem_singleton.mpr rfl)
    simp only [Unpaired, UnpairedFields, and_true, ← codePoints_utf16_iff] at hunpaired
    exact absurd hunpaired.2.1 (by decide)

end ModelDispatcher.ArgumentsWire
