import ModelDispatcher.Lib.Json
import ModelDispatcher.Lib.Substitution

/-!
What a log line may hold: values under sensitive names and secret-shaped pieces of other strings
are replaced by a sentinel.
-/

namespace ModelDispatcher.Redaction

open Lib.Text Lib.Json Lib.Regex Lib.Substitution

def redacted : PyStr := py "[REDACTED]"

/-! ### The patterns -/

def isDash (x : PyChar) : Bool := x = .scalar '_' || x = .scalar '-'

/-- `[A-Za-z0-9]`. -/
def isAlnum : PyChar → Bool
  | .scalar c => c.isAlphanum
  | .surrogate _ => false

/-- `[A-Za-z0-9_\-]`. -/
def isBlobChar (x : PyChar) : Bool := isAlnum x || isDash x

/-- `[A-Za-z0-9._\-]`. -/
def isTokenChar (x : PyChar) : Bool := isBlobChar x || x = .scalar '.'

/-- Names whose values are sensitive, ignoring case: `(api[_-]?key|authorization|auth|secret|token|
password|passwd|bearer|credential|private[_-]?key)`. -/
def sensitiveKeys : Re :=
  .group 1 <|
    .alt (literalThen "api".toList (.seq (.opt (.chr isDash)) (literal "key".toList))) <|
    .alt (literal "authorization".toList) <|
    .alt (literal "auth".toList) <|
    .alt (literal "secret".toList) <|
    .alt (literal "token".toList) <|
    .alt (literal "password".toList) <|
    .alt (literal "passwd".toList) <|
    .alt (literal "bearer".toList) <|
    .alt (literal "credential".toList) <|
    literalThen "private".toList (.seq (.opt (.chr isDash)) (literal "key".toList))

/-- `(sk-[A-Za-z0-9]{16,}|Bearer\s+[A-Za-z0-9._\-]{16,}|[A-Za-z0-9_\-]{32,})`. -/
def secretValue : Re :=
  .group 1 <|
    .alt (exactlyThen (py "sk-") (.many isAlnum 16 none)) <|
    .alt (exactlyThen (py "Bearer") (.seq (blanks 1) (.many isTokenChar 16 none))) <|
    .many isBlobChar 32 none

/-! ### Scrubbing -/

def scrubText (text : PyStr) : PyStr := sub secretValue redacted text

def isSensitive (key : PyStr) : Bool := (sensitiveKeys.search key).isSome

mutual

def scrub : JSONValue → JSONValue
  | .dict fields => .dict (scrubFields fields)
  | .list items => .list (scrubItems items)
  | .str s => .str (scrubText s)
  | .null => .null
  | .bool b => .bool b
  | .int n => .int n
  | .float literal => .float literal

def scrubItems : List JSONValue → List JSONValue
  | [] => []
  | item :: rest => scrub item :: scrubItems rest

def scrubFields : List (PyStr × JSONValue) → List (PyStr × JSONValue)
  | [] => []
  | (key, item) :: rest =>
    (key, if isSensitive key then .str redacted else scrub item) :: scrubFields rest

end

example : isSensitive (py "X-API-Key") ∧ ¬ isSensitive (py "safe") ∧
    scrubText (py "token is sk-ABCDEFGHIJKLMNOPQRST.") = py "token is [REDACTED]." := by
  decide

/-! ### Secrets -/

/-- A key, a bearer token or a long blob. -/
inductive SecretShaped : PyStr → Prop
  | key {key : PyStr} (hlen : 16 ≤ key.length) (hall : ∀ x ∈ key, isAlnum x) :
      SecretShaped (py "sk-" ++ key)
  | bearer {blank token : PyStr} (hblank : blank ≠ []) (hspace : ∀ x ∈ blank, x.isSpace)
      (hlen : 16 ≤ token.length) (hall : ∀ x ∈ token, isTokenChar x) :
      SecretShaped (py "Bearer" ++ (blank ++ token))
  | blob {w : PyStr} (hlen : 32 ≤ w.length) (hall : ∀ x ∈ w, isBlobChar x) : SecretShaped w

/-- A name with a sensitive part. -/
def SensitiveKey (key : PyStr) : Prop := ∃ w, w <:+: key ∧ sensitiveKeys.Lang w

mutual

/-- A value with its strings replaced and the values under sensitive names redacted. -/
inductive Scrubbed : JSONValue → JSONValue → Prop
  | null : Scrubbed .null .null
  | bool (b : Bool) : Scrubbed (.bool b) (.bool b)
  | int (n : ℤ) : Scrubbed (.int n) (.int n)
  | float (literal : String) : Scrubbed (.float literal) (.float literal)
  | str (s t : PyStr) : Scrubbed (.str s) (.str t)
  | list {items items' : List JSONValue} (h : ScrubbedItems items items') :
      Scrubbed (.list items) (.list items')
  | dict {fields fields' : List (PyStr × JSONValue)} (h : ScrubbedFields fields fields') :
      Scrubbed (.dict fields) (.dict fields')

inductive ScrubbedItems : List JSONValue → List JSONValue → Prop
  | nil : ScrubbedItems [] []
  | cons {item item' : JSONValue} {rest rest' : List JSONValue} (h : Scrubbed item item')
      (hrest : ScrubbedItems rest rest') : ScrubbedItems (item :: rest) (item' :: rest')

inductive ScrubbedFields : List (PyStr × JSONValue) → List (PyStr × JSONValue) → Prop
  | nil : ScrubbedFields [] []
  | sensitive {key : PyStr} {item : JSONValue} {rest rest' : List (PyStr × JSONValue)}
      (hkey : SensitiveKey key) (hrest : ScrubbedFields rest rest') :
      ScrubbedFields ((key, item) :: rest) ((key, .str redacted) :: rest')
  | plain {key : PyStr} {item item' : JSONValue} {rest rest' : List (PyStr × JSONValue)}
      (hkey : ¬ SensitiveKey key) (h : Scrubbed item item') (hrest : ScrubbedFields rest rest') :
      ScrubbedFields ((key, item) :: rest) ((key, item') :: rest')

end

mutual

/-- No string of a value, at any depth, has a secret-shaped part. -/
def NoSecrets : JSONValue → Prop
  | .str s => ∀ w, w <:+: s → ¬ SecretShaped w
  | .list items => NoSecretsItems items
  | .dict fields => NoSecretsFields fields
  | _ => True

def NoSecretsItems : List JSONValue → Prop
  | [] => True
  | item :: rest => NoSecrets item ∧ NoSecretsItems rest

def NoSecretsFields : List (PyStr × JSONValue) → Prop
  | [] => True
  | (_, item) :: rest => NoSecrets item ∧ NoSecretsFields rest

end

/-! ### The language of the pattern -/

lemma lang_exactlyThen_iff {s w : PyStr} {r : Re} :
    (exactlyThen s r).Lang w ↔ ∃ u, w = s ++ u ∧ r.Lang u := by
  induction s generalizing w with
  | nil => simp [exactlyThen]
  | cons x s ih =>
    change (∃ u v, w = u ++ v ∧ (∃ y, u = [y] ∧ decide (y = x)) ∧ (exactlyThen s r).Lang v) ↔ _
    simp only [ih]
    constructor
    · rintro ⟨u, v, rfl, ⟨y, rfl, hy⟩, t, rfl, ht⟩
      exact ⟨t, by simp [of_decide_eq_true hy], ht⟩
    · rintro ⟨t, rfl, ht⟩
      exact ⟨[x], s ++ t, rfl, ⟨x, rfl, by simp⟩, t, rfl, ht⟩

lemma lang_secretValue_iff {w : PyStr} : secretValue.Lang w ↔ SecretShaped w := by
  constructor
  · rintro (h | h | h)
    · obtain ⟨key, rfl, hall, hlen, -⟩ := lang_exactlyThen_iff.mp h
      exact .key hlen hall
    · obtain ⟨rest, rfl, blank, token, rfl, ⟨hspace, hblank, -⟩, hall, hlen, -⟩ :=
        lang_exactlyThen_iff.mp h
      exact .bearer (List.ne_nil_of_length_pos hblank) hspace hlen hall
    · obtain ⟨hall, hlen, -⟩ := h
      exact .blob hlen hall
  · intro h
    cases h with
    | key hlen hall => exact .inl (lang_exactlyThen_iff.mpr ⟨_, rfl, hall, hlen, by simp⟩)
    | bearer hblank hspace hlen hall =>
      refine .inr (.inl (lang_exactlyThen_iff.mpr ⟨_, rfl, _, _, rfl, ?_, hall, hlen, by simp⟩))
      exact ⟨hspace, List.length_pos_iff.mpr hblank, by simp⟩
    | blob hlen hall => exact .inr (.inr ⟨hall, hlen, by simp⟩)

lemma SecretShaped.length_ge {w : PyStr} (h : SecretShaped w) : 16 ≤ w.length := by
  cases h with
  | key hlen hall =>
    rw [List.length_append]
    omega
  | bearer hblank hspace hlen hall =>
    rw [List.length_append, List.length_append]
    omega
  | blob hlen hall => omega

/-- The characters of secrets. -/
def isSecretChar (x : PyChar) : Bool := isTokenChar x || x.isSpace

lemma isSecretChar_of_isAlnum {x : PyChar} (h : isAlnum x) : isSecretChar x := by
  simp [isSecretChar, isTokenChar, isBlobChar, h]

lemma SecretShaped.chars {w : PyStr} (h : SecretShaped w) : ∀ x ∈ w, isSecretChar x := by
  intro x hx
  cases h with
  | key hlen hall =>
    rcases List.mem_append.mp hx with hx | hx
    · have hliteral : ∀ y ∈ py "sk-", isSecretChar y := by decide
      exact hliteral x hx
    · exact isSecretChar_of_isAlnum (hall x hx)
  | bearer hblank hspace hlen hall =>
    rcases List.mem_append.mp hx with hx | hx
    · have hliteral : ∀ y ∈ py "Bearer", isSecretChar y := by decide
      exact hliteral x hx
    · rcases List.mem_append.mp hx with hx | hx
      · simp [isSecretChar, hspace x hx]
      · simp [isSecretChar, hall x hx]
  | blob hlen hall => simp [isSecretChar, isTokenChar, hall x hx]

/-- The sentinel's brackets are in no secret, and it holds none. -/
lemma seals_redacted : Seals secretValue isSecretChar redacted where
  proper h := by
    have := (lang_secretValue_iff.mp h).length_ge
    simp at this
  chars w h := (lang_secretValue_iff.mp h).chars
  repl := by
    refine ⟨.scalar '[', py "REDACTED", .scalar ']', by decide, by decide, by decide, ?_⟩
    intro w hw h
    have hlen := (lang_secretValue_iff.mp h).length_ge
    have hle : w.length ≤ 8 := hw.length_le
    omega

lemma isSensitive_iff {key : PyStr} : isSensitive key ↔ SensitiveKey key := isSome_search_iff

/-! ### Scrubbed values -/

lemma noSecrets_scrubText (s : PyStr) : NoSecrets (.str (scrubText s)) := by
  intro w hw h
  exact clean_sub seals_redacted s w hw (lang_secretValue_iff.mpr h)

lemma noSecrets_redacted : NoSecrets (.str redacted) := by
  have hself : scrubText redacted = redacted := by decide
  rw [← hself]
  exact noSecrets_scrubText redacted

mutual

lemma scrubbed_scrub : ∀ v : JSONValue, Scrubbed v (scrub v)
  | .null => by rw [scrub]; exact .null
  | .bool b => by rw [scrub]; exact .bool b
  | .int n => by rw [scrub]; exact .int n
  | .float literal => by rw [scrub]; exact .float literal
  | .str s => by rw [scrub]; exact .str s _
  | .list items => by rw [scrub]; exact .list (scrubbed_scrubItems items)
  | .dict fields => by rw [scrub]; exact .dict (scrubbed_scrubFields fields)

lemma scrubbed_scrubItems : ∀ items : List JSONValue, ScrubbedItems items (scrubItems items)
  | [] => by rw [scrubItems]; exact .nil
  | item :: rest => by
    rw [scrubItems]
    exact .cons (scrubbed_scrub item) (scrubbed_scrubItems rest)

lemma scrubbed_scrubFields :
    ∀ fields : List (PyStr × JSONValue), ScrubbedFields fields (scrubFields fields)
  | [] => by rw [scrubFields]; exact .nil
  | (key, item) :: rest => by
    rw [scrubFields]
    split_ifs with hkey
    · exact .sensitive (isSensitive_iff.mp hkey) (scrubbed_scrubFields rest)
    · refine .plain (fun h => hkey (isSensitive_iff.mpr h)) ?_ (scrubbed_scrubFields rest)
      exact scrubbed_scrub item

end

mutual

lemma noSecrets_scrub : ∀ v : JSONValue, NoSecrets (scrub v)
  | .null => by simp [scrub, NoSecrets]
  | .bool b => by simp [scrub, NoSecrets]
  | .int n => by simp [scrub, NoSecrets]
  | .float literal => by simp [scrub, NoSecrets]
  | .str s => by rw [scrub]; exact noSecrets_scrubText s
  | .list items => by rw [scrub, NoSecrets]; exact noSecrets_scrubItems items
  | .dict fields => by rw [scrub, NoSecrets]; exact noSecrets_scrubFields fields

lemma noSecrets_scrubItems : ∀ items : List JSONValue, NoSecretsItems (scrubItems items)
  | [] => by rw [scrubItems, NoSecretsItems]; exact trivial
  | item :: rest => by
    rw [scrubItems, NoSecretsItems]
    exact ⟨noSecrets_scrub item, noSecrets_scrubItems rest⟩

lemma noSecrets_scrubFields :
    ∀ fields : List (PyStr × JSONValue), NoSecretsFields (scrubFields fields)
  | [] => by rw [scrubFields, NoSecretsFields]; exact trivial
  | (key, item) :: rest => by
    rw [scrubFields, NoSecretsFields]
    refine ⟨?_, noSecrets_scrubFields rest⟩
    split_ifs
    · exact noSecrets_redacted
    · exact noSecrets_scrub item

end

mutual

lemma scrub_scrub : ∀ v : JSONValue, scrub (scrub v) = scrub v
  | .null => by simp only [scrub]
  | .bool b => by simp only [scrub]
  | .int n => by simp only [scrub]
  | .float literal => by simp only [scrub]
  | .str s => by
    simp only [scrub]
    exact congrArg JSONValue.str (sub_sub seals_redacted s)
  | .list items => by simp only [scrub, scrubItems_scrubItems items]
  | .dict fields => by simp only [scrub, scrubFields_scrubFields fields]

lemma scrubItems_scrubItems :
    ∀ items : List JSONValue, scrubItems (scrubItems items) = scrubItems items
  | [] => by simp only [scrubItems]
  | item :: rest => by simp only [scrubItems, scrub_scrub item, scrubItems_scrubItems rest]

lemma scrubFields_scrubFields :
    ∀ fields : List (PyStr × JSONValue), scrubFields (scrubFields fields) = scrubFields fields
  | [] => by simp only [scrubFields]
  | (key, item) :: rest => by
    simp only [scrubFields, scrubFields_scrubFields rest]
    split_ifs
    · rfl
    · rw [scrub_scrub item]

end

/-- **Redaction.** A scrubbed value has the shape of the value, with the sentinel under every
sensitive name and no secret-shaped part in any string, and scrubbing it again changes nothing. -/
theorem scrub_complete (v : JSONValue) :
    Scrubbed v (scrub v) ∧ NoSecrets (scrub v) ∧ scrub (scrub v) = scrub v :=
  ⟨scrubbed_scrub v, noSecrets_scrub v, scrub_scrub v⟩

end ModelDispatcher.Redaction
