import ModelDispatcher.Settings

/-!
What is loaded from a storage can be saved and loaded again: loading leaves nothing that saving
would clean, and saving leaves nothing that loading would replace.
-/

namespace ModelDispatcher.Persistence

open Lib.Js BrowserAgent Settings

/-! ### Clean configurations -/

/-- Models, keys and the URL are trimmed and not blank. -/
structure Clean (cfg : AgentConfig) : Prop where
  models : ∀ cred ∈ cfg.providers, Trimmed cred.model
  keys : ∀ cred ∈ cfg.providers, ∀ key ∈ cred.apiKeys, Trimmed key
  url : Trimmed cfg.ollamaUrl

lemma trimmed_textOr {default : JsStr} (h : Trimmed default) (value : JsValue) :
    Trimmed (textOr default value) := by
  unfold textOr
  split
  · exact h
  · split_ifs with hblank
    · exact h
    · exact trimmed_trim hblank

lemma trimmed_keysOf {value : JsValue} {key : JsStr} (h : key ∈ keysOf value) : Trimmed key := by
  unfold keysOf at h
  split at h
  · obtain ⟨k, hk, rfl⟩ := List.mem_map.mp h
    exact trimmed_trim (by simpa using (List.mem_filter.mp hk).2)
  · cases h

/-- Every default model is one to load. -/
lemma trimmed_defaultModel (provider : ProviderId) : Trimmed (providers provider).defaultModel := by
  cases provider <;> decide

lemma trimmed_defaultOllamaUrl : Trimmed defaultOllamaUrl := by decide

lemma sanitizeCredential_clean {raw : JsValue} {cred : ProviderCredential}
    (h : sanitizeCredential raw = some cred) :
    Trimmed cred.model ∧ ∀ key ∈ cred.apiKeys, Trimmed key := by
  unfold sanitizeCredential at h
  split_ifs at h
  split at h
  · cases h
  · cases h
    exact ⟨trimmed_textOr (trimmed_defaultModel _) _, fun key => trimmed_keysOf⟩

lemma clean_nothingConfigured : Clean nothingConfigured :=
  ⟨by simp [nothingConfigured], by simp [nothingConfigured], trimmed_defaultOllamaUrl⟩

lemma clean_sanitized {raws : List JsValue} {url : JsStr} (hurl : Trimmed url) :
    Clean ⟨raws.filterMap sanitizeCredential, url⟩ := by
  have hcreds : ∀ cred ∈ raws.filterMap sanitizeCredential,
      Trimmed cred.model ∧ ∀ key ∈ cred.apiKeys, Trimmed key := by
    intro cred hcred
    obtain ⟨raw, -, hraw⟩ := List.mem_filterMap.mp hcred
    exact sanitizeCredential_clean hraw
  exact ⟨fun cred hcred => (hcreds cred hcred).1, fun cred hcred => (hcreds cred hcred).2, hurl⟩

/-- Whatever is found in the storage, a clean configuration is made of it. -/
lemma clean_loadConfig (parse : JsStr → Option JsValue) (stored : Option JsStr) :
    Clean (loadConfig parse stored) := by
  unfold loadConfig
  split
  · exact clean_nothingConfigured
  · exact clean_nothingConfigured
  · split
    · exact clean_nothingConfigured
    · rename_i parsed _
      split_ifs
      · have hurl := trimmed_textOr trimmed_defaultOllamaUrl (parsed.property (js "ollamaUrl"))
        cases parsed.property (js "providers") with
        | array raws => exact clean_sanitized hurl
        | _ => exact ⟨by simp, by simp, hurl⟩
      · exact clean_nothingConfigured

/-! ### Saving a clean configuration -/

lemma map_trim {apiKeys : List JsStr} (h : ∀ key ∈ apiKeys, Trimmed key) :
    apiKeys.map trim = apiKeys :=
  (List.map_congr_left fun key hkey => (h key hkey).1).trans (List.map_id' apiKeys)

lemma textOr_string {default text : JsStr} (htext : Trimmed text) :
    textOr default (.string text) = text := by
  rw [textOr, JsValue.asString]
  dsimp only
  rw [htext.1, if_neg htext.2]

lemma keysOf_strings {apiKeys : List JsStr} (hkeys : ∀ key ∈ apiKeys, Trimmed key) :
    keysOf (.array (apiKeys.map .string)) = apiKeys := by
  have hstrings : (apiKeys.map JsValue.string).filterMap JsValue.asString = apiKeys := by
    rw [List.filterMap_map]
    exact List.filterMap_some
  have hfilled : apiKeys.filter (trim · ≠ []) = apiKeys :=
    List.filter_eq_self.mpr fun key hkey => by
      simpa [(hkeys key hkey).1] using (hkeys key hkey).2
  rw [keysOf, hstrings, hfilled]
  exact map_trim hkeys

lemma knownProvider_providerText (provider : ProviderId) :
    knownProvider (providerText provider) = some provider := by
  cases provider <;> decide

section

variable {cfg : AgentConfig} (h : Clean cfg)
include h

/-- There is nothing to clean. -/
lemma cleaned_eq : cleaned cfg = cfg := by
  have hcreds : ∀ cred ∈ cfg.providers, (⟨cred.provider, trim cred.model,
      (cred.apiKeys.map trim).filter (0 < ·.length)⟩ : ProviderCredential) = cred := by
    intro cred hcred
    have hkeys : cred.apiKeys.map trim = cred.apiKeys :=
      map_trim fun key hkey => h.keys cred hcred key hkey
    have hfilled : cred.apiKeys.filter (0 < ·.length) = cred.apiKeys :=
      List.filter_eq_self.mpr fun key hkey => by
        simpa [List.length_pos_iff] using (h.keys cred hcred key hkey).2
    rw [hkeys, hfilled, (h.models cred hcred).1]
  have hproviders := List.map_congr_left hcreds
  rw [List.map_id'] at hproviders
  obtain ⟨creds, url⟩ := cfg
  have hurl : trim url = url ∧ url ≠ [] := h.url
  unfold cleaned
  rw [hproviders, hurl.1, if_neg hurl.2]

/-- Every entry is read back. -/
lemma sanitizeCredential_credentialValue {cred : ProviderCredential}
    (hcred : cred ∈ cfg.providers) :
    sanitizeCredential (credentialValue cred) = some cred := by
  have hprovider : (credentialValue cred).property (js "provider") =
      .string (providerText cred.provider) := rfl
  have hmodel : (credentialValue cred).property (js "model") = .string cred.model := rfl
  have hkeys : (credentialValue cred).property (js "apiKeys") =
      .array (cred.apiKeys.map .string) := rfl
  rw [sanitizeCredential, if_pos (show isObject (credentialValue cred) = true from rfl), hprovider,
    hmodel, hkeys, JsValue.asString, Option.bind_some, knownProvider_providerText]
  dsimp only
  rw [textOr_string (h.models cred hcred), keysOf_strings (h.keys cred hcred)]

/-- The configuration is read back, with every provider and key in its place. -/
lemma loadConfig_configValue {parse : JsStr → Option JsValue} {raw : JsStr} (hraw : raw ≠ [])
    (hparse : parse raw = some (configValue cfg)) : loadConfig parse (some raw) = cfg := by
  obtain ⟨c, raw, rfl⟩ := List.exists_cons_of_ne_nil hraw
  have hproviders : (configValue cfg).property (js "providers") =
      .array (cfg.providers.map credentialValue) := rfl
  have hurl : (configValue cfg).property (js "ollamaUrl") = .string cfg.ollamaUrl := rfl
  have hcreds : (cfg.providers.map credentialValue).filterMap sanitizeCredential =
      cfg.providers := by
    rw [List.filterMap_map]
    refine (List.filterMap_congr fun cred hcred => ?_).trans List.filterMap_some
    exact sanitizeCredential_credentialValue h hcred
  unfold loadConfig
  dsimp only
  rw [hparse]
  dsimp only
  rw [if_pos (show isObject (configValue cfg) = true from rfl), hproviders, hurl,
    textOr_string h.url]
  dsimp only
  rw [hcreds]

end

/-- `JSON.parse` reads back what `JSON.stringify` wrote of a value, and does not read the empty
text. -/
structure Inverts (parse : JsStr → Option JsValue) (stringify : JsValue → JsStr) (value : JsValue) :
    Prop where
  reads : parse (stringify value) = some value
  nonempty : stringify value ≠ []

/-- **Loading is a retraction.** Whatever is stored, a clean configuration is loaded, and a clean
configuration that is saved to any storage, under any key, is what is loaded from there: each
provider, each key and their order. -/
theorem load_save_load (parse : JsStr → Option JsValue) (stringify : JsValue → JsStr) :
    (∀ stored, Clean (loadConfig parse stored)) ∧
      ∀ cfg, Clean cfg → Inverts parse stringify (configValue (cleaned cfg)) →
        ∀ (store : ConfigStorage) (key : JsStr),
          loadConfig parse (saveConfig stringify cfg store key key) = cfg := by
  refine ⟨clean_loadConfig parse, fun cfg hclean hjson store key => ?_⟩
  rw [saveConfig, Function.update_self]
  refine loadConfig_configValue hclean hjson.nonempty ?_
  rw [hjson.reads, cleaned_eq hclean]

namespace Sample

def storedText : JsStr :=
  js ("\x7b\"providers\":[\x7b\"provider\":\"openai\",\"model\":\" gpt-4o\"," ++
    "\"apiKeys\":[\" k1 \",\"\",\"k2\"]\x7d,\x7b\"provider\":\"mistral\"\x7d," ++
    "\x7b\"provider\":\"ollama\"\x7d],\"ollamaUrl\":\" \"\x7d")

def storedValue : JsValue :=
  .object [
    (js "providers", .array [
      .object [(js "provider", .string (js "openai")), (js "model", .string (js " gpt-4o")),
        (js "apiKeys", .array [.string (js " k1 "), .string [], .string (js "k2")])],
      .object [(js "provider", .string (js "mistral"))],
      .object [(js "provider", .string (js "ollama"))]]),
    (js "ollamaUrl", .string (js " "))]

/-- What is loaded: the unknown provider is dropped and the rest is trimmed. -/
def loaded : AgentConfig where
  providers := [⟨.openai, js "gpt-4o", [js "k1", js "k2"]⟩, ⟨.ollama, js "llama3.2", []⟩]
  ollamaUrl := defaultOllamaUrl

def savedText : JsStr :=
  js ("\x7b\"providers\":[\x7b\"provider\":\"openai\",\"model\":\"gpt-4o\"," ++
    "\"apiKeys\":[\"k1\",\"k2\"]\x7d,\x7b\"provider\":\"ollama\"," ++
    "\"model\":\"llama3.2\",\"apiKeys\":[]\x7d]," ++
    "\"ollamaUrl\":\"http://localhost:11434\"\x7d")

def parse (text : JsStr) : Option JsValue :=
  if text = storedText then some storedValue
  else if text = savedText then some (configValue loaded)
  else none

end Sample

/-- Two providers and two keys, loaded from one storage and saved to another one under another
key. -/
theorem providers_load_save_load :
    loadConfig Sample.parse (some Sample.storedText) = Sample.loaded ∧
      loadConfig Sample.parse (saveConfig (fun _ => Sample.savedText)
        (loadConfig Sample.parse (some Sample.storedText)) (fun _ => none) (js "copy")
        (js "copy")) = Sample.loaded := by
  have hloaded : loadConfig Sample.parse (some Sample.storedText) = Sample.loaded := by
    decide +kernel
  obtain ⟨hclean, hsave⟩ := load_save_load Sample.parse fun _ => Sample.savedText
  have hother : Sample.savedText ≠ Sample.storedText := by decide +kernel
  have hjson : Inverts Sample.parse (fun _ => Sample.savedText)
      (configValue (cleaned Sample.loaded)) := by
    refine ⟨?_, by decide +kernel⟩
    rw [cleaned_eq (hloaded ▸ hclean _), Sample.parse, if_neg hother, if_pos rfl]
  refine ⟨hloaded, ?_⟩
  rw [hloaded]
  exact hsave _ (hloaded ▸ hclean _) hjson _ _

end ModelDispatcher.Persistence
