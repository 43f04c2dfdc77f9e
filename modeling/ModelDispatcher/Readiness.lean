import ModelDispatcher.Completion
import ModelDispatcher.Settings

/-!
Whether a configuration that counts as ready has a candidate to dispatch to, along every sequence of
edits on the settings screen.
-/

namespace ModelDispatcher.Readiness

open Lib.Js Lib.Logged Lib.Runs BrowserAgent Completion Settings

/-! ### What the two checks look at -/

/-- An Ollama entry needs no key. -/
def HasOllama (cfg : AgentConfig) : Prop := ∃ cred ∈ cfg.providers, cred.provider = .ollama

/-- Some entry has a key field. -/
def HasKeyField (cfg : AgentConfig) : Prop := ∃ cred ∈ cfg.providers, cred.apiKeys ≠ []

/-- Some key field is filled in. -/
def HasKey (cfg : AgentConfig) : Prop := ∃ cred ∈ cfg.providers, ∃ key ∈ cred.apiKeys, key ≠ []

/-- There are key fields, but all of them are blank, and there is no Ollama entry. -/
def OnlyBlankKeys (cfg : AgentConfig) : Prop := HasKeyField cfg ∧ ¬ HasKey cfg ∧ ¬ HasOllama cfg

section

variable {cfg : AgentConfig}

lemma isConfigReady_iff : isConfigReady cfg ↔ HasOllama cfg ∨ HasKeyField cfg := by
  simp only [isConfigReady, List.any_eq_true, Bool.or_eq_true, decide_eq_true_eq,
    List.length_pos_iff, and_or_left, exists_or, HasOllama, HasKeyField]

lemma candidatesOf_ne_nil_iff : candidatesOf cfg ≠ [] ↔ HasOllama cfg ∨ HasKey cfg := by
  simp only [candidatesOf, ne_eq, List.flatMap_eq_nil_iff, not_forall]
  refine ⟨?_, ?_⟩
  · rintro ⟨cred, hcred, hne⟩
    split_ifs at hne with hollama
    · exact .inl ⟨cred, hcred, hollama⟩
    · obtain ⟨key, hkey⟩ := List.exists_mem_of_ne_nil _ (mt List.map_eq_nil_iff.mpr hne)
      obtain ⟨hmem, hfilled⟩ := List.mem_filter.mp hkey
      exact .inr ⟨cred, hcred, key, hmem, by simpa using hfilled⟩
  · rintro (⟨cred, hcred, hollama⟩ | ⟨cred, hcred, key, hkey, hfilled⟩)
    · exact ⟨cred, hcred, by simp [hollama]⟩
    · refine ⟨cred, hcred, ?_⟩
      split_ifs
      · simp
      · simp only [List.map_eq_nil_iff, List.filter_eq_nil_iff, not_forall]
        exact ⟨key, hkey, by simpa using hfilled⟩

lemma HasKey.hasKeyField (h : HasKey cfg) : HasKeyField cfg := by
  obtain ⟨cred, hcred, key, hkey, -⟩ := h
  exact ⟨cred, hcred, List.ne_nil_of_mem hkey⟩

end

/-- `complete` throws for want of a provider exactly when there is no candidate. -/
lemma complete_unconfigured_iff (runtime : Runtime) (cfg : AgentConfig) (prompt : Prompt)
    (options : RequestOptions) (m : Machine) :
    answer ((complete runtime cfg prompt options).run m) = .error .noProviderConfigured ↔
      candidatesOf cfg = [] := by
  unfold complete
  extract_lets candidates
  split_ifs with hnil
  · exact iff_of_true rfl hnil
  · obtain ⟨es, -, htries⟩ :=
      tries_completeFrom runtime (messagesOf prompt) options candidates 0 [] m
    exact iff_of_false htries.ne_noProviderConfigured hnil

/-- The check agrees with the dispatch: a ready configuration is one with a candidate, and one for
which `complete` does not throw for want of a provider. -/
structure Agrees (cfg : AgentConfig) : Prop where
  candidates : isConfigReady cfg ↔ candidatesOf cfg ≠ []
  dispatch : ∀ (runtime : Runtime) (prompt : Prompt) (options : RequestOptions) (m : Machine),
    isConfigReady cfg ↔
      answer ((complete runtime cfg prompt options).run m) ≠ .error .noProviderConfigured

/-- The check is wrong about blank keys only. -/
lemma agrees_iff {cfg : AgentConfig} : Agrees cfg ↔ ¬ OnlyBlankKeys cfg := by
  have hcandidates : Agrees cfg ↔ (isConfigReady cfg ↔ candidatesOf cfg ≠ []) := by
    refine ⟨Agrees.candidates, fun h => ⟨h, fun runtime prompt options m => ?_⟩⟩
    rw [h, ne_eq, ne_eq, complete_unconfigured_iff]
  rw [hcandidates, isConfigReady_iff, candidatesOf_ne_nil_iff, OnlyBlankKeys]
  have hfield : HasKey cfg → HasKeyField cfg := HasKey.hasKeyField
  tauto

/-! ### Loaded configurations -/

lemma keysOf_ne_nil {value : JsValue} : ∀ key ∈ keysOf value, key ≠ [] := by
  intro key hkey
  cases value with
  | array apiKeys =>
    obtain ⟨k, hk, rfl⟩ := List.mem_map.mp hkey
    simpa using (List.mem_filter.mp hk).2
  | _ => cases hkey

lemma sanitizeCredential_keys {raw : JsValue} {cred : ProviderCredential}
    (h : sanitizeCredential raw = some cred) : ∀ key ∈ cred.apiKeys, key ≠ [] := by
  unfold sanitizeCredential at h
  split_ifs at h
  split at h
  · cases h
  · cases h
    exact keysOf_ne_nil

/-- Every key that is loaded is filled in. -/
lemma loadConfig_keys (parse : JsStr → Option JsValue) (stored : Option JsStr) :
    ∀ cred ∈ (loadConfig parse stored).providers, ∀ key ∈ cred.apiKeys, key ≠ [] := by
  have hnothing : ∀ cred ∈ nothingConfigured.providers, ∀ key ∈ cred.apiKeys, key ≠ [] := nofun
  unfold loadConfig
  split
  · exact hnothing
  · exact hnothing
  · split
    · exact hnothing
    · split_ifs
      · intro cred hcred
        dsimp only at hcred
        split at hcred
        · obtain ⟨raw, -, hraw⟩ := List.mem_filterMap.mp hcred
          exact sanitizeCredential_keys hraw
        · cases hcred
      · exact hnothing

lemma loadConfig_not_onlyBlankKeys (parse : JsStr → Option JsValue) (stored : Option JsStr) :
    ¬ OnlyBlankKeys (loadConfig parse stored) := by
  rintro ⟨⟨cred, hcred, hfield⟩, hnoKey, -⟩
  obtain ⟨key, hkey⟩ := List.exists_mem_of_ne_nil _ hfield
  exact hnoKey ⟨cred, hcred, key, hkey, loadConfig_keys parse stored cred hcred key hkey⟩

/-! ### Edited configurations -/

/-- A key that is filled in makes the configuration agree, whatever else it holds. -/
lemma agrees_replaceKey {cfg : AgentConfig} {providerIndex keyIndex : ℕ} {value : JsStr}
    (h : Offered cfg (.replaceKey providerIndex keyIndex value)) (hvalue : value ≠ []) :
    Agrees (changed cfg (.replaceKey providerIndex keyIndex value)) := by
  obtain ⟨cred, hcred, -, hkey⟩ := h
  obtain ⟨hindex, rfl⟩ := List.getElem?_eq_some_iff.mp hcred
  refine agrees_iff.mpr fun ⟨_, hnoKey, _⟩ => hnoKey ?_
  refine ⟨_, List.mem_mapIdx.mpr ⟨providerIndex, hindex, rfl⟩, value, ?_, hvalue⟩
  rw [if_pos rfl]
  exact List.mem_mapIdx.mpr ⟨keyIndex, hkey, if_pos rfl⟩

/-- A provider that needs a key comes with a blank one, which does not make a candidate. -/
lemma not_agrees_addProvider {cfg : AgentConfig} {provider : ProviderId}
    (h : candidatesOf cfg = []) (hkeyed : ¬ (providers provider).noKey) :
    ¬ Agrees (changed cfg (.addProvider provider)) := by
  intro hagrees
  have hnone : ¬ (HasOllama cfg ∨ HasKey cfg) := by
    rw [← candidatesOf_ne_nil_iff]
    exact not_not.mpr h
  have hollama : provider ≠ .ollama := by
    rintro rfl
    exact hkeyed rfl
  have hmem : ∀ cred, cred ∈ (changed cfg (.addProvider provider)).providers ↔
      cred ∈ cfg.providers ∨ cred = ⟨provider, (providers provider).defaultModel, [[]]⟩ := by
    intro cred
    simp [changed, addProvider, hkeyed]
  refine agrees_iff.mp hagrees ⟨⟨_, (hmem _).mpr (.inr rfl), nofun⟩, ?_, ?_⟩
  · rintro ⟨cred, hcred, key, hkey, hfilled⟩
    rcases (hmem cred).mp hcred with hcred | rfl
    · exact hnone (.inr ⟨cred, hcred, key, hkey, hfilled⟩)
    · exact hfilled (List.mem_singleton.mp hkey)
  · rintro ⟨cred, hcred, hprovider⟩
    rcases (hmem cred).mp hcred with hcred | rfl
    · exact hnone (.inl ⟨cred, hcred, hprovider⟩)
    · exact hollama hprovider

/-- **Ready configurations.** A loaded configuration agrees with the dispatch. Along every sequence
of edits from it, the configuration agrees exactly as long as its key fields are not all blank. -/
theorem agrees_along_edits (parse : JsStr → Option JsValue) (stored : Option JsStr)
    (edits : List Edit) (cfg : AgentConfig)
    (h : Steps Edits (loadConfig parse stored) edits cfg) :
    (edits = [] → Agrees cfg) ∧ (Agrees cfg ↔ ¬ OnlyBlankKeys cfg) := by
  refine ⟨fun hnone => ?_, agrees_iff⟩
  cases h with
  | refl => exact agrees_iff.mpr (loadConfig_not_onlyBlankKeys parse stored)
  | snoc hsteps hlast => simp at hnone

namespace Sample

/-- The first provider that is added to a fresh configuration. -/
def blank : AgentConfig := ⟨[⟨.openai, js "gpt-4o-mini", [[]]⟩], defaultOllamaUrl⟩

/-- The same with its key filled in. -/
def filled : AgentConfig := ⟨[⟨.openai, js "gpt-4o-mini", [js "sk-x"]⟩], defaultOllamaUrl⟩

lemma steps_blank (parse : JsStr → Option JsValue) :
    Steps Edits (loadConfig parse none) [.addProvider .openai] blank :=
  .single ⟨nofun, rfl⟩

lemma steps_filled (parse : JsStr → Option JsValue) : Steps Edits (loadConfig parse none)
    [.addProvider .openai, .replaceKey 0 0 (js "sk-x")] filled :=
  (steps_blank parse).snoc ⟨⟨_, rfl, nofun, Nat.one_pos⟩, rfl⟩

end Sample

/-- After a key was filled in. -/
theorem agrees_filled : Agrees Sample.filled := by
  refine (agrees_along_edits (fun _ => none) none _ _ (Sample.steps_filled _)).2.mpr ?_
  exact fun ⟨_, hnoKey, _⟩ => hnoKey
    ⟨_, List.mem_singleton_self _, js "sk-x", List.mem_singleton_self _, by decide⟩

/-- A provider that was just added makes a configuration ready that has no candidate. -/
theorem blank_disagrees : ¬ ∀ (parse : JsStr → Option JsValue) (stored : Option JsStr)
    (edits : List Edit) (cfg : AgentConfig), Steps Edits (loadConfig parse stored) edits cfg →
      Agrees cfg := by
  intro h
  have hagrees := h (fun _ => none) none _ _ (Sample.steps_blank _)
  exact hagrees.candidates.mp rfl rfl

end ModelDispatcher.Readiness
