import Mathlib.Logic.Function.Basic
import ModelDispatcher.BrowserAgent
import ModelDispatcher.Lib.Runs

/-!
The settings of the browser agent: how a configuration is stored and read, whether it is ready, and
what each control of the settings screen does to it.

What `JSON.parse` makes of a text and what `JSON.stringify` writes of a value are parameters.
-/

namespace ModelDispatcher.Settings

open Lib.Js Lib.Runs BrowserAgent

/-! ### The registry -/

/-- What the settings read of a provider's metadata. -/
structure ProviderInfo where
  noKey : Bool := false
  defaultModel : JsStr

def providers : ProviderId → ProviderInfo
  | .gemini => { defaultModel := js "gemini-2.0-flash" }
  | .groq => { defaultModel := js "llama-3.1-8b-instant" }
  | .ollama => { noKey := true, defaultModel := js "llama3.2" }
  | .anthropic => { defaultModel := js "claude-haiku-4-5-20251001" }
  | .openai => { defaultModel := js "gpt-4o-mini" }

def providerText : ProviderId → JsStr
  | .gemini => js "gemini"
  | .groq => js "groq"
  | .ollama => js "ollama"
  | .anthropic => js "anthropic"
  | .openai => js "openai"

/-- The provider of a text that is known. -/
def knownProvider (id : JsStr) : Option ProviderId :=
  [.gemini, .groq, .ollama, .anthropic, .openai].find? fun p => providerText p = id

def modelOptions : ProviderId → List JsStr
  | .gemini => [js "gemini-2.0-flash", js "gemini-2.5-flash", js "gemini-2.5-pro"]
  | .groq => [js "llama-3.1-8b-instant", js "llama-3.3-70b-versatile", js "openai/gpt-oss-120b"]
  | .ollama => [js "llama3.2", js "llama3.1", js "mistral", js "qwen2.5"]
  | .anthropic => [js "claude-haiku-4-5-20251001", js "claude-sonnet-4-5", js "claude-opus-4-8"]
  | .openai => [js "gpt-4o-mini", js "gpt-4o", js "gpt-4.1-mini"]

def modelOptionsFor (provider : ProviderId) : List JsStr :=
  let options := modelOptions provider
  let defaultModel := (providers provider).defaultModel
  if defaultModel ∈ options then options else defaultModel :: options

/-! ### The stored configuration -/

def defaultOllamaUrl : JsStr := js "http://localhost:11434"

/-- `typeof value === "object" && value !== null`. -/
def isObject : JsValue → Bool
  | .array _ | .object _ => true
  | _ => false

/-- The trimmed text of a value, or the default where there is none. -/
def textOr (default : JsStr) (value : JsValue) : JsStr :=
  match value.asString with
  | none => default
  | some text => if trim text = [] then default else trim text

def keysOf : JsValue → List JsStr
  | .array apiKeys => ((apiKeys.filterMap JsValue.asString).filter (trim · ≠ [])).map trim
  | _ => []

def sanitizeCredential (raw : JsValue) : Option ProviderCredential :=
  if isObject raw then
    match (raw.property (js "provider")).asString.bind knownProvider with
    | none => none
    | some provider => some {
        provider
        model := textOr (providers provider).defaultModel (raw.property (js "model"))
        apiKeys := keysOf (raw.property (js "apiKeys")) }
  else none

def nothingConfigured : AgentConfig := ⟨[], defaultOllamaUrl⟩

def loadConfig (parse : JsStr → Option JsValue) (stored : Option JsStr) : AgentConfig :=
  match stored with
  | none | some [] => nothingConfigured
  | some raw =>
    match parse raw with
    | none => nothingConfigured
    | some parsed =>
      if isObject parsed then {
        providers := match parsed.property (js "providers") with
          | .array raws => raws.filterMap sanitizeCredential
          | _ => []
        ollamaUrl := textOr defaultOllamaUrl (parsed.property (js "ollamaUrl")) }
      else nothingConfigured

/-- The config that is written. -/
def cleaned (config : AgentConfig) : AgentConfig where
  providers := config.providers.map fun cred => {
    provider := cred.provider
    model := trim cred.model
    apiKeys := (cred.apiKeys.map trim).filter (0 < ·.length) }
  ollamaUrl := if trim config.ollamaUrl = [] then defaultOllamaUrl else trim config.ollamaUrl

def credentialValue (cred : ProviderCredential) : JsValue :=
  .object [(js "provider", .string (providerText cred.provider)), (js "model", .string cred.model),
    (js "apiKeys", .array (cred.apiKeys.map .string))]

def configValue (config : AgentConfig) : JsValue :=
  .object [(js "providers", .array (config.providers.map credentialValue)),
    (js "ollamaUrl", .string config.ollamaUrl)]

/-- What is stored under each key. -/
abbrev ConfigStorage := JsStr → Option JsStr

def saveConfig (stringify : JsValue → JsStr) (config : AgentConfig) (store : ConfigStorage)
    (key : JsStr) : ConfigStorage :=
  Function.update store key (some (stringify (configValue (cleaned config))))

def isConfigReady (cfg : AgentConfig) : Bool :=
  cfg.providers.any fun cred => cred.provider = .ollama || 0 < cred.apiKeys.length

/-! ### The settings screen -/

section

variable (config : AgentConfig)

/-- The entry at an index, changed. -/
def atProvider (index : ℕ) (change : ProviderCredential → ProviderCredential) : AgentConfig :=
  { config with providers := config.providers.mapIdx fun i p => if i = index then change p else p }

/-- A `Partial<ProviderCredential>`. -/
structure Patch where
  provider : Option ProviderId := none
  model : Option JsStr := none
  apiKeys : Option (List JsStr) := none

def replaceProvider (index : ℕ) (patch : Patch) : AgentConfig :=
  atProvider config index fun p => {
    provider := patch.provider.getD p.provider
    model := patch.model.getD p.model
    apiKeys := patch.apiKeys.getD p.apiKeys }

def replaceKey (providerIndex keyIndex : ℕ) (value : JsStr) : AgentConfig :=
  atProvider config providerIndex fun p =>
    { p with apiKeys := p.apiKeys.mapIdx fun ki k => if ki = keyIndex then value else k }

def addKey (providerIndex : ℕ) : AgentConfig :=
  atProvider config providerIndex fun p => { p with apiKeys := p.apiKeys ++ [[]] }

def removeKey (providerIndex keyIndex : ℕ) : AgentConfig :=
  atProvider config providerIndex fun p => { p with apiKeys := p.apiKeys.eraseIdx keyIndex }

def removeProvider (index : ℕ) : AgentConfig :=
  { config with providers := config.providers.eraseIdx index }

def addProvider (provider : ProviderId) : AgentConfig :=
  let info := providers provider
  { config with providers := config.providers ++
      [⟨provider, info.defaultModel, if info.noKey then [] else [[]]⟩] }

end

inductive Edit
  | removeProvider (index : ℕ)
  | changeModel (index : ℕ) (model : JsStr)
  | changeUrl (url : JsStr)
  | replaceKey (providerIndex keyIndex : ℕ) (value : JsStr)
  | removeKey (providerIndex keyIndex : ℕ)
  | addKey (providerIndex : ℕ)
  | addProvider (provider : ProviderId)

/-- The screen shows a control for the edit. -/
def Offered (config : AgentConfig) : Edit → Prop
  | .removeProvider index => index < config.providers.length
  | .changeModel index model => ∃ cred, config.providers[index]? = some cred ∧
      model ∈ modelOptionsFor cred.provider
  | .changeUrl _ => ∃ cred ∈ config.providers, (providers cred.provider).noKey
  | .replaceKey providerIndex keyIndex _ | .removeKey providerIndex keyIndex =>
      ∃ cred, config.providers[providerIndex]? = some cred ∧ ¬ (providers cred.provider).noKey ∧
        keyIndex < cred.apiKeys.length
  | .addKey providerIndex => ∃ cred, config.providers[providerIndex]? = some cred ∧
      ¬ (providers cred.provider).noKey
  | .addProvider provider => ∀ cred ∈ config.providers, cred.provider ≠ provider

/-- The config that is passed to `onConfigChange`. -/
def changed (config : AgentConfig) : Edit → AgentConfig
  | .removeProvider index => removeProvider config index
  | .changeModel index model => replaceProvider config index { model := some model }
  | .changeUrl url => { config with ollamaUrl := url }
  | .replaceKey providerIndex keyIndex value => replaceKey config providerIndex keyIndex value
  | .removeKey providerIndex keyIndex => removeKey config providerIndex keyIndex
  | .addKey providerIndex => addKey config providerIndex
  | .addProvider provider => addProvider config provider

/-- One step of the screen, whose owner passes every changed config back to it. -/
def Edits (config : AgentConfig) (edit : Edit) (config' : AgentConfig) : Prop :=
  Offered config edit ∧ config' = changed config edit

end ModelDispatcher.Settings
