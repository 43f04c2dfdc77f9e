import Mathlib.Data.List.Infix
import ModelDispatcher.Byok
import ModelDispatcher.Gateway

/-!
The gateway of the web template: the default scorer of the triage, the mock provider, and the
wiring of the three provider slots with the tenant they serve.

Lower-casing is a parameter, and so are the vendor adapters a key in the environment selects.
-/

namespace ModelDispatcher.Wiring

open Lib.Text Lib.Dicts DataTypes Exceptions Config Providers Machines Gateway Byok

/-! ### Triage -/

/-- Lower-cased substrings that signal reasoning or agentic work. -/
def reasoningMarkers : List PyStr :=
  [py "prove", py "step by step", py "step-by-step", py "analyze", py "analyse", py "reason",
   py "explain why", py "derive", py "optimize", py "optimise", py "design", py "architect",
   py "refactor", py "debug", py "trade-off", py "tradeoff", py "algorithm"]

variable (lower : PyStr → PyStr)

def score (request : CompletionRequest) : ℚ :=
  let text := lower (join ' ' (request.messages.map fun m => m.content.getD []))
  min ((text.length : ℚ) / 500) 4 + request.tools.length +
    (reasoningMarkers.filter fun marker => marker <:+: text).length +
    (if py "```" <:+: text then 1 else 0) +
    (if request.maxTokens.any (· > 1024) then 1 else 0)

def defaultScorer (request : CompletionRequest) : TaskComplexity :=
  let s := score lower request
  if s < 3 / 2 then .trivial
  else if s < 3 then .simple
  else if s < 5 then .moderate
  else .complex

example : defaultScorer id { messages := [{ role := .user, content := some (py "debug it") },
    { role := .user, content := some (py "step by step") }], tenant := [] } = .simple := by
  decide +kernel

/-! ### The mock provider -/

namespace MockProvider

/-- `math.ceil(chars / 4.0)`. -/
def tokens (chars : ℕ) : ℤ := ⌈(chars : ℚ) / 4⌉

def estimateTokens (request : CompletionRequest) : ℤ :=
  max 1 (tokens (request.messages.map fun m => (m.content.getD []).length).sum)

/-- The text of a `MockError`. -/
def errorText (c : ErrorClass) : PyStr := py "mock " ++ c.value ++ py " error"

def classifyError (exc : VendorError) : ErrorClass :=
  if exc.typeName = py "MockError" then
    ([.rateLimit, .quota, .auth, .transient, .invalid, .content].find?
      fun c => exc.text = errorText c).getD .transient
  else .transient

/-- `MockProvider(name, tier=tier, ...)`. -/
def create (name : PyStr) (tier : ModelTier) : ModelProvider where
  name := name
  tier := tier
  capabilities := .tools
  estimateTokens := estimateTokens
  classifyError := classifyError

/-- `complete` of a mock with nothing scripted and no failures left. -/
def complete (reply : PyStr) (p : ModelProvider) (request : CompletionRequest) :
    CompletionResponse where
  message := { role := .assistant, content := some reply }
  usage := ⟨p.estimateTokens request, tokens reply.length⟩
  providerName := p.name
  tier := p.tier

end MockProvider

/-! ### The slots -/

/-- `ProviderFactory`: a live adapter for a model, a tier and a key. -/
abbrev ProviderFactory := PyStr → ModelTier → PyStr → ModelProvider

/-- The constructors of the live adapters. -/
structure Vendors where
  gemini : ProviderFactory
  openAI : ProviderFactory
  anthropic : ProviderFactory

structure ProviderSlot where
  tier : ModelTier
  apiKeyEnv : PyStr
  modelEnv : PyStr
  defaultModel : PyStr
  build : ProviderFactory
  mockReply : PyStr

variable (vendors : Vendors)

/-- Cheapest tier first. -/
def slots : List ProviderSlot :=
  [{ tier := .free, apiKeyEnv := py "MD_GEMINI_API_KEY", modelEnv := py "MD_GEMINI_MODEL",
     defaultModel := py "gemini-1.5-flash", build := vendors.gemini,
     mockReply := py "[free tier] Done." },
   { tier := .standard, apiKeyEnv := py "MD_OPENAI_API_KEY", modelEnv := py "MD_OPENAI_MODEL",
     defaultModel := py "gpt-4o-mini", build := vendors.openAI,
     mockReply := py "[standard tier] Done." },
   { tier := .premium, apiKeyEnv := py "MD_ANTHROPIC_API_KEY",
     modelEnv := py "MD_ANTHROPIC_MODEL", defaultModel := py "claude-opus-4-8",
     build := vendors.anthropic, mockReply := py "[premium tier] Reasoned answer." }]

/-- `f"mock:{tier.name.lower()}"`. -/
def mockName : ModelTier → PyStr
  | .free => py "mock:free"
  | .cheap => py "mock:cheap"
  | .standard => py "mock:standard"
  | .premium => py "mock:premium"

variable (env : Environ)

/-- The provider of a slot: live where its key is set, a mock otherwise. -/
def ProviderSlot.provider (slot : ProviderSlot) : ModelProvider :=
  let apiKey := env slot.apiKeyEnv
  if truthy apiKey then
    slot.build ((env slot.modelEnv).getD slot.defaultModel) slot.tier (apiKey.getD [])
  else MockProvider.create (mockName slot.tier) slot.tier

def registerProviders (registry : ProviderRegistry) : ProviderRegistry :=
  (slots vendors).foldl (fun registry slot => registry.register (slot.provider env)) registry

/-- The gateway over the shared store, which is part of the machine. -/
def buildGateway : ModelGateway where
  settings := {}
  providers := registerProviders vendors env {}
  scorer := defaultScorer lower

def defaultQuota : TenantQuota where
  requestsPerMin := 30
  tokensPerMin := 4000
  tokensPerDay := 40000

def buildTenant (tenantId : TenantId) : TenantContext where
  tenantId := tenantId
  quota := defaultQuota
  isZeroSetup := true

/-! ### Without keys -/

/-- No slot finds a key in the environment. -/
def Keyless : Prop := ∀ slot ∈ slots vendors, truthy (env slot.apiKeyEnv) = false

/-- The canned reply of the mock with a name. -/
def replyOf (name : PyStr) : PyStr :=
  (((slots vendors).find? fun slot => mockName slot.tier = name).map
    ProviderSlot.mockReply).getD []

/-- The outside of a gateway whose providers are the mocks. -/
def mockWorld (clock : ℕ → ℚ) : World where
  monotonic := clock
  complete := fun _ p request _ =>
    .returned (MockProvider.complete (replyOf vendors p.name) p request)

/-- Without keys, every registered provider is a mock. -/
lemma mem_registerProviders {p : ModelProvider} (hkeyless : Keyless vendors env)
    (hp : p ∈ (registerProviders vendors env {}).all) :
    ∃ slot ∈ slots vendors, p = MockProvider.create (mockName slot.tier) slot.tier := by
  have hall : ∀ (ss : List ProviderSlot) (registry : ProviderRegistry),
      p ∈ (ss.foldl (fun registry slot => registry.register (slot.provider env)) registry).all →
      p ∈ registry.all ∨ ∃ slot ∈ ss, p = slot.provider env := by
    intro ss
    induction ss with
    | nil => exact fun registry h => .inl h
    | cons slot ss ih =>
      intro registry h
      rcases ih _ h with h | ⟨slot', hslot, heq⟩
      · rcases PyDict.mem_values_set h with h | h
        · exact .inr ⟨slot, by simp, h⟩
        · exact .inl h
      · exact .inr ⟨slot', by simp [hslot], heq⟩
  rcases hall _ _ hp with h | ⟨slot, hslot, rfl⟩
  · cases h
  · exact ⟨slot, hslot, by rw [ProviderSlot.provider, hkeyless slot hslot]; rfl⟩

end ModelDispatcher.Wiring
