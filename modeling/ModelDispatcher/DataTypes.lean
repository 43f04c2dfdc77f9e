import ModelDispatcher.Lib.Floats
import ModelDispatcher.Lib.Json

/-!
The value objects of the gateway: messages, tools, requests, responses and the enumerations
they use.
-/

namespace ModelDispatcher.DataTypes

open Lib.Text Lib.Floats Lib.Json

/-- A tenant identity. -/
abbrev TenantId := PyStr

inductive Role
  | system | user | assistant | tool
  deriving DecidableEq

/-- Cost tiers, cheapest first. -/
inductive ModelTier
  | free | cheap | standard | premium
  deriving DecidableEq

def ModelTier.value : ModelTier → ℕ
  | .free => 0
  | .cheap => 1
  | .standard => 2
  | .premium => 3

instance : LE ModelTier := ⟨fun a b => a.value ≤ b.value⟩
instance : LT ModelTier := ⟨fun a b => a.value < b.value⟩
instance : DecidableLE ModelTier := fun a b => Nat.decLe a.value b.value
instance : DecidableLT ModelTier := fun a b => Nat.decLt a.value b.value

inductive TaskComplexity
  | trivial | simple | moderate | complex
  deriving DecidableEq

inductive ErrorClass
  | rateLimit | quota | auth | transient | invalid | content
  deriving DecidableEq

def ErrorClass.value : ErrorClass → PyStr
  | .rateLimit => py "rate_limit"
  | .quota => py "quota"
  | .auth => py "auth"
  | .transient => py "transient"
  | .invalid => py "invalid"
  | .content => py "content"

/-- Capability flags, one bit each. -/
abbrev ProviderCapability := BitVec 4

namespace ProviderCapability

def none : ProviderCapability := 0
def tools : ProviderCapability := 1
def streaming : ProviderCapability := 2
def vision : ProviderCapability := 4
def jsonMode : ProviderCapability := 8

end ProviderCapability

structure Usage where
  promptTokens : ℤ := 0
  completionTokens : ℤ := 0
  deriving DecidableEq

def Usage.totalTokens (u : Usage) : ℤ := u.promptTokens + u.completionTokens

instance : Add Usage :=
  ⟨fun u v => ⟨u.promptTokens + v.promptTokens, u.completionTokens + v.completionTokens⟩⟩

structure ToolSpec where
  name : PyStr
  description : PyStr
  parameters : JSONObject

structure ToolCall where
  id : PyStr
  name : PyStr
  arguments : JSONObject

structure ToolResult where
  callId : PyStr
  content : PyStr
  isError : Bool := false

structure Message where
  role : Role
  content : Option PyStr := none
  toolCalls : List ToolCall := []
  toolResult : Option ToolResult := none

structure CompletionRequest where
  messages : List Message
  tenant : TenantId
  tools : List ToolSpec := []
  tierHint : Option ModelTier := none
  maxTokens : Option ℤ := none
  temperature : Option PyFloat := none
  metadata : JSONObject := []

structure CompletionResponse where
  message : Message
  usage : Usage
  providerName : PyStr
  tier : ModelTier

end ModelDispatcher.DataTypes
