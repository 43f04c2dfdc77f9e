import ModelDispatcher.Orchestration
import ModelDispatcher.Routing

/-!
The gateway: validate, triage, route, then drive the agent loop over a fresh fallback chain.
-/

namespace ModelDispatcher.Gateway

open Lib.Text DataTypes Exceptions Config Providers Quota Security Routing Machines Chain
open Orchestration

/-- The wiring of a gateway; the store it runs over is part of the machine. -/
structure ModelGateway where
  settings : GatewaySettings
  providers : ProviderRegistry
  scorer : CompletionRequest → TaskComplexity

namespace ModelGateway

def router (g : ModelGateway) : ModelRouter := ⟨g.providers, g.settings.routing⟩

/-- The tools advertised to the model: the registry's when one is passed. -/
def effectiveTools (request : CompletionRequest) : Option ToolRegistry → List ToolSpec
  | some registry => registry.specs
  | none => request.tools

/-- The conversation a dispatch starts from. -/
def initialState (request : CompletionRequest) (tenant : TenantContext)
    (tools : Option ToolRegistry) : ConversationState where
  tenant := tenant.tenantId
  messages := request.messages
  tools := effectiveTools request tools

/-- Validate, triage and route. -/
def prepare (g : ModelGateway) (request : CompletionRequest) (tenant : TenantContext) :
    Run (List ModelProvider) := do
  let result := PerimeterValidator.validate g.settings.security request tenant
  emit (.validated request tenant result)
  orRaise result
  let complexity := g.scorer request
  let routed := g.router.route request complexity
  emit (.routed complexity routed)
  orRaise (routed.mapError .builtin)

def dispatch (w : World) (g : ModelGateway) (request : CompletionRequest)
    (tenant : TenantContext) (tools : Option ToolRegistry) : Run RunResult := do
  let candidates ← g.prepare request tenant
  AgentLoop.run w (buildChain w g.settings) tenant (tools.getD {}) candidates none
    g.settings.maxIterations.toNat (initialState request tenant tools) []

end ModelGateway

end ModelDispatcher.Gateway
