import ModelDispatcher.Lib.Dicts
import ModelDispatcher.DataTypes

/-!
Gateway settings and the tenant a request is billed to.
-/

namespace ModelDispatcher.Config

open Lib.Text Lib.Binary64 Lib.Floats Lib.Dicts DataTypes

structure RoutingPolicy where
  complexityFloor : PyDict TaskComplexity ModelTier :=
    (((∅ : PyDict TaskComplexity ModelTier).set .trivial .free).set .simple .cheap
      |>.set .moderate .standard).set .complex .premium
  allowEscalation : Bool := true
  maxCandidates : ℤ := 4

structure SecuritySettings where
  maxPayloadBytes : ℤ := 1000000
  allowedProviders : List PyStr := []
  requireTenantAuth : Bool := true

structure GatewaySettings where
  routing : RoutingPolicy := {}
  security : SecuritySettings := {}
  maxIterations : ℤ := 8
  retryMaxAttempts : ℤ := 3

structure TenantQuota where
  requestsPerMin : ℤ
  tokensPerMin : ℤ
  tokensPerDay : ℤ
  softLimitRatio : PyFloat := ofRat (9 / 10)

structure TenantContext where
  tenantId : TenantId
  quota : TenantQuota
  isZeroSetup : Bool := true
  maxTier : ModelTier := .premium
  metadata : PyDict PyStr PyStr := ∅

end ModelDispatcher.Config
