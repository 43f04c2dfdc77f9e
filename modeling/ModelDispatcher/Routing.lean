import ModelDispatcher.Config
import ModelDispatcher.Providers

/-!
Routing: from a triage verdict to the ordered list of candidate providers.
-/

namespace ModelDispatcher.Routing

open Lib.Text Lib.Dicts DataTypes Exceptions Config Providers

/-- `xs[:n]`; a negative bound counts from the end. -/
def sliceTo {α : Type} (xs : List α) (n : ℤ) : List α :=
  if 0 ≤ n then xs.take n.toNat else xs.take (xs.length + n).toNat

lemma mem_of_mem_sliceTo {α : Type} {xs : List α} {n : ℤ} {x : α} (h : x ∈ sliceTo xs n) :
    x ∈ xs := by
  unfold sliceTo at h
  split_ifs at h <;> exact List.mem_of_mem_take h

structure ModelRouter where
  registry : ProviderRegistry
  policy : RoutingPolicy

/-- The capability mask a request demands. -/
def requiredCapabilities (request : CompletionRequest) : ProviderCapability :=
  if request.tools ≠ [] then ProviderCapability.none ||| ProviderCapability.tools
  else ProviderCapability.none

/-- A hint may raise the floor, never lower it. -/
def raiseFloor (floor : ModelTier) : Option ModelTier → ModelTier
  | some hint => if floor < hint then hint else floor
  | none => floor

namespace ModelRouter

/-- The candidates from a floor on. -/
def candidates (r : ModelRouter) (request : CompletionRequest) (floor : ModelTier) :
    List ModelProvider :=
  let capable := (r.registry.atOrAbove floor).filter fun p =>
    p.Supports (requiredCapabilities request)
  let kept := if r.policy.allowEscalation then capable else capable.filter (·.tier = floor)
  sliceTo kept r.policy.maxCandidates

/-- The ordered candidates of a request; `KeyError` when the policy has no floor for the
verdict. -/
def route (r : ModelRouter) (request : CompletionRequest) (complexity : TaskComplexity) :
    Except BuiltinError (List ModelProvider) :=
  match r.policy.complexityFloor.get? complexity with
  | none => .error .keyError
  | some floor => .ok (r.candidates request (raiseFloor floor request.tierHint))

/-- A candidate is a registered provider at the floor or above that supports the request. -/
lemma mem_candidates {r : ModelRouter} {request : CompletionRequest} {floor : ModelTier}
    {p : ModelProvider} (h : p ∈ r.candidates request floor) :
    p ∈ r.registry.atOrAbove floor ∧ p.Supports (requiredCapabilities request) := by
  have h' := mem_of_mem_sliceTo h
  have hcapable : p ∈ (r.registry.atOrAbove floor).filter fun p =>
      p.Supports (requiredCapabilities request) := by
    split_ifs at h'
    · exact h'
    · exact List.mem_of_mem_filter h'
  exact ⟨List.mem_of_mem_filter hcapable, of_decide_eq_true (List.mem_filter.mp hcapable).2⟩

/-- A routed candidate is a candidate from some floor on. -/
lemma mem_route {r : ModelRouter} {request : CompletionRequest} {c : TaskComplexity}
    {ps : List ModelProvider} (h : r.route request c = .ok ps) {p : ModelProvider}
    (hp : p ∈ ps) :
    ∃ floor, p ∈ r.registry.atOrAbove floor ∧ p.Supports (requiredCapabilities request) := by
  unfold route at h
  split at h
  · cases h
  · cases h
    exact ⟨_, mem_candidates hp⟩

/-- Every routed candidate supports what the request demands. -/
lemma route_supports {r : ModelRouter} {request : CompletionRequest} {c : TaskComplexity}
    {ps : List ModelProvider} (h : r.route request c = .ok ps) {p : ModelProvider}
    (hp : p ∈ ps) : p.Supports (requiredCapabilities request) := by
  obtain ⟨_, -, hsupports⟩ := mem_route h hp
  exact hsupports

/-- Every routed candidate is registered. -/
lemma route_registered {r : ModelRouter} {request : CompletionRequest} {c : TaskComplexity}
    {ps : List ModelProvider} (h : r.route request c = .ok ps) {p : ModelProvider}
    (hp : p ∈ ps) : p ∈ r.registry.all := by
  obtain ⟨_, hmem, -⟩ := mem_route h hp
  exact ProviderRegistry.mem_all_of_mem_atOrAbove hmem

end ModelRouter

end ModelDispatcher.Routing
