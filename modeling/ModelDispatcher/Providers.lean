import Mathlib.Data.List.Sort
import ModelDispatcher.Lib.Dicts
import ModelDispatcher.RetryHints

/-!
Model providers and the registry that hands them to the router.

A provider's `complete` talks to a vendor and is part of the outside world (`Machines.World`);
its identity, its estimate and its error classification are here.
-/

namespace ModelDispatcher.Providers

open Lib.Text Lib.Floats Lib.Dicts DataTypes Exceptions RetryHints

structure ModelProvider where
  name : PyStr
  tier : ModelTier
  capabilities : ProviderCapability
  estimateTokens : CompletionRequest → ℤ
  classifyError : VendorError → ErrorClass
  retryAfterSeconds : VendorError → Except BuiltinError (Option PyFloat) :=
    extractRetryAfterSeconds

/-- The provider advertises every flag of a mask. -/
def ModelProvider.Supports (p : ModelProvider) (required : ProviderCapability) : Prop :=
  required &&& p.capabilities = required

instance (p : ModelProvider) (r : ProviderCapability) : Decidable (p.Supports r) :=
  inferInstanceAs (Decidable (r &&& p.capabilities = r))

/-- Providers by name, in the order the names were first registered. -/
structure ProviderRegistry where
  byName : PyDict PyStr ModelProvider := ∅

namespace ProviderRegistry

def register (r : ProviderRegistry) (p : ModelProvider) : ProviderRegistry :=
  ⟨r.byName.set p.name p⟩

def all (r : ProviderRegistry) : List ModelProvider := r.byName.values

/-- The providers at a tier or above, by a stable sort on the tier. -/
def atOrAbove (r : ProviderRegistry) (floor : ModelTier) : List ModelProvider :=
  (r.all.filter fun p => floor ≤ p.tier).insertionSort fun p q => p.tier ≤ q.tier

/-- The lowest-tier provider from a floor on with some capabilities, with `none` for
`LookupError`. -/
def cheapestCapable (r : ProviderRegistry) (floor : ModelTier) (required : ProviderCapability) :
    Option ModelProvider :=
  (r.atOrAbove floor).find? fun p => p.Supports required

lemma mem_all_of_mem_atOrAbove {r : ProviderRegistry} {floor : ModelTier} {p : ModelProvider}
    (h : p ∈ r.atOrAbove floor) : p ∈ r.all :=
  List.mem_of_mem_filter ((List.mem_insertionSort _).mp h)

end ProviderRegistry

end ModelDispatcher.Providers
