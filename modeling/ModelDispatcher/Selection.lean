import Mathlib.Data.List.Induction
import ModelDispatcher.Lib.StableSort
import ModelDispatcher.Routing

/-!
What the router selects, said of the list of registrations: which providers are eligible, in which
order, and how many of them are kept.
-/

namespace ModelDispatcher.Selection

open Lib.Text Lib.Dicts Lib.StableSort DataTypes Exceptions Config Providers Routing

/-! ### The registrations -/

/-- The registry after some registrations, in order. -/
def registered (regs : List ModelProvider) : ProviderRegistry :=
  regs.foldl ProviderRegistry.register {}

/-- The provider is the last one registered under its name. -/
def Current (regs : List ModelProvider) (p : ModelProvider) : Prop :=
  regs.reverse.find? (·.name = p.name) = some p

/-- The place of the first registration under a name. -/
def firstIndex (regs : List ModelProvider) (name : PyStr) : ℕ :=
  regs.findIdx (·.name = name)

/-- The order of the candidates: by tier, and within a tier by the first registration. -/
def Before (regs : List ModelProvider) (p q : ModelProvider) : Prop :=
  p.tier < q.tier ∨ p.tier = q.tier ∧ firstIndex regs p.name < firstIndex regs q.name

structure Eligible (regs : List ModelProvider) (floor : ModelTier)
    (required : ProviderCapability) (escalate : Bool) (p : ModelProvider) : Prop where
  current : Current regs p
  floor_le : floor ≤ p.tier
  supports : p.Supports required
  atFloor : escalate = false → p.tier = floor

/-- The eligible providers, all of them and in order. -/
structure Selects (regs : List ModelProvider) (floor : ModelTier)
    (required : ProviderCapability) (escalate : Bool) (ps : List ModelProvider) : Prop where
  mem_iff : ∀ p, p ∈ ps ↔ Eligible regs floor required escalate p
  ordered : ps.Pairwise (Before regs)

lemma registered_append (regs : List ModelProvider) (p : ModelProvider) :
    registered (regs ++ [p]) = (registered regs).register p := by
  simp [registered]

/-- What the registry holds, in terms of the registrations. -/
structure Holds (regs : List ModelProvider) (r : ProviderRegistry) : Prop where
  get?_eq : ∀ name, r.byName.get? name = regs.reverse.find? (·.name = name)
  mem_keys : ∀ name, name ∈ r.byName.entries.map Prod.fst ↔ ∃ p ∈ regs, p.name = name
  ordered : (r.byName.entries.map Prod.fst).Pairwise fun k k' =>
    firstIndex regs k < firstIndex regs k'

section

variable {regs : List ModelProvider} {p : ModelProvider} {name : PyStr}

lemma firstIndex_lt (h : ∃ q ∈ regs, q.name = name) : firstIndex regs name < regs.length := by
  unfold firstIndex
  exact List.findIdx_lt_length.mpr (by simpa using h)

/-- A later registration does not move the first one. -/
lemma firstIndex_append (h : ∃ q ∈ regs, q.name = name) :
    firstIndex (regs ++ [p]) name = firstIndex regs name := by
  have hlt := firstIndex_lt h
  unfold firstIndex at hlt ⊢
  rw [List.findIdx_append, if_pos hlt]

lemma firstIndex_new (h : ¬ ∃ q ∈ regs, q.name = p.name) :
    firstIndex (regs ++ [p]) p.name = regs.length := by
  have hnone : ¬ regs.findIdx (·.name = p.name) < regs.length :=
    fun hlt => h (by simpa using List.findIdx_lt_length.mp hlt)
  unfold firstIndex
  rw [List.findIdx_append, if_neg hnone]
  simp

lemma exists_name_append {name : PyStr} :
    (∃ q ∈ regs ++ [p], q.name = name) ↔ (∃ q ∈ regs, q.name = name) ∨ name = p.name := by
  simp only [List.mem_append, List.mem_singleton, or_and_right, exists_or, exists_eq_left]
  rw [eq_comm (a := p.name)]

/-- A registration puts its provider in the place of its name, or at the end. -/
lemma Holds.register {r : ProviderRegistry} (h : Holds regs r) (p : ModelProvider) :
    Holds (regs ++ [p]) (r.register p) := by
  have hkeys : (r.register p).byName.entries.map Prod.fst = _ :=
    PyDict.keys_setEntries p.name p r.byName.entries
  constructor
  · intro name
    rw [List.reverse_append, List.reverse_singleton, List.singleton_append]
    by_cases hname : name = p.name
    · subst hname
      rw [List.find?_cons_of_pos (by simp)]
      exact PyDict.get?_set_self _ _ _
    · rw [List.find?_cons_of_neg (by simpa using Ne.symm hname), ← h.get?_eq]
      exact PyDict.get?_set_of_ne _ hname _
  · intro name
    have hmem := h.mem_keys name
    rw [hkeys, exists_name_append]
    split_ifs with hold
    · rw [hmem]
      refine (or_iff_left_of_imp ?_).symm
      rintro rfl
      exact (h.mem_keys p.name).mp hold
    · rw [List.mem_append, hmem, List.mem_singleton]
  · have hsame : ∀ k ∈ r.byName.entries.map Prod.fst,
        firstIndex (regs ++ [p]) k = firstIndex regs k :=
      fun k hk => firstIndex_append ((h.mem_keys k).mp hk)
    have hordered := h.ordered.imp_of_mem fun {k k'} hk hk' hlt => by
      rwa [← hsame k hk, ← hsame k' hk'] at hlt
    rw [hkeys]
    split_ifs with hold
    · exact hordered
    · refine List.pairwise_append.mpr ⟨hordered, List.pairwise_singleton _ _, fun k hk k' hk' => ?_⟩
      rw [List.mem_singleton.mp hk', hsame k hk,
        firstIndex_new fun hex => hold ((h.mem_keys _).mpr hex)]
      exact firstIndex_lt ((h.mem_keys k).mp hk)

end

lemma holds_registered (regs : List ModelProvider) : Holds regs (registered regs) := by
  induction regs using List.reverseRecOn with
  | nil => exact ⟨fun _ => rfl, fun _ => ⟨nofun, nofun⟩, .nil⟩
  | append_singleton regs p ih =>
    rw [registered_append]
    exact ih.register p

/-! ### The registered providers -/

section

variable {regs : List ModelProvider} {p : ModelProvider}

lemma entry_iff {name : PyStr} : (name, p) ∈ (registered regs).byName.entries ↔
    name = p.name ∧ Current regs p := by
  rw [← PyDict.get?_eq_some_iff, (holds_registered regs).get?_eq]
  constructor
  · intro hfind
    obtain rfl : p.name = name := by simpa using List.find?_some hfind
    exact ⟨rfl, hfind⟩
  · rintro ⟨rfl, hcurrent⟩
    exact hcurrent

lemma mem_all_iff : p ∈ (registered regs).all ↔ Current regs p := by
  constructor
  · intro hp
    obtain ⟨⟨name, q⟩, hentry, rfl⟩ := List.mem_map.mp hp
    exact (entry_iff.mp hentry).2
  · intro hcurrent
    exact List.mem_map.mpr ⟨(p.name, p), entry_iff.mpr ⟨rfl, hcurrent⟩, rfl⟩

lemma all_ordered : (registered regs).all.Pairwise fun p q =>
    firstIndex regs p.name < firstIndex regs q.name := by
  have hordered := List.pairwise_map.mp (holds_registered regs).ordered
  refine List.pairwise_map.mpr (hordered.imp_of_mem fun {e e'} he he' hlt => ?_)
  rwa [(entry_iff.mp he).1, (entry_iff.mp he').1] at hlt

end

/-! ### The selection -/

lemma value_injective : Function.Injective ModelTier.value := by
  intro a b hab
  cases a <;> cases b <;> first | rfl | cases hab

instance : Std.Total fun p q : ModelProvider => p.tier ≤ q.tier :=
  ⟨fun p q => Nat.le_total p.tier.value q.tier.value⟩

instance : IsTrans ModelProvider fun p q => p.tier ≤ q.tier :=
  ⟨fun _ _ _ hpq hqr => Nat.le_trans hpq hqr⟩

section

variable {regs : List ModelProvider}

instance : Std.Irrefl (Before regs) where
  irrefl _ h := h.elim (Nat.lt_irrefl _) fun h => Nat.lt_irrefl _ h.2

lemma before_asymm {p q : ModelProvider} (h : Before regs p q) : ¬ Before regs q p := by
  rintro (hlt' | ⟨heq', hidx'⟩)
  · rcases h with hlt | ⟨heq, -⟩
    · exact Nat.lt_asymm hlt hlt'
    · exact Nat.lt_irrefl _ (heq ▸ hlt')
  · rcases h with hlt | ⟨-, hidx⟩
    · exact Nat.lt_irrefl _ (heq' ▸ hlt)
    · exact Nat.lt_asymm hidx hidx'

instance : Std.Antisymm (Before regs) := ⟨fun _ _ h h' => absurd h' (before_asymm h)⟩

variable {floor : ModelTier} {required : ProviderCapability} {escalate : Bool}

/-- There is one such list. -/
lemma Selects.unique {ps qs : List ModelProvider} (h : Selects regs floor required escalate ps)
    (h' : Selects regs floor required escalate qs) : ps = qs :=
  h.ordered.eq_of_mem_iff h'.ordered fun p => (h.mem_iff p).trans (h'.mem_iff p).symm

lemma Selects.nodup_names {ps : List ModelProvider}
    (h : Selects regs floor required escalate ps) : (ps.map ModelProvider.name).Nodup := by
  refine List.pairwise_map.mpr (h.ordered.imp_of_mem fun {p q} hp hq hbefore hname => ?_)
  have hcurrent := ((h.mem_iff p).mp hp).current
  have hcurrent' := ((h.mem_iff q).mp hq).current
  unfold Current at hcurrent hcurrent'
  rw [hname, hcurrent'] at hcurrent
  cases hcurrent
  exact before_asymm hbefore hbefore

/-- The candidates before the truncation. -/
def kept (regs : List ModelProvider) (floor : ModelTier) (required : ProviderCapability)
    (escalate : Bool) : List ModelProvider :=
  let capable := ((registered regs).atOrAbove floor).filter fun p => p.Supports required
  if escalate then capable else capable.filter (·.tier = floor)

lemma mem_atOrAbove_iff {p : ModelProvider} :
    p ∈ (registered regs).atOrAbove floor ↔ Current regs p ∧ floor ≤ p.tier := by
  rw [ProviderRegistry.atOrAbove, List.mem_insertionSort, List.mem_filter, mem_all_iff,
    decide_eq_true_eq]

lemma atOrAbove_ordered : ((registered regs).atOrAbove floor).Pairwise (Before regs) := by
  have hall : (registered regs).all.Pairwise fun p q =>
      firstIndex regs p.name < firstIndex regs q.name := all_ordered
  have hsorted := pairwise_insertionSort (r := fun p q : ModelProvider => p.tier ≤ q.tier)
    (hall.filter fun p => decide (floor ≤ p.tier))
  refine hsorted.imp fun {p q} h => ?_
  rcases Nat.lt_or_eq_of_le h.1 with hlt | heq
  · exact .inl hlt
  · exact .inr ⟨value_injective heq, h.2 heq.ge⟩

/-- **The selection**: the filters of the router keep the eligible providers in order. -/
lemma selects_kept : Selects regs floor required escalate (kept regs floor required escalate) := by
  constructor
  · intro p
    unfold kept
    cases escalate with
    | true =>
      simp only [if_true, List.mem_filter, mem_atOrAbove_iff, decide_eq_true_eq]
      exact ⟨fun ⟨⟨hc, hf⟩, hs⟩ => ⟨hc, hf, hs, nofun⟩,
        fun h => ⟨⟨h.current, h.floor_le⟩, h.supports⟩⟩
    | false =>
      simp only [Bool.false_eq_true, if_false, List.mem_filter, mem_atOrAbove_iff,
        decide_eq_true_eq]
      exact ⟨fun ⟨⟨⟨hc, hf⟩, hs⟩, ht⟩ => ⟨hc, hf, hs, fun _ => ht⟩,
        fun h => ⟨⟨⟨h.current, h.floor_le⟩, h.supports⟩, h.atFloor rfl⟩⟩
  · unfold kept
    dsimp only
    split_ifs
    · exact atOrAbove_ordered.filter _
    · exact (atOrAbove_ordered.filter _).filter _

end

/-! ### Routing -/

/-- The policy's floor, raised by a hint. -/
def IsFloor (policyFloor : ModelTier) (hint : Option ModelTier) (floor : ModelTier) : Prop :=
  floor.value = max policyFloor.value ((hint.map ModelTier.value).getD 0)

/-- What the router should return. -/
structure Specified (regs : List ModelProvider) (policy : RoutingPolicy) (floor : ModelTier)
    (required : ProviderCapability) (out : List ModelProvider) : Prop where
  selected : ∃ ps, Selects regs floor required policy.allowEscalation ps ∧
    out = ps.take policy.maxCandidates.toNat
  nodup : (out.map ModelProvider.name).Nodup
  cheapest : ∀ p, Eligible regs floor required policy.allowEscalation p → ∀ q ∈ out,
    p.tier < q.tier → p ∈ out
  head : policy.allowEscalation → 1 ≤ policy.maxCandidates →
    out.head? = (registered regs).cheapestCapable floor required ∧
      ((registered regs).cheapestCapable floor required = none ↔ out = [])

lemma raiseFloor_of_isFloor {policyFloor floor : ModelTier} {hint : Option ModelTier}
    (h : IsFloor policyFloor hint floor) : raiseFloor policyFloor hint = floor := by
  refine value_injective (Eq.trans ?_ h.symm)
  cases hint with
  | none => simp [raiseFloor]
  | some hint =>
    unfold raiseFloor
    dsimp only [Option.map, Option.getD]
    split_ifs with hlt
    · exact (max_eq_right (Nat.le_of_lt hlt)).symm
    · exact (max_eq_left (Nat.not_lt.mp hlt)).symm

/-- A prefix of the selection is as specified. -/
lemma specified_take (regs : List ModelProvider) (policy : RoutingPolicy) (floor : ModelTier)
    (required : ProviderCapability) : Specified regs policy floor required
      ((kept regs floor required policy.allowEscalation).take policy.maxCandidates.toNat) := by
  have hselects : Selects regs floor required policy.allowEscalation
    (kept regs floor required policy.allowEscalation) := selects_kept
  refine ⟨⟨_, hselects, rfl⟩, ?_, ?_, ?_⟩
  · exact hselects.nodup_names.sublist ((List.take_sublist _ _).map ModelProvider.name)
  · intro p hp q hq hlt
    exact mem_take_of_rel hselects.ordered ((hselects.mem_iff p).mpr hp) hq
      (before_asymm (.inl hlt))
  · intro hescalate hmax
    have hhead : ((kept regs floor required policy.allowEscalation).take
        policy.maxCandidates.toNat).head? = (registered regs).cheapestCapable floor required := by
      rw [List.head?_take, if_neg (by omega), kept, if_pos hescalate, List.head?_filter]
      rfl
    exact ⟨hhead, by rw [← hhead, List.head?_eq_none_iff]⟩

/-- **The router's specification.** -/
theorem route_specified (regs : List ModelProvider) (policy : RoutingPolicy)
    (request : CompletionRequest) (complexity : TaskComplexity)
    (hmax : 0 ≤ policy.maxCandidates) :
    (policy.complexityFloor.get? complexity = none →
      ModelRouter.route ⟨registered regs, policy⟩ request complexity = .error .keyError) ∧
    ∀ policyFloor floor, policy.complexityFloor.get? complexity = some policyFloor →
      IsFloor policyFloor request.tierHint floor →
      ∃ out, ModelRouter.route ⟨registered regs, policy⟩ request complexity = .ok out ∧
        Specified regs policy floor (requiredCapabilities request) out := by
  constructor
  · intro hnone
    unfold ModelRouter.route
    rw [hnone]
  · intro policyFloor floor hsome hfloor
    refine ⟨_, ?_, specified_take regs policy floor (requiredCapabilities request)⟩
    unfold ModelRouter.route
    rw [hsome]
    dsimp only
    rw [raiseFloor_of_isFloor hfloor, ModelRouter.candidates, sliceTo, if_pos hmax]
    rfl

namespace Sample

def provider (name : String) (tier : ModelTier) : ModelProvider where
  name := py name
  tier := tier
  capabilities := .none
  estimateTokens := fun _ => 1
  classifyError := fun _ => .transient

/-- The first name is registered again, at a higher tier. -/
def regs : List ModelProvider :=
  [provider "a" .free, provider "b" .standard, provider "c" .cheap, provider "a" .standard]

def request : CompletionRequest := { messages := [], tenant := [], tierHint := some .cheap }

end Sample

/-- A hint above the policy's floor. -/
theorem hinted_specified :
    ∃ out, ModelRouter.route ⟨registered Sample.regs, {}⟩ Sample.request .trivial = .ok out ∧
      Specified Sample.regs {} .cheap (requiredCapabilities Sample.request) out :=
  (route_specified Sample.regs {} Sample.request .trivial (by decide)).2 .free .cheap
    (by decide) (by rw [IsFloor]; decide)

example : (kept Sample.regs .cheap .none true).map (·.name) = [py "c", py "a", py "b"] := by
  decide

end ModelDispatcher.Selection
