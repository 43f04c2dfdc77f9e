import ModelDispatcher.Gemini
import ModelDispatcher.Lib.Logged
import ModelDispatcher.Quota

/-!
The token counts of a Gemini response on their way into the accounts. The vendor may report a
count as `None`; the adapter hands it on, and the additions that come after the call meet it.
-/

namespace ModelDispatcher.GeminiUsage

open Lib.Text Lib.Logged DataTypes Config Providers Quota

/-! ### The response -/

/-- The counts as the vendor may report them. -/
structure UsageMetadata where
  promptTokenCount : Option ℤ
  candidatesTokenCount : Option ℤ

structure GenerateContentResponse where
  candidates : Option (List Gemini.Candidate) := none
  usageMetadata : Option UsageMetadata := none

/-- What a `Usage` holds: nothing checks that its counts are integers. -/
structure HeldUsage where
  promptTokens : Option ℤ
  completionTokens : Option ℤ

/-- A completion response with such a usage. -/
structure HeldResponse where
  message : Message
  usage : HeldUsage
  providerName : PyStr
  tier : ModelTier

def usageOf : Option UsageMetadata → HeldUsage
  | some counts => ⟨counts.promptTokenCount, counts.candidatesTokenCount⟩
  | none => ⟨some 0, some 0⟩

/-- Translate a vendor response; whatever is absent, it returns. -/
def toResponse (p : ModelProvider) (r : GenerateContentResponse) : HeldResponse where
  message := (Gemini.toResponse p { candidates := r.candidates.getD [] }).message
  usage := usageOf r.usageMetadata
  providerName := p.name
  tier := p.tier

/-! ### The arithmetic behind the call -/

/-- `a + b`, with `none` for the `TypeError` of an operand that is `None`. -/
def plus : Option ℤ → Option ℤ → Option ℤ
  | some a, some b => some (a + b)
  | _, _ => none

namespace HeldUsage

/-- A usage of two integers. -/
def of (u : Usage) : HeldUsage := ⟨some u.promptTokens, some u.completionTokens⟩

def totalTokens (u : HeldUsage) : Option ℤ := plus u.promptTokens u.completionTokens

/-- `self + other`, field by field. -/
def add (u v : HeldUsage) : Option HeldUsage := do
  let prompt ← plus u.promptTokens v.promptTokens
  let completion ← plus u.completionTokens v.completionTokens
  return ⟨some prompt, some completion⟩

end HeldUsage

section

variable (clock : ℕ → ℚ) (tenant : TenantContext)

/-- `manager.commit(tenant, decision, actual)`: the delta is computed before anything is written,
so an exception leaves the store as it was. -/
def commit (decision : QuotaDecision) (actual : HeldUsage) (q : QuotaState) : Option QuotaState :=
  actual.totalTokens.map fun total =>
    let delta := total - decision.reservedTokens
    if delta = 0 then q
    else ⟨QuotaManager.settle clock q.store q.ticks tenant.tenantId delta, q.ticks + 2⟩

/-- The accounting of `_on_success`; no handler catches what it raises. -/
def onSuccess (reservation : Option QuotaDecision) (usage : HeldUsage) (q : QuotaState) :
    Option QuotaState :=
  match reservation with
  | none => some q
  | some decision => commit clock tenant decision usage q

end

/-- A usage that every step behind the call can take: its total, its addition to the usage of a
conversation, and its commit, which reconciles the reservation. -/
structure Accounted (usage : HeldUsage) : Prop where
  total : ∃ n, usage.totalTokens = some n
  added : ∀ sofar : Usage, ∃ u : Usage, (HeldUsage.of sofar).add usage = some (.of u)
  reconciled : ∃ u : Usage, usage = .of u ∧ ∀ clock tenant decision q,
    onSuccess clock tenant (some decision) usage q =
      some (finalState ((QuotaManager.commit clock tenant decision u).run q))

/-! ### When a response is accounted for -/

lemma plus_eq_none_iff {a b : Option ℤ} : plus a b = none ↔ a = none ∨ b = none := by
  cases a <;> cases b <;> simp [plus]

lemma commit_of (clock : ℕ → ℚ) (tenant : TenantContext) (decision : QuotaDecision) (u : Usage)
    (q : QuotaState) : commit clock tenant decision (.of u) q =
      some (finalState ((QuotaManager.commit clock tenant decision u).run q)) := by
  rw [QuotaManager.commit_run]
  change some _ = _
  congr 1
  change (if u.totalTokens - decision.reservedTokens = 0 then _ else _) = _
  split_ifs <;> rfl

lemma accounted_of (u : Usage) : Accounted (.of u) where
  total := ⟨u.totalTokens, rfl⟩
  added sofar := ⟨sofar + u, rfl⟩
  reconciled := ⟨u, rfl, fun clock tenant decision q => commit_of clock tenant decision u q⟩

/-- Two integers come through as the adapter's other model has them. -/
lemma toResponse_of_counts (p : ModelProvider) (r : GenerateContentResponse)
    {counts : Gemini.UsageMetadata} (h : r.usageMetadata =
      some ⟨some counts.promptTokenCount, some counts.candidatesTokenCount⟩) :
    (toResponse p r).usage = .of (Gemini.toResponse p
      { candidates := r.candidates.getD [], usageMetadata := some counts }).usage := by
  change usageOf r.usageMetadata = _
  rw [h]
  rfl

/-- **Accounting.** A response is accounted for if and only if it reports both counts, or no
usage at all. -/
theorem accounted_iff (p : ModelProvider) (r : GenerateContentResponse) :
    Accounted (toResponse p r).usage ↔ ∀ counts, r.usageMetadata = some counts →
      counts.promptTokenCount ≠ none ∧ counts.candidatesTokenCount ≠ none := by
  constructor
  · intro h counts hcounts
    obtain ⟨n, hn⟩ := h.total
    have hsum : plus counts.promptTokenCount counts.candidatesTokenCount = some n := by
      rw [← hn, toResponse, hcounts]
      rfl
    have hne : plus counts.promptTokenCount counts.candidatesTokenCount ≠ none := by simp [hsum]
    exact not_or.mp (mt plus_eq_none_iff.mpr hne)
  · intro h
    cases hcounts : r.usageMetadata with
    | none =>
      have husage : (toResponse p r).usage = .of {} := by
        rw [toResponse, hcounts]
        rfl
      rw [husage]
      exact accounted_of {}
    | some counts =>
      obtain ⟨hprompt, hcompletion⟩ := h counts hcounts
      obtain ⟨a, ha⟩ := Option.ne_none_iff_exists'.mp hprompt
      obtain ⟨b, hb⟩ := Option.ne_none_iff_exists'.mp hcompletion
      have hreported : r.usageMetadata = some ⟨some (Gemini.UsageMetadata.mk a b).promptTokenCount,
          some (Gemini.UsageMetadata.mk a b).candidatesTokenCount⟩ := by rw [hcounts, ← ha, ← hb]
      rw [toResponse_of_counts p r hreported]
      exact accounted_of _

namespace Sample

def provider : ModelProvider where
  name := py "gemini:flash"
  tier := .cheap
  capabilities := ProviderCapability.none
  estimateTokens := fun _ => 10
  classifyError := fun _ => .transient

/-- A prompt the vendor has blocked: no candidates, and no count of their tokens. -/
def blocked : GenerateContentResponse := { usageMetadata := some ⟨some 7, none⟩ }

end Sample

/-- A blocked answer is paid for and lost. -/
theorem blocked_unaccounted :
    ¬ ∀ (p : ModelProvider) (r : GenerateContentResponse), Accounted (toResponse p r).usage := by
  intro h
  obtain ⟨n, hn⟩ := (h Sample.provider Sample.blocked).total
  cases hn

end ModelDispatcher.GeminiUsage
