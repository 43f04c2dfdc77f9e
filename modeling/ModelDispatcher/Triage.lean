import ModelDispatcher.Lib.Casing
import ModelDispatcher.Routing
import ModelDispatcher.Wiring

/-!
Triage along a growing conversation: the default scorer's verdict never drops, and with a monotone
policy neither does the floor the router starts from.
-/

namespace ModelDispatcher.Triage

open Lib.Text Lib.Dicts Lib.Casing DataTypes Exceptions Config Providers Routing Wiring

/-- The integer value of a verdict. -/
def rank : TaskComplexity → ℕ
  | .trivial => 0
  | .simple => 1
  | .moderate => 2
  | .complex => 3

/-- The request has more messages at its end, more tools or a larger token limit. -/
structure Grown (r r' : CompletionRequest) : Prop where
  messages : r.messages <+: r'.messages
  tools : r.tools <+: r'.tools
  maxTokens : ∀ n, r.maxTokens = some n → ∃ n', r'.maxTokens = some n' ∧ n ≤ n'

/-! ### The text -/

/-- The text the scorer looks at. -/
def textOf (request : CompletionRequest) : PyStr :=
  join ' ' (request.messages.map fun m => m.content.getD [])

lemma lower_textOf_prefix (T : CaseTable) {r r' : CompletionRequest}
    (h : r.messages <+: r'.messages) : T.lower (textOf r) <+: T.lower (textOf r') := by
  obtain ⟨more, hmore⟩ := h
  unfold textOf
  rw [← hmore, List.map_append]
  by_cases hnone : r.messages = []
  · rw [hnone]
    exact List.nil_prefix
  by_cases hsame : more = []
  · rw [hsame]
    simp
  · rw [join_append ' ' (by simpa using hnone) (by simpa using hsame)]
    exact CaseTable.lower_prefix _ _

/-! ### The score -/

lemma flag_mono {a b : Prop} [Decidable a] [Decidable b] (h : a → b) :
    (if a then 1 else 0 : ℚ) ≤ if b then 1 else 0 := by
  by_cases ha : a
  · rw [if_pos ha, if_pos (h ha)]
  · rw [if_neg ha]
    split_ifs
    · exact zero_le_one
    · exact le_rfl

lemma Grown.overLimit {r r' : CompletionRequest} (h : Grown r r')
    (hlimit : r.maxTokens.any (· > 1024)) : r'.maxTokens.any (· > 1024) := by
  cases hmax : r.maxTokens with
  | none => simp [hmax] at hlimit
  | some n =>
    obtain ⟨n', hn', hle⟩ := h.maxTokens n hmax
    have hbig : 1024 < n := by simpa [hmax] using hlimit
    simp only [hn', Option.any_some, decide_eq_true_eq]
    omega

/-- Every term of the score grows with the request. -/
lemma score_mono (T : CaseTable) {r r' : CompletionRequest} (h : Grown r r') :
    score T.lower r ≤ score T.lower r' := by
  have hprefix := lower_textOf_prefix T h.messages
  unfold textOf at hprefix
  unfold score
  dsimp only
  generalize T.lower (join ' ' (r.messages.map fun m => m.content.getD [])) = text at hprefix ⊢
  generalize T.lower (join ' ' (r'.messages.map fun m => m.content.getD [])) = text' at hprefix ⊢
  have hmarker : ∀ marker : PyStr, marker <:+: text → marker <:+: text' :=
    fun marker hm => hm.trans hprefix.isInfix
  have hlength : (text.length : ℚ) ≤ text'.length := by exact_mod_cast hprefix.length_le
  have hsize : min ((text.length : ℚ) / 500) 4 ≤ min ((text'.length : ℚ) / 500) 4 :=
    min_le_min_right 4 (by linarith)
  have htools : (r.tools.length : ℚ) ≤ r'.tools.length := by exact_mod_cast h.tools.length_le
  have hmarkers : ((reasoningMarkers.filter fun marker => marker <:+: text).length : ℚ) ≤
      (reasoningMarkers.filter fun marker => marker <:+: text').length := by
    have hsublist := List.monotone_filter_right reasoningMarkers
      (p := fun marker => decide (marker <:+: text)) (q := fun marker => decide (marker <:+: text'))
      fun marker => by simpa using hmarker marker
    exact_mod_cast hsublist.length_le
  have hfence := flag_mono (hmarker (py "```"))
  have hlimit := flag_mono h.overLimit
  linarith

/-- The verdict of a score. -/
def verdict (s : ℚ) : TaskComplexity :=
  if s < 3 / 2 then .trivial
  else if s < 3 then .simple
  else if s < 5 then .moderate
  else .complex

lemma verdict_mono {s t : ℚ} (h : s ≤ t) : rank (verdict s) ≤ rank (verdict t) := by
  unfold verdict
  split_ifs <;> first | decide | linarith

/-! ### The floor -/

/-- The floor the router starts from, if the policy has one for the verdict. -/
def floorOf (policy : RoutingPolicy) (request : CompletionRequest) (c : TaskComplexity) :
    Option ModelTier :=
  (policy.complexityFloor.get? c).map fun floor => raiseFloor floor request.tierHint

/-- A harder task has a floor at least as high. -/
def MonotoneFloors (policy : RoutingPolicy) : Prop :=
  ∀ c c' floor floor', policy.complexityFloor.get? c = some floor →
    policy.complexityFloor.get? c' = some floor' → rank c ≤ rank c' → floor ≤ floor'

lemma raiseFloor_mono {floor floor' : ModelTier} (h : floor ≤ floor') (hint : Option ModelTier) :
    raiseFloor floor hint ≤ raiseFloor floor' hint := by
  cases hint with
  | none => exact h
  | some hint =>
    have hval : floor.value ≤ floor'.value := h
    unfold raiseFloor
    dsimp only
    split_ifs with hlt hlt' hlt'
    · exact Nat.le_refl _
    · exact Nat.not_lt.mp hlt'
    · exact hval.trans (Nat.le_of_lt hlt')
    · exact h

/-- **Triage is monotone.** A grown request has a verdict at least as high, and by a monotone
policy and an equal hint a floor at least as high. -/
theorem triage_monotone (T : CaseTable) {r r' : CompletionRequest} (h : Grown r r') :
    rank (defaultScorer T.lower r) ≤ rank (defaultScorer T.lower r') ∧
    ∀ policy, MonotoneFloors policy → r'.tierHint = r.tierHint →
      ∀ floor floor', floorOf policy r (defaultScorer T.lower r) = some floor →
        floorOf policy r' (defaultScorer T.lower r') = some floor' → floor ≤ floor' := by
  have hrank : rank (defaultScorer T.lower r) ≤ rank (defaultScorer T.lower r') :=
    verdict_mono (score_mono T h)
  refine ⟨hrank, fun policy hmono hhint floor floor' hfloor hfloor' => ?_⟩
  obtain ⟨f, hf, rfl⟩ := Option.map_eq_some_iff.mp hfloor
  obtain ⟨f', hf', rfl⟩ := Option.map_eq_some_iff.mp hfloor'
  rw [hhint]
  exact raiseFloor_mono (hmono _ _ f f' hf hf' hrank) r.tierHint

namespace Sample

def question : CompletionRequest :=
  { messages := [{ role := .user, content := some (py "hi") }], tenant := [] }

/-- The conversation goes on, with a tool. -/
def grown : CompletionRequest :=
  { question with
    messages := question.messages ++ [{ role := .user, content := some (py "Prove it") }]
    tools := [⟨py "t", [], []⟩] }

end Sample

theorem grown_monotone :
    rank (defaultScorer asciiTable.lower Sample.question) ≤
        rank (defaultScorer asciiTable.lower Sample.grown) ∧
      ModelTier.free ≤ ModelTier.cheap := by
  have hgrown : Grown Sample.question Sample.grown :=
    ⟨List.prefix_append _ _, List.nil_prefix, nofun⟩
  have hmono : MonotoneFloors {} := by
    intro c c' floor floor' hfloor hfloor' hrank
    cases c <;> cases c' <;> cases hfloor <;> cases hfloor' <;> revert hrank <;> decide
  obtain ⟨hrank, hfloors⟩ := triage_monotone asciiTable hgrown
  exact ⟨hrank, hfloors {} hmono rfl .free .cheap (by decide +kernel) (by decide +kernel)⟩

end ModelDispatcher.Triage
