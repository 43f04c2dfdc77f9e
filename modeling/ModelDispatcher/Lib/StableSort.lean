import Mathlib.Data.List.Sort

/-!
Stable sorting and selecting from the front: what a list ordered in one way becomes when it is
sorted in another, and what is left out when only its first elements are kept.
-/

namespace ModelDispatcher.Lib.StableSort

variable {α : Type}

/-- Ordered by the first relation, and among equals by the second. -/
def Then (r R : α → α → Prop) (a b : α) : Prop := r a b ∧ (r b a → R a b)

variable {r R : α → α → Prop} [DecidableRel r] [Std.Total r] [IsTrans α r]

lemma pairwise_orderedInsert {a : α} {l : List α} (hl : l.Pairwise (Then r R))
    (ha : ∀ b ∈ l, R a b) : (l.orderedInsert r a).Pairwise (Then r R) := by
  induction l with
  | nil => exact List.pairwise_singleton _ _
  | cons b l ih =>
    obtain ⟨hb, hrest⟩ := List.pairwise_cons.mp hl
    by_cases hab : r a b
    · rw [List.orderedInsert_cons_of_le r l hab]
      refine List.pairwise_cons.mpr ⟨fun c hc => ⟨?_, fun _ => ha c hc⟩, hl⟩
      rcases List.mem_cons.mp hc with rfl | hc
      · exact hab
      · exact IsTrans.trans a b c hab (hb c hc).1
    · rw [List.orderedInsert_of_not_le r l hab]
      refine List.pairwise_cons.mpr ⟨fun c hc => ?_, ih hrest fun c hc => ha c (by simp [hc])⟩
      rcases (List.mem_orderedInsert r).mp hc with rfl | hc
      · exact ⟨(total_of r b c).resolve_right hab, fun h => absurd h hab⟩
      · exact hb c hc

/-- **The sort is stable.** -/
lemma pairwise_insertionSort {l : List α} (hl : l.Pairwise R) :
    (l.insertionSort r).Pairwise (Then r R) := by
  induction l with
  | nil => exact .nil
  | cons a l ih =>
    obtain ⟨ha, hrest⟩ := List.pairwise_cons.mp hl
    rw [List.insertionSort_cons]
    exact pairwise_orderedInsert (ih hrest) fun b hb => ha b ((List.mem_insertionSort r).mp hb)

omit [DecidableRel r] [Std.Total r] [IsTrans α r] in
/-- Nothing that comes before a kept element is left out. -/
lemma mem_take_of_rel {l : List α} (hl : l.Pairwise r) {n : ℕ} {a b : α} (ha : a ∈ l)
    (hb : b ∈ l.take n) (hnot : ¬ r b a) : a ∈ l.take n := by
  rw [← List.take_append_drop n l] at ha hl
  rcases List.mem_append.mp ha with ha | ha
  · exact ha
  · exact absurd ((List.pairwise_append.mp hl).2.2 b hb a ha) hnot

end ModelDispatcher.Lib.StableSort
