import Mathlib.Data.List.Basic
import Mathlib.Tactic.Lemma

/-!
A memo cell for attempts at something that may fail. Who asks while the cell holds an attempt joins
it, and who asks of an empty cell starts the next one. When the end of an attempt is handled, a
failure empties the cell, whatever the cell holds by then.

The attempts of such a cell never overlap, and only the last one can have succeeded.
-/

namespace ModelDispatcher.Lib.SingleFlight

variable {ρ : Type}

/-- The attempts in the order they were started, each with its result once that is handled, and
the one the cell holds. -/
structure Cell (ρ : Type) where
  held : Option ℕ := none
  attempts : List (Option ρ) := []

variable (failed : ρ → Bool)

inductive Step (c : Cell ρ) : Cell ρ → Prop
  | start (hempty : c.held = none) : Step c ⟨some c.attempts.length, c.attempts ++ [none]⟩
  | handle {i : ℕ} (r : ρ) (hopen : c.attempts[i]? = some none) :
      Step c ⟨if failed r then none else c.held, c.attempts.set i (some r)⟩

/-- The attempts before the one held have all failed, and so have all of an empty cell. -/
inductive Sound : Cell ρ → Prop
  | empty {past : List ρ} (h : ∀ r ∈ past, failed r) : Sound ⟨none, past.map some⟩
  | flying {past : List ρ} (h : ∀ r ∈ past, failed r) :
      Sound ⟨some past.length, past.map some ++ [none]⟩
  | landed {past : List ρ} (h : ∀ r ∈ past, failed r) {r : ρ} (hr : ¬ failed r) :
      Sound ⟨some past.length, past.map some ++ [some r]⟩

variable {failed} {c c' : Cell ρ}

lemma sound_new : Sound failed ({} : Cell ρ) := by
  have hnone : ∀ r ∈ ([] : List ρ), failed r := by simp
  exact .empty hnone

/-- An attempt that is not handled is the one in flight. -/
lemma eq_length_of_open {past : List ρ} {last : List (Option ρ)} {i : ℕ}
    (h : (past.map some ++ last)[i]? = some none) : last[i - past.length]? = some none ∧
      past.length ≤ i := by
  by_cases hi : i < past.length
  · rw [List.getElem?_append_left (by simpa using hi), List.getElem?_map,
      List.getElem?_eq_getElem hi] at h
    cases h
  · have hle : past.length ≤ i := Nat.not_lt.mp hi
    rw [List.getElem?_append_right (by simpa using hle), List.length_map] at h
    exact ⟨h, hle⟩

lemma Sound.step (h : Sound failed c) (hstep : Step failed c c') : Sound failed c' := by
  cases hstep with
  | start hempty =>
    cases h with
    | empty h =>
      rw [List.length_map]
      exact .flying h
    | flying => cases hempty
    | landed => cases hempty
  | @handle i r hopen =>
    cases h with
    | @empty past h =>
      rw [List.getElem?_map] at hopen
      cases hi : past[i]? with
      | none => rw [hi] at hopen; cases hopen
      | some a => rw [hi] at hopen; cases hopen
    | @flying past h =>
      obtain ⟨hlast, hle⟩ := eq_length_of_open hopen
      have hi : i = past.length := by
        by_contra hne
        rw [List.getElem?_eq_none (by simp; omega)] at hlast
        cases hlast
      subst hi
      rw [List.set_append_right _ _ (by simp), List.length_map, Nat.sub_self, List.set_cons_zero]
      split_ifs with hr
      · -- the failure is handled, and the cell is empty again
        have hpast : ∀ r' ∈ past ++ [r], failed r' := by
          intro r' hr'
          rcases List.mem_append.mp hr' with hr' | hr'
          · exact h r' hr'
          · cases List.mem_singleton.mp hr'
            exact hr
        simpa using Sound.empty hpast
      · exact .landed h hr
    | @landed past h r' hr' =>
      obtain ⟨hlast, hle⟩ := eq_length_of_open hopen
      cases hj : i - past.length with
      | zero => rw [hj] at hlast; cases hlast
      | succ j => rw [hj] at hlast; cases hlast

/-! ### What soundness says -/

/-- The cell holds an attempt that was started. -/
lemma Sound.held_lt (h : Sound failed c) {i : ℕ} (hheld : c.held = some i) :
    i < c.attempts.length := by
  cases h with
  | empty => cases hheld
  | flying => cases hheld; simp
  | landed => cases hheld; simp

/-- At most one attempt is not handled yet. -/
lemma Sound.open_le_one (h : Sound failed c) : c.attempts.countP Option.isNone ≤ 1 := by
  have hpast : ∀ past : List ρ, (past.map some).countP Option.isNone = 0 := by
    intro past
    refine List.countP_eq_zero.mpr fun a ha => ?_
    obtain ⟨r, -, rfl⟩ := List.mem_map.mp ha
    simp
  cases h with
  | empty => simp only [hpast, Nat.zero_le]
  | flying => simp only [List.countP_append, hpast]; simp
  | landed => simp only [List.countP_append, hpast]; simp

/-- Every attempt but the last was handled and had failed. -/
lemma Sound.failed_of_lt (h : Sound failed c) {i : ℕ} (hi : i + 1 < c.attempts.length) :
    ∃ r, c.attempts[i]? = some (some r) ∧ failed r := by
  have hpast : ∀ {past : List ρ} (last : List (Option ρ)), (∀ r ∈ past, failed r) →
      i < past.length → ∃ r, (past.map some ++ last)[i]? = some (some r) ∧ failed r := by
    intro past last hpast hi
    refine ⟨past[i], ?_, hpast _ (List.getElem_mem hi)⟩
    rw [List.getElem?_append_left (by simpa using hi), List.getElem?_map,
      List.getElem?_eq_getElem hi]
    rfl
  cases h with
  | @empty past h =>
    simp only [List.length_map] at hi
    have := hpast [] h (by omega)
    rwa [List.append_nil] at this
  | flying h =>
    simp only [List.length_append, List.length_map, List.length_singleton] at hi
    exact hpast _ h (by omega)
  | landed h =>
    simp only [List.length_append, List.length_map, List.length_singleton] at hi
    exact hpast _ h (by omega)

/-- Two attempts that did not fail are one. -/
lemma Sound.success_unique (h : Sound failed c) {i j : ℕ} {r r' : ρ}
    (hi : c.attempts[i]? = some (some r)) (hj : c.attempts[j]? = some (some r'))
    (hr : ¬ failed r) (hr' : ¬ failed r') : i = j := by
  have hlast : ∀ {k : ℕ} {a : ρ}, c.attempts[k]? = some (some a) → ¬ failed a →
      k + 1 = c.attempts.length := by
    intro k a hk ha
    obtain ⟨hlt, -⟩ := List.getElem?_eq_some_iff.mp hk
    by_contra hne
    obtain ⟨b, hb, hfailed⟩ := h.failed_of_lt (i := k) (by omega)
    rw [hk] at hb
    cases hb
    exact ha hfailed
  have := hlast hi hr
  have := hlast hj hr'
  omega

end ModelDispatcher.Lib.SingleFlight
