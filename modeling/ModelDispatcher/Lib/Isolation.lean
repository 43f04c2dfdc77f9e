import Mathlib.Data.List.Basic
import Mathlib.Tactic.Lemma

/-!
A server that handles one input after the other, and the domains its inputs belong to.

A domain is isolated when what it is answered, and what it sees of the state, depends only on its
own inputs. Two conditions on a single step (`Isolates`) are enough for whole runs: an input of
the domain does the same in states the domain cannot tell apart, and an input of another domain
changes nothing the domain sees.
-/

namespace ModelDispatcher.Lib.Isolation

variable {σ ι ο : Type}

section

variable (step : σ → ι → ο × σ)

/-- The inputs with their answers, in order. -/
def answers : σ → List ι → List (ι × ο)
  | _, [] => []
  | s, i :: is => (i, (step s i).1) :: answers (step s i).2 is

/-- The state after the inputs. -/
def final (s : σ) (is : List ι) : σ := is.foldl (fun s i => (step s i).2) s

@[simp] lemma answers_nil (s : σ) : answers step s [] = [] := rfl

@[simp] lemma answers_cons (s : σ) (i : ι) (is : List ι) :
    answers step s (i :: is) = (i, (step s i).1) :: answers step (step s i).2 is := rfl

/-- An answer is the step's own, on the state the inputs before it have left. -/
lemma mem_answers {s : σ} {is : List ι} {x : ι × ο} (h : x ∈ answers step s is) :
    ∃ t, x.2 = (step t x.1).1 := by
  induction is generalizing s with
  | nil => cases h
  | cons i is ih =>
    rcases List.mem_cons.mp h with rfl | h
    · exact ⟨s, rfl⟩
    · exact ih h

/-- One step as a domain sees it. -/
structure Isolates (mine : ι → Prop) (view : σ → σ → Prop) : Prop where
  own : ∀ {s t i}, mine i → view s t →
    (step s i).1 = (step t i).1 ∧ view (step s i).2 (step t i).2
  others : ∀ {s t i}, ¬ mine i → view s t → view (step s i).2 t

end

variable {step : σ → ι → ο × σ} {mine : ι → Prop} [DecidablePred mine] {view : σ → σ → Prop}
variable {s t : σ}

/-- What a domain is answered is what it is answered without the inputs of the others. -/
lemma Isolates.answers_filter (h : Isolates step mine view) (hview : view s t) (is : List ι) :
    (answers step s is).filter (fun x => mine x.1) = answers step t (is.filter mine) ∧
      view (final step s is) (final step t (is.filter mine)) := by
  induction is generalizing s t with
  | nil => exact ⟨rfl, hview⟩
  | cons i is ih =>
    by_cases hmine : mine i
    · obtain ⟨hanswer, hnext⟩ := h.own hmine hview
      obtain ⟨hrest, hfinal⟩ := ih hnext
      rw [List.filter_cons_of_pos (by simpa using hmine)]
      refine ⟨?_, hfinal⟩
      rw [answers_cons, answers_cons, List.filter_cons_of_pos (by simpa using hmine), hanswer,
        hrest]
    · obtain ⟨hrest, hfinal⟩ := ih (h.others hmine hview)
      rw [List.filter_cons_of_neg (by simpa using hmine)]
      refine ⟨?_, hfinal⟩
      rw [answers_cons, List.filter_cons_of_neg (by simpa using hmine), hrest]

end ModelDispatcher.Lib.Isolation
