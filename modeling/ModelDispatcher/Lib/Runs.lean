import Mathlib.Tactic.Lemma

/-!
Runs of a labelled transition system, with the labels taken so far.
-/

namespace ModelDispatcher.Lib.Runs

variable {σ ℓ : Type}

/-- From a state, a list of labels leads to a state. -/
inductive Steps (step : σ → ℓ → σ → Prop) (s : σ) : List ℓ → σ → Prop
  | refl : Steps step s [] s
  | snoc {ls : List ℓ} {t : σ} {l : ℓ} {u : σ} :
      Steps step s ls t → step t l u → Steps step s (ls ++ [l]) u

namespace Steps

variable {step : σ → ℓ → σ → Prop} {s t u : σ} {ls ms : List ℓ}

lemma single {l : ℓ} (h : step s l t) : Steps step s [l] t := Steps.refl.snoc h

lemma append (h : Steps step s ls t) (h' : Steps step t ms u) : Steps step s (ls ++ ms) u := by
  induction h' with
  | refl => simpa using h
  | snoc _ hstep ih => rw [← List.append_assoc]; exact .snoc ih hstep

/-- What holds at the start and is kept by every step holds along a run. -/
lemma invariant {I : List ℓ → σ → Prop} (h : Steps step s ls t) (h0 : I [] s)
    (hstep : ∀ {ls t l u}, I ls t → step t l u → I (ls ++ [l]) u) : I ls t := by
  induction h with
  | refl => exact h0
  | snoc _ hs ih => exact hstep ih hs

/-- A system whose steps are a restriction of another's runs as that one does. -/
lemma mono {step' : σ → ℓ → σ → Prop} (h : Steps step s ls t)
    (hsub : ∀ {t l u}, step t l u → step' t l u) : Steps step' s ls t := by
  induction h with
  | refl => exact .refl
  | snoc _ hs ih => exact .snoc ih (hsub hs)

end Steps

end ModelDispatcher.Lib.Runs
