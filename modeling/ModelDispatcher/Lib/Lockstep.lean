import ModelDispatcher.Lib.Logged

/-!
Two runs of programs from related states that stay in step: both return the same value or both
raise the same exception, and the states stay related.

The rules follow the structure of the programs. A program that keeps step with itself from any
related states does not look at what the relation leaves open.
-/

namespace ModelDispatcher.Lib.Lockstep

open Logged

variable {ε σ α β : Type}

/-- The two runs end the same way, in related states. -/
inductive Matched (R : σ → σ → Prop) :
    EStateM.Result ε σ α → EStateM.Result ε σ α → Prop
  | returned (a : α) {s t : σ} (h : R s t) : Matched R (.ok a s) (.ok a t)
  | raised (e : ε) {s t : σ} (h : R s t) : Matched R (.error e s) (.error e t)

variable {R : σ → σ → Prop}

lemma Matched.answer_eq {r r' : EStateM.Result ε σ α} (h : Matched R r r') :
    answer r = answer r' := by
  cases h with
  | returned => rfl
  | raised => rfl

lemma Matched.finalState {r r' : EStateM.Result ε σ α} (h : Matched R r r') :
    R (finalState r) (finalState r') := by
  cases h with
  | returned _ h => exact h
  | raised _ h => exact h

variable (R) in
/-- From a pair of states the two programs keep step. -/
def InStep (x y : EStateM ε σ α) (s t : σ) : Prop := Matched R (x.run s) (y.run t)

variable (R) in
/-- From any related states the program keeps step with itself. -/
def Steady (x : EStateM ε σ α) : Prop := ∀ s t, R s t → InStep R x x s t

/-! ### Two programs -/

section

variable {s t : σ}

lemma inStep_pure (a : α) (h : R s t) :
    InStep R (pure a : EStateM ε σ α) (pure a) s t := .returned a h

lemma inStep_bind {x y : EStateM ε σ α} {f g : α → EStateM ε σ β}
    (hxy : InStep R x y s t) (hfg : ∀ a s t, R s t → InStep R (f a) (g a) s t) :
    InStep R (x >>= f) (y >>= g) s t := by
  unfold InStep at hxy ⊢
  rw [EStateM.run_bind, EStateM.run_bind]
  generalize x.run s = r at hxy ⊢
  generalize y.run t = r' at hxy ⊢
  cases hxy with
  | returned a h => exact hfg a _ _ h
  | raised e h => exact .raised e h

lemma inStep_get {f g : σ → EStateM ε σ β} (h : InStep R (f s) (g t) s t) :
    InStep R (get >>= f) (get >>= g) s t := h

lemma inStep_modify {f g : σ → σ} (h : R (f s) (g t)) :
    InStep R (modify f : EStateM ε σ PUnit) (modify g) s t := .returned _ h

end

/-! ### One program -/

lemma steady_pure (a : α) : Steady R (pure a : EStateM ε σ α) :=
  fun _ _ h => inStep_pure a h

lemma steady_throw (e : ε) : Steady R (throw e : EStateM ε σ α) :=
  fun _ _ h => .raised e h

lemma steady_bind {x : EStateM ε σ α} {f : α → EStateM ε σ β} (hx : Steady R x)
    (hf : ∀ a, Steady R (f a)) : Steady R (x >>= f) :=
  fun s t h => inStep_bind (hx s t h) hf

/-- A program that reads only what related states share. -/
lemma steady_get {f : σ → EStateM ε σ β}
    (h : ∀ s t, R s t → InStep R (f s) (f t) s t) : Steady R (get >>= f) :=
  fun s t hR => inStep_get (h s t hR)

lemma steady_modify {f : σ → σ} (h : ∀ s t, R s t → R (f s) (f t)) :
    Steady R (modify f : EStateM ε σ PUnit) :=
  fun s t hR => inStep_modify (h s t hR)

end ModelDispatcher.Lib.Lockstep
