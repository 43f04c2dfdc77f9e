import ModelDispatcher.RetryHints

/-!
Which retry hints are safe: a header or a text chosen by the vendor gives a finite delay that can
be slept, or none, exactly when no part of it spells something else.
-/

namespace ModelDispatcher.HintSafety

open Lib.Text Lib.Binary64 Lib.Floats Lib.Regex Exceptions RetryHints

/-- The number a group spells; a group left out is zero. -/
def amount (m : Captures) (n : ℕ) : Option ℚ := (m.get n).elim (some 0) number

section

variable {hours minutes : ℕ}

end

/-! ### The text -/

section

variable {m : Captures} (h : ∀ n t, m.get n = some t → t ≠ [] ∧ IsAmount t)

include h

/-- A group is read as the number it spells, and raises when it spells none. -/
lemma floatGroup_eq {α : Type} [Arithmetic α] (n : ℕ) : (floatGroup m n : Except BuiltinError α) =
    (amount m n).elim (.error .valueError) fun q => .ok (Arithmetic.ofRat q) := by
  unfold floatGroup amount
  split
  · rename_i hnone
    rw [hnone]
    rfl
  · rename_i hnil
    exact absurd rfl (h n [] hnil).1
  · rename_i s _ hs
    rw [hs, Arithmetic.parse_amount (h n s hs).2]
    change _ = (number s).elim _ _
    cases number s <;> rfl

end

example : (extractRetryAfterSeconds
    ⟨py "E", py "try again in 9223372036.8547757s", none⟩).map (·.map sleepCheck) =
      .ok (some .overflowError) := by decide +kernel

end ModelDispatcher.HintSafety
