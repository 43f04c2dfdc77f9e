import Mathlib.Data.List.Infix
import ModelDispatcher.Lib.Text

/-!
Lower-casing of Python strings: `str.lower` over the case properties of the Unicode database.

Every code point has a lower-case mapping of its own, of one to three code points, but for the
capital sigma, whose mapping depends on the letters around it.
-/

namespace ModelDispatcher.Lib.Casing

open Text

/-- The case properties of the code points, of some Unicode version. -/
structure CaseTable where
  /-- The full lower-case mapping. -/
  mapping : PyChar → PyStr
  cased : PyChar → Bool
  caseIgnorable : PyChar → Bool
  space_not_cased : cased (.scalar ' ') = false
  space_not_ignorable : caseIgnorable (.scalar ' ') = false

namespace CaseTable

variable (T : CaseTable)

/-- The nearest code point that is not case-ignorable is a cased one. -/
def nearCased (s : PyStr) : Bool := (s.find? fun c => !T.caseIgnorable c).any T.cased

/-- A capital sigma at the end of a word; the text before it is given backwards. -/
def finalSigma (before after : PyStr) : Bool := T.nearCased before && !T.nearCased after

def lowerChar (before : PyStr) (c : PyChar) (after : PyStr) : PyStr :=
  if c = .scalar 'Σ' then
    if T.finalSigma before after then [.scalar 'ς'] else [.scalar 'σ']
  else T.mapping c

/-- The rest of a text in lower case, after what stands before it backwards. -/
def lowerFrom (before : PyStr) : PyStr → PyStr
  | [] => []
  | c :: after => T.lowerChar before c after ++ lowerFrom (c :: before) after

/-- `s.lower()`. -/
def lower (s : PyStr) : PyStr := T.lowerFrom [] s

variable {T}

/-- What follows a space is out of sight. -/
lemma nearCased_append_space (s t : PyStr) :
    T.nearCased (s ++ .scalar ' ' :: t) = T.nearCased s := by
  unfold nearCased
  rw [List.find?_append]
  cases s.find? fun c => !T.caseIgnorable c with
  | some c => rfl
  | none => simp [T.space_not_ignorable, T.space_not_cased]

lemma lowerFrom_append_space (before s t : PyStr) :
    T.lowerFrom before s <+: T.lowerFrom before (s ++ .scalar ' ' :: t) := by
  induction s generalizing before with
  | nil => exact List.nil_prefix
  | cons c s ih =>
    have hchar : T.lowerChar before c (s ++ .scalar ' ' :: t) = T.lowerChar before c s := by
      unfold lowerChar finalSigma
      rw [nearCased_append_space]
    rw [List.cons_append, lowerFrom, lowerFrom, hchar, List.prefix_append_right_inj]
    exact ih (c :: before)

/-- A text that goes on after a space keeps its lower case. -/
lemma lower_prefix (s t : PyStr) : T.lower s <+: T.lower (s ++ .scalar ' ' :: t) :=
  lowerFrom_append_space [] s t

end CaseTable

/-- The properties of ASCII and of the small and the capital sigma. -/
def asciiTable : CaseTable where
  mapping c := match c with
    | .scalar c => [.scalar c.toLower]
    | c => [c]
  cased c := match c with
    | .scalar c => c.isAlpha || c = 'Σ' || c = 'σ' || c = 'ς'
    | _ => false
  caseIgnorable c := c ∈ py "'.:^" ∨ c.ord = 0x60
  space_not_cased := by decide
  space_not_ignorable := by decide

example : asciiTable.lower (py "NOTE Σ. ΣA.Σ") = py "note σ. σa.ς" := by decide

end ModelDispatcher.Lib.Casing
