import ModelDispatcher.Exceptions
import ModelDispatcher.Lib.Regex

/-!
Extracting a "retry after" hint from a failure: the `Retry-After` header first, then the text
of the exception.
-/

namespace ModelDispatcher.RetryHints

open Lib Lib.Text Lib.Binary64 Lib.Floats Lib.Regex Exceptions

/-- `try again in\s+(?:(\d+)h\s*)?(?:(\d+)m\s*)?([\d.]+)s`, ignoring case. -/
def durationPattern : Re :=
  literalThen "try again in".toList <|
    .seq (blanks 1) <|
    .seq (.opt (.seq (.group 1 digits) (.seq (.chr (ignoreCase 'h')) (blanks 0)))) <|
    .seq (.opt (.seq (.group 2 digits) (.seq (.chr (ignoreCase 'm')) (blanks 0)))) <|
    .seq (.group 3 (.many isDigitOrDot 1 none)) (.chr (ignoreCase 's'))

/-- `retry.{0,10}after\s+(\d+)`, ignoring case. -/
def plainSecondsPattern : Re :=
  literalThen "retry".toList <|
    .seq (.many anyChar 0 (some 10)) <|
    literalThen "after".toList <|
    .seq (blanks 1) (.group 1 digits)

/-- The numbers that a hint is computed with: what `float` makes of a text, and the operations on
it. An unsigned decimal is read as the number it spells. -/
class Arithmetic (α : Type) where
  ofRat : ℚ → α
  parse : PyStr → Option α
  parse_amount : ∀ {s}, IsAmount s → parse s = (number s).map ofRat
  add : α → α → α
  mul : α → α → α
  positive : α → Bool

instance : Arithmetic PyFloat where
  ofRat := Binary64.ofRat
  parse := Floats.parse
  parse_amount := IsAmount.parse
  add := Double.add
  mul := Double.mul
  positive := (Binary64.ofRat 0).lt

/-- Exact numbers, which no operation rounds. -/
instance : Arithmetic ℚ where
  ofRat q := q
  parse := number
  parse_amount _ := Option.map_id'.symm
  add := (· + ·)
  mul := (· * ·)
  positive q := 0 < q

section

variable {α : Type} [Arithmetic α]

/-- `float(match.group(n) or 0)`. -/
def floatGroup (m : Captures) (n : ℕ) : Except BuiltinError α :=
  match m.get n with
  | none => .ok (Arithmetic.ofRat 0)
  | some [] => .ok (Arithmetic.ofRat 0)
  | some s => match Arithmetic.parse s with
    | some x => .ok x
    | none => .error .valueError

/-- `3600 * hours + 60 * minutes + seconds` of a duration match. -/
def durationTotal (m : Captures) : Except BuiltinError α := do
  let hours ← floatGroup m 1
  let minutes ← floatGroup m 2
  let seconds ← floatGroup m 3
  return Arithmetic.add (Arithmetic.add (Arithmetic.mul hours (Arithmetic.ofRat 3600))
    (Arithmetic.mul minutes (Arithmetic.ofRat 60))) seconds

def parsePlainSeconds (message : PyStr) : Except BuiltinError (Option α) :=
  match plainSecondsPattern.search message with
  | some m => (floatGroup m 1).map some
  | none => .ok none

def parseRetryAfterHint (message : PyStr) : Except BuiltinError (Option α) :=
  match durationPattern.search message with
  | some m => do
    let total ← durationTotal m
    if Arithmetic.positive total then return some total else parsePlainSeconds message
  | none => parsePlainSeconds message

end

/-- `headers.get(name)`. -/
def header (headers : List (PyStr × PyStr)) (name : String) : Option PyStr :=
  (headers.find? (·.1 = py name)).map Prod.snd

/-- `headers.get("retry-after") or headers.get("Retry-After")`. -/
def rawHeader (headers : List (PyStr × PyStr)) : Option PyStr :=
  match header headers "retry-after" with
  | some (c :: s) => some (c :: s)
  | _ => header headers "Retry-After"

def extractRetryAfterSeconds (exc : VendorError) : Except BuiltinError (Option PyFloat) :=
  match (exc.headers.bind rawHeader).bind Floats.parse with
  | some x => .ok (some x)
  | none => parseRetryAfterHint exc.text

example : parseRetryAfterHint (py "Please TRY again in 1h2m47.9s") =
    .ok (some (ofRat (3767 + 9 / 10))) := by decide +kernel
example : parseRetryAfterHint (py "try again in 0.1s") = .ok (some (1 / 10 : ℚ)) := by
  decide +kernel
example : extractRetryAfterSeconds
    ⟨py "E", py "retry after 30", some [(py "Retry-After", py "soon")]⟩ =
      .ok (some (ofRat 30)) := by decide +kernel

/-! ### When the extraction raises -/

/-- A non-empty run of digits. -/
def IsNumeral (t : PyStr) : Prop := t ≠ [] ∧ ∀ c ∈ t, c.isDigit

lemma isNumeral_of_digits {s : PyStr} {c : Captures} {m : PyStr × Captures}
    (h : m ∈ digits.matches s c) : IsNumeral (s.take (s.length - m.1.length)) := by
  obtain ⟨hlen, hdigits⟩ := many_takes h
  exact ⟨List.ne_nil_of_length_pos hlen, hdigits⟩

lemma IsNumeral.isAmount {t : PyStr} (h : IsNumeral t) : IsAmount t := fun c hc => .inl (h.2 c hc)

lemma floatGroup_of_isNumeral {α : Type} [Arithmetic α] {m : Captures} {n : ℕ}
    (h : ∀ t, m.get n = some t → IsNumeral t) : ∃ x : α, floatGroup m n = .ok x := by
  unfold floatGroup
  split
  · exact ⟨_, rfl⟩
  · exact ⟨_, rfl⟩
  · rename_i s _ hs
    obtain ⟨hne, hdigits⟩ := h s hs
    obtain ⟨x, hx⟩ := exists_number_of_digits hne hdigits
    rw [Arithmetic.parse_amount (h s hs).isAmount, hx]
    exact ⟨_, rfl⟩

lemma plainSecondsPattern_groups : plainSecondsPattern.GroupsAre fun _ t => IsNumeral t := by
  refine groupsAre_literalThen ?_ _
  refine ⟨trivial, groupsAre_literalThen ?_ _⟩
  exact ⟨trivial, trivial, fun _ _ _ h => isNumeral_of_digits h⟩

lemma parsePlainSeconds_ok (message : PyStr) :
    ∃ hint : Option PyFloat, parsePlainSeconds message = .ok hint := by
  unfold parsePlainSeconds
  split
  · rename_i m hm
    obtain ⟨x, hx⟩ := @floatGroup_of_isNumeral PyFloat _ m 1 fun t ht =>
      captures_of_search plainSecondsPattern_groups hm ht
    rw [hx]
    exact ⟨some x, rfl⟩
  · exact ⟨none, rfl⟩

/-- The hours and the minutes of a duration are numerals; the seconds may hold points as well. -/
lemma durationPattern_groups : durationPattern.GroupsAre fun n t =>
    (t ≠ [] ∧ IsAmount t) ∧ (n ≠ 3 → IsNumeral t) := by
  refine groupsAre_literalThen ?_ _
  refine ⟨trivial, ⟨⟨trivial, fun s c m hm => ?_⟩, trivial, trivial⟩,
    ⟨⟨trivial, fun s c m hm => ?_⟩, trivial, trivial⟩, ⟨trivial, fun s c m hm => ?_⟩, trivial⟩
  · have hnumeral := isNumeral_of_digits hm
    exact ⟨⟨hnumeral.1, hnumeral.isAmount⟩, fun _ => hnumeral⟩
  · have hnumeral := isNumeral_of_digits hm
    exact ⟨⟨hnumeral.1, hnumeral.isAmount⟩, fun _ => hnumeral⟩
  · obtain ⟨hlen, hchars⟩ := many_takes hm
    refine ⟨⟨List.ne_nil_of_length_pos hlen, fun c hc => ?_⟩, fun h => absurd rfl h⟩
    simpa [isDigitOrDot] using hchars c hc

/-- The text gives a duration whose seconds are not a number. -/
def MalformedDuration (message : PyStr) : Prop :=
  ∃ m seconds, durationPattern.search message = some m ∧ m.get 3 = some seconds ∧
    Floats.parse seconds = none

/-- No header gives a number, and the text gives a malformed duration. -/
def MalformedHint (exc : VendorError) : Prop :=
  (exc.headers.bind rawHeader).bind Floats.parse = none ∧ MalformedDuration exc.text

lemma durationTotal_error_iff {message : PyStr} {m : Captures}
    (hm : durationPattern.search message = some m) {e : BuiltinError} :
    (durationTotal m : Except BuiltinError PyFloat) = .error e ↔
      e = .valueError ∧ MalformedDuration message := by
  have hgroups := fun {n t} => @captures_of_search _ _ durationPattern_groups _ _ hm n t
  obtain ⟨hours, hh⟩ := @floatGroup_of_isNumeral PyFloat _ m 1 fun t ht =>
    (hgroups ht).2 (by decide)
  obtain ⟨minutes, hmin⟩ := @floatGroup_of_isNumeral PyFloat _ m 2 fun t ht =>
    (hgroups ht).2 (by decide)
  have hmal : MalformedDuration message ↔ ∃ t, m.get 3 = some t ∧ Floats.parse t = none := by
    simp [MalformedDuration, hm]
  rw [durationTotal, hh, hmin, hmal]
  cases h3 : m.get 3 with
  | none => simp [floatGroup, h3, bind, Except.bind, pure, Except.pure]
  | some t =>
    have hne : t ≠ [] := (hgroups h3).1.1
    obtain ⟨c, s, rfl⟩ := List.exists_cons_of_ne_nil hne
    have hparse : (Arithmetic.parse (c :: s) : Option PyFloat) = Floats.parse (c :: s) := rfl
    cases hp : Floats.parse (c :: s) with
    | none => simp [floatGroup, h3, hparse, hp, bind, Except.bind, eq_comm]
    | some x => simp [floatGroup, h3, hparse, hp, bind, Except.bind, pure, Except.pure]

lemma parseRetryAfterHint_error_iff {message : PyStr} {e : BuiltinError} :
    (parseRetryAfterHint message : Except BuiltinError (Option PyFloat)) = .error e ↔
      e = .valueError ∧ MalformedDuration message := by
  obtain ⟨hint, hplain⟩ := parsePlainSeconds_ok message
  unfold parseRetryAfterHint
  rw [hplain]
  split
  · rename_i m hm
    rw [← durationTotal_error_iff hm]
    cases (durationTotal m : Except BuiltinError PyFloat) with
    | error e' => simp [bind, Except.bind]
    | ok total =>
      simp only [bind, Except.bind]
      split_ifs <;> simp [pure, Except.pure]
  · rename_i hm
    simp [MalformedDuration, hm]

/-- The extraction raises on malformed hints only, and then a `ValueError`. -/
lemma extractRetryAfterSeconds_error_iff {exc : VendorError} {e : BuiltinError} :
    extractRetryAfterSeconds exc = .error e ↔ e = .valueError ∧ MalformedHint exc := by
  unfold extractRetryAfterSeconds MalformedHint
  split
  · rename_i x hx
    simp [hx]
  · rename_i hx
    rw [parseRetryAfterHint_error_iff]
    simp [hx]

lemma not_malformedHint_of_ok {exc : VendorError} {hint : Option PyFloat}
    (h : extractRetryAfterSeconds exc = .ok hint) : ¬ MalformedHint exc := by
  intro hmal
  have herror := extractRetryAfterSeconds_error_iff.mpr ⟨rfl, hmal⟩
  rw [h] at herror
  cases herror

end ModelDispatcher.RetryHints
