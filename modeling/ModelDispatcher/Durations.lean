import ModelDispatcher.HintSafety
import ModelDispatcher.Lib.Captures

/-!
The duration hints of the vendors, "try again in 1h2m47.904s" and its shorter forms, and the wait
that is read from them.
-/

namespace ModelDispatcher.Durations

open Lib.Text Lib.Floats Lib.Regex Lib.Substitution Lib.Captures Exceptions RetryHints HintSafety

/-! ### Durations as they are written -/

structure Duration where
  hours : Option ℕ
  minutes : Option ℕ
  seconds : Decimal

/-- A number with its letter, or nothing. -/
def unit (letter : Char) : Option ℕ → PyStr
  | some n => (Decimal.ofNat n).text ++ [.scalar letter]
  | none => []

namespace Duration

variable (d : Duration)

def text : PyStr := unit 'h' d.hours ++ (unit 'm' d.minutes ++ (d.seconds.text ++ py "s"))

/-- The duration in seconds. -/
def total : ℚ := 3600 * d.hours.getD 0 + 60 * d.minutes.getD 0 + d.seconds.value

end Duration

/-! ### Which group captures which digits -/

/-- A number, and behind it one of some letters. -/
inductive NumberThen (letters : List Char) : PyStr → Prop
  | mk (run : PyStr) (c : Char) (rest : PyStr) (hne : run ≠ []) (hrun : ∀ x ∈ run, x.isDigit)
      (hc : c ∈ letters) : NumberThen letters (run ++ .scalar c :: rest)

lemma isDigit_scalar_map {cs : List Char} (h : ∀ c ∈ cs, c.isDigit) :
    ∀ x ∈ cs.map PyChar.scalar, x.isDigit := by
  intro x hx
  obtain ⟨c, hc, rfl⟩ := List.mem_map.mp hx
  exact (toAscii_of_isDigit (h c hc)).1

lemma isDigit_ofNat (n : ℕ) : ∀ x ∈ (Decimal.ofNat n).text, x.isDigit := by
  have hchars : (Decimal.ofNat n).chars = (Decimal.ofNat n).whole := List.append_nil _
  rw [Decimal.text, hchars]
  exact isDigit_scalar_map (Decimal.ofNat n).isDigit_whole

/-- A decimal number begins with a whole number, in front of its point or of what follows. -/
lemma numberThen_text (d : Decimal) (letter : Char) (s : PyStr) :
    NumberThen ['.', letter] (d.text ++ .scalar letter :: s) := by
  have hne : d.whole.map PyChar.scalar ≠ [] := by
    simpa using d.whole_ne_nil
  have hrun := isDigit_scalar_map d.isDigit_whole
  unfold Decimal.text Decimal.chars
  cases d.fraction with
  | none =>
    rw [Option.elim_none, List.append_nil]
    exact ⟨_, letter, s, hne, hrun, by simp⟩
  | some fraction =>
    rw [Option.elim_some, List.map_append, List.append_assoc]
    exact ⟨_, '.', _, hne, hrun, by simp⟩

lemma numberThen_unit (letter : Char) {letters : List Char} {s : PyStr}
    (h : NumberThen letters s) (n : Option ℕ) :
    NumberThen (letter :: letters) (unit letter n ++ s) := by
  cases n with
  | none =>
    obtain ⟨run, c, rest, hne, hrun, hc⟩ := h
    exact ⟨run, c, rest, hne, hrun, List.mem_cons_of_mem _ hc⟩
  | some n =>
    rw [unit, List.append_assoc]
    exact ⟨_, letter, s, (Decimal.ofNat n).text_ne_nil, isDigit_ofNat n, List.mem_cons_self⟩

lemma NumberThen.not_isSpace {letters : List Char} {s : PyStr} (h : NumberThen letters s) :
    ∀ x ∈ s.head?, x.isSpace = false := by
  obtain ⟨run, c, rest, hne, hrun, -⟩ := h
  obtain ⟨y, ys, rfl⟩ := List.exists_cons_of_ne_nil hne
  intro x hx
  obtain rfl := Option.some.inj hx
  exact PyChar.not_isSpace_of_isDigit (hrun y List.mem_cons_self)

/-- No letter of a duration is a digit, in any script. -/
lemma ignoreCase_of_isDigit {c : Char} (hc : c ∈ ['h', 'm', 's']) {x : PyChar} (hx : x.isDigit) :
    ignoreCase c x = false := by
  have hall : ∀ z ∈ digitZeros, ∀ i < 10,
      ignoreCase c (.scalar (Char.ofNat (z + i))) = false := by
    simp only [List.mem_cons, List.not_mem_nil, or_false] at hc
    rcases hc with rfl | rfl | rfl <;> decide
  obtain ⟨d, hd⟩ := Option.isSome_iff_exists.mp hx
  obtain ⟨hlt, z, hz, hord⟩ := PyChar.digitVal_spec hd
  cases x with
  | surrogate n => rfl
  | scalar e =>
    change e.toNat = z + d at hord
    have he := hall z hz d hlt
    rwa [← hord, Char.ofNat_toNat] at he

/-- What the group of an optional number captures. -/
def captures (group : ℕ) : Option ℕ → Captures
  | some n => [(group, (Decimal.ofNat n).text)]
  | none => []

/-- `(?:(\d+)h\s*)?` of the hours and its sibling of the minutes. -/
def unitPattern (group : ℕ) (letter : Char) : Re :=
  .opt (.seq (.group group digits) (.seq (.chr (ignoreCase letter)) (blanks 0)))

/-- The group of an optional number captures the number if it is there, and nothing of the numbers
behind it. -/
lemma captured_unit (group : ℕ) (letter : Char) {letters : List Char} {s : PyStr}
    (hletter : letter ∈ ['h', 'm', 's']) (hothers : letters.any (fun c =>
      (PyChar.scalar c).isDigit || ignoreCase letter (.scalar c)) = false)
    (hs : NumberThen letters s) (n : Option ℕ) :
    Captured (unitPattern group letter) (unit letter n ++ s) s (captures group n) := by
  have hself : ignoreCase letter (.scalar letter) := ignoreCase_self letter
  cases n with
  | none =>
    obtain ⟨run, c, rest, -, hrun, hc⟩ := hs
    change Captured (unitPattern group letter) (run ++ .scalar c :: rest)
      (run ++ .scalar c :: rest) []
    refine captured_opt_of_noMatch (noMatch_run_then hrun ?_ ?_)
    · exact fun x hx => ignoreCase_of_isDigit hletter hx
    · intro x hx
      obtain rfl := Option.some.inj hx
      have hother := List.any_eq_false.mp hothers c hc
      exact Bool.or_eq_false_iff.mp (Bool.eq_false_iff.mpr hother)
  | some n =>
    have hnumber : Captured (.group group digits)
        ((Decimal.ofNat n).text ++ .scalar letter :: s) (.scalar letter :: s)
        [(group, (Decimal.ofNat n).text)] := by
      refine (captured_many (isDigit_ofNat n) ?_ ?_).group group
      · exact List.length_pos_iff.mpr (Decimal.ofNat n).text_ne_nil
      · intro x hx
        obtain rfl := Option.some.inj hx
        refine Bool.eq_false_iff.mpr fun hdigit => ?_
        rw [ignoreCase_of_isDigit hletter hdigit] at hself
        cases hself
    have hblanks : Captured (blanks 0) ([] ++ s) s [] :=
      captured_many (by simp) (Nat.zero_le _) hs.not_isSpace
    rw [unit, List.append_assoc]
    exact (hnumber.seq ((captured_chr hself).seq hblanks)).opt

namespace Duration

variable (d : Duration)

def groups : Captures :=
  (3, d.seconds.text) :: (captures 2 d.minutes ++ captures 1 d.hours)

lemma text_append (after : PyStr) : d.text ++ after =
    unit 'h' d.hours ++ (unit 'm' d.minutes ++ (d.seconds.text ++ .scalar 's' :: after)) := by
  simp [text, py]

/-- The first match of the pattern at the start of a duration reads the whole duration. -/
lemma captured (after : PyStr) :
    Captured durationPattern (py "try again in " ++ (d.text ++ after)) after d.groups := by
  have hseconds := numberThen_text d.seconds 's' after
  have hminutes := numberThen_unit 'm' hseconds d.minutes
  have hhours := numberThen_unit 'h' hminutes d.hours
  have hnumber : Captured (.group 3 (.many isDigitOrDot 1 none))
      (d.seconds.text ++ .scalar 's' :: after) (.scalar 's' :: after) [(3, d.seconds.text)] := by
    refine (captured_many ?_ ?_ ?_).group 3
    · intro x hx
      rcases d.seconds.isAmount_text x hx with hdigit | rfl
      · simp [isDigitOrDot, hdigit]
      · decide
    · exact List.length_pos_iff.mpr d.seconds.text_ne_nil
    · intro x hx
      obtain rfl := Option.some.inj hx
      decide
  have hletter : Captured (.chr (ignoreCase 's')) (.scalar 's' :: after) after [] :=
    captured_chr (by decide)
  have hblank : Captured (blanks 1) ([.scalar ' '] ++ (d.text ++ after)) (d.text ++ after) [] := by
    refine captured_many (by decide) le_rfl ?_
    rw [text_append]
    exact hhours.not_isSpace
  have hunits := (captured_unit 1 'h' (by decide) (by decide) hminutes d.hours).seq
    ((captured_unit 2 'm' (by decide) (by decide) hseconds d.minutes).seq
      (hnumber.seq hletter))
  rw [← text_append] at hunits
  have hspells : Spells "try again in".toList (py "try again in") := spells_self _
  have hall := Captured.literalThen hspells (hblank.seq hunits)
  simp only [List.append_nil, List.nil_append, List.singleton_append] at hall
  exact hall

lemma amount_captures : amount d.groups 1 = some (d.hours.getD 0 : ℚ) ∧
    amount d.groups 2 = some (d.minutes.getD 0 : ℚ) ∧ amount d.groups 3 = some d.seconds.value := by
  obtain ⟨hours, minutes, seconds⟩ := d
  cases hours <;> cases minutes <;>
    simp [amount, Captures.get, groups, captures, Decimal.number_text]

lemma total_pos (h : d.hours.getD 0 ≠ 0 ∨ d.minutes.getD 0 ≠ 0 ∨ d.seconds.value ≠ 0) :
    0 < d.total := by
  have hhours : (0 : ℚ) ≤ d.hours.getD 0 := Nat.cast_nonneg _
  have hminutes : (0 : ℚ) ≤ d.minutes.getD 0 := Nat.cast_nonneg _
  have hseconds := d.seconds.value_nonneg
  unfold total
  rcases h with h | h | h
  · have hpos : (0 : ℚ) < d.hours.getD 0 := Nat.cast_pos.mpr (Nat.pos_of_ne_zero h)
    linarith
  · have hpos : (0 : ℚ) < d.minutes.getD 0 := Nat.cast_pos.mpr (Nat.pos_of_ne_zero h)
    linarith
  · have hpos : 0 < d.seconds.value := hseconds.lt_of_ne h.symm
    linarith

end Duration

/-- **Duration hints.** In exact numbers, a duration that is not zero is read as its number of
seconds, whatever is around it, as long as no part of the text in front spells "try again in". -/
theorem duration_hint (before after : PyStr) (d : Duration)
    (hbefore : Lacks "try again in".toList before)
    (hd : d.hours.getD 0 ≠ 0 ∨ d.minutes.getD 0 ≠ 0 ∨ d.seconds.value ≠ 0) :
    parseRetryAfterHint (before ++ py "try again in " ++ d.text ++ after) =
      .ok (some (3600 * d.hours.getD 0 + 60 * d.minutes.getD 0 + d.seconds.value : ℚ)) := by
  have hsearch : durationPattern.search (before ++ (py "try again in " ++ (d.text ++ after))) =
      some d.groups := search_literalThen hbefore (by decide) (d.captured after)
  have hgroups : ∀ n t, d.groups.get n = some t → t ≠ [] ∧ IsAmount t := fun n t ht =>
    (captures_of_search durationPattern_groups hsearch ht).1
  obtain ⟨hhours, hminutes, hseconds⟩ := d.amount_captures
  have htotal : durationTotal d.groups = .ok d.total := by
    unfold durationTotal
    rw [floatGroup_eq hgroups, floatGroup_eq hgroups, floatGroup_eq hgroups, hhours, hminutes,
      hseconds, Duration.total, mul_comm 3600, mul_comm 60]
    rfl
  have hpos : Arithmetic.positive d.total := decide_eq_true (d.total_pos hd)
  rw [List.append_assoc, List.append_assoc, parseRetryAfterHint, hsearch]
  simp only [htotal, bind, Except.bind, hpos, if_true]
  rfl

namespace Sample

def duration : Duration where
  hours := some 1
  minutes := some 2
  seconds := ⟨"47".toList, some "904".toList, by decide,
    List.all_eq_true.mp (by decide), List.all_eq_true.mp (by decide)⟩

end Sample

theorem duration_hint_of_sample :
    parseRetryAfterHint (py "Please " ++ py "try again in " ++ Sample.duration.text ++ py ".") =
      .ok (some (3600 * Sample.duration.hours.getD 0 + 60 * Sample.duration.minutes.getD 0 +
        Sample.duration.seconds.value : ℚ)) :=
  duration_hint (py "Please ") (py ".") Sample.duration (lacks_of_search (by decide))
    (.inl (by decide))

end ModelDispatcher.Durations
