import ModelDispatcher.Redaction

/-!
How much of a long run of key characters is redacted. The engine takes the first alternative that
matches at a position: a run that starts like an `sk-` key is cut after the key, and what is left
of it may be too short to match by itself.
-/

namespace ModelDispatcher.RedactedRuns

open Lib.Text Lib.Regex Lib.Substitution Redaction

/-! ### Runs -/

/-- A run of blob characters that the text around it does not continue. -/
structure MaximalRun (before run after : PyStr) : Prop where
  chars : ∀ x ∈ run, isBlobChar x
  before : ∀ x ∈ before.getLast?, isBlobChar x = false
  after : ∀ x ∈ after.head?, isBlobChar x = false

/-- The whole run is redacted, in the text around it. -/
def Redacted (before run after : PyStr) : Prop := Covered secretValue before run after

/-- A key with the rest of a run after it, which is shorter than a blob. -/
structure KeyedRun (run key rest : PyStr) : Prop where
  eq : run = py "sk-" ++ (key ++ rest)
  alnum : ∀ x ∈ key, isAlnum x
  long : 16 ≤ key.length
  stops : ∀ x ∈ rest.head?, isAlnum x = false

/-- A run that starts with a key and goes on after it, but not for as long as a blob. -/
def Splits (run : PyStr) : Prop :=
  ∃ key rest, KeyedRun run key rest ∧ rest ≠ [] ∧ rest.length < 32

/-- A run in the token of a `Bearer` that stands before it, where no earlier match reaches. -/
def InBearer (before run after : PyStr) : Prop :=
  ∃ front blank token, before = front ++ (py "Bearer" ++ (blank ++ token)) ∧ blank ≠ [] ∧
    (∀ x ∈ blank, x.isSpace) ∧ (∀ x ∈ token, isTokenChar x) ∧
    Stands secretValue front (py "Bearer" ++ (blank ++ (token ++ (run ++ after))))

/-! ### Characters -/

section

variable {x : PyChar}

lemma isBlobChar_of_isAlnum (h : isAlnum x) : isBlobChar x := by simp [isBlobChar, h]

lemma isTokenChar_of_isBlobChar (h : isBlobChar x) : isTokenChar x := by simp [isTokenChar, h]

lemma not_isTokenChar_of_isSpace (h : x.isSpace) : isTokenChar x = false := by
  have hord : x.ord ∈ spaces := by simpa [PyChar.isSpace] using h
  have hspaces : ∀ n ∈ spaces, isTokenChar (.scalar (Char.ofNat n)) = false := by decide
  cases x with
  | surrogate n => rfl
  | scalar c =>
    have hc := hspaces c.toNat hord
    rwa [Char.ofNat_toNat] at hc

lemma not_isBlobChar_of_isSpace (h : x.isSpace) : isBlobChar x = false := by
  refine Bool.eq_false_iff.mpr fun hblob => ?_
  have htoken := isTokenChar_of_isBlobChar hblob
  rw [not_isTokenChar_of_isSpace h] at htoken
  cases htoken

lemma isBlobChar_of_mem_sk (h : x ∈ py "sk-") : isBlobChar x := by
  have hall : ∀ y ∈ py "sk-", isBlobChar y := by decide
  exact hall x h

lemma isBlobChar_of_mem_bearer (h : x ∈ py "Bearer") : isBlobChar x := by
  have hall : ∀ y ∈ py "Bearer", isBlobChar y := by decide
  exact hall x h

end

/-- What follows a run of a class does not start in a class inside it. -/
lemma head?_append_of {p q : PyChar → Bool} (hpq : ∀ x, q x → p x) {s t : PyStr}
    (hs : ∀ x ∈ s.head?, q x = false) (ht : ∀ x ∈ t.head?, p x = false) :
    ∀ x ∈ (s ++ t).head?, q x = false := by
  intro x hx
  cases s with
  | nil =>
    refine Bool.eq_false_iff.mpr fun hq => ?_
    have hp := hpq x hq
    rw [ht x hx] at hp
    cases hp
  | cons y s => exact hs x hx

/-- What starts a text inside a class stops before the first character outside it. -/
lemma prefix_of_class {p : PyChar → Bool} {w run rest : PyStr} (hw : ∀ x ∈ w, p x)
    (hrest : ∀ x ∈ rest.head?, p x = false) (h : w <+: run ++ rest) : w <+: run := by
  obtain ⟨t, ht⟩ := h
  rcases List.append_eq_append_iff.mp ht with ⟨u, hrun, -⟩ | ⟨u, rfl, hu⟩
  · exact ⟨u, hrun.symm⟩
  · cases u with
    | nil => exact ⟨[], by simp⟩
    | cons x u =>
      have hx := hw x (by simp)
      rw [hrest x (by rw [hu]; rfl)] at hx
      cases hx

/-! ### The first match at the start of a run -/

section

variable {run key rest after : PyStr}

/-- The key alone is matched, whatever follows it. -/
lemma first_of_keyedRun (h : KeyedRun run key rest)
    (hafter : ∀ x ∈ after.head?, isBlobChar x = false) :
    First secretValue (run ++ after) (rest ++ after) := by
  rw [h.eq, List.append_assoc, List.append_assoc]
  refine First.group 1 (First.alt_left (First.exactlyThen (py "sk-") ?_))
  exact first_many h.alnum h.long
    (head?_append_of (fun x => isBlobChar_of_isAlnum) h.stops hafter)

lemma noMatch_bearer (hrun : ∀ x ∈ run, isBlobChar x) (hlen : 7 ≤ run.length) :
    NoMatch (exactlyThen (py "Bearer") (.seq (blanks 1) (.many isTokenChar 16 none)))
      (run ++ after) := by
  refine noMatch_of_lang fun w hw hlang => ?_
  obtain ⟨u, rfl, blank, token, rfl, ⟨hspace, hblank, -⟩, -⟩ := lang_exactlyThen_iff.mp hlang
  obtain ⟨x, blank, rfl⟩ := List.exists_cons_of_length_pos hblank
  obtain ⟨t, ht⟩ := hw
  have hseventh : run[6]? = some x := by
    have happend : (run ++ after)[6]? = run[6]? := List.getElem?_append_left (by omega)
    rw [← happend, ← ht]
    rfl
  have hblob := hrun x (List.mem_of_getElem? hseventh)
  rw [not_isBlobChar_of_isSpace (hspace x (by simp))] at hblob
  cases hblob

/-- A run without a key at its start is matched whole. -/
lemma first_of_not_keyed (hrun : ∀ x ∈ run, isBlobChar x)
    (hafter : ∀ x ∈ after.head?, isBlobChar x = false) (hlen : 32 ≤ run.length)
    (hkeyed : ∀ key rest, ¬ KeyedRun run key rest) :
    First secretValue (run ++ after) after := by
  refine First.group 1 (First.alt_right ?_ (First.alt_right ?_ (first_many hrun hlen hafter)))
  · refine noMatch_of_lang fun w hw hlang => ?_
    obtain ⟨key, rfl, hkey, hkeylen, -⟩ := lang_exactlyThen_iff.mp hlang
    have hchars : ∀ x ∈ py "sk-" ++ key, isBlobChar x := by
      intro x hx
      rcases List.mem_append.mp hx with hx | hx
      · exact isBlobChar_of_mem_sk hx
      · exact isBlobChar_of_isAlnum (hkey x hx)
    obtain ⟨rest, hrest⟩ := prefix_of_class hchars hafter hw
    refine hkeyed (key ++ rest.takeWhile isAlnum) (rest.dropWhile isAlnum) ⟨?_, ?_, ?_, ?_⟩
    · rw [List.append_assoc, List.takeWhile_append_dropWhile, ← List.append_assoc, hrest]
    · intro x hx
      rcases List.mem_append.mp hx with hx | hx
      · exact hkey x hx
      · exact List.mem_takeWhile_imp hx
    · rw [List.length_append]
      omega
    · intro x hx
      have hnot := List.head?_dropWhile_not isAlnum rest
      rwa [Option.mem_def.mp hx] at hnot
  · exact noMatch_bearer hrun (by omega)

end

/-! ### A run the scan reaches -/

section

variable {run key rest after : PyStr}

/-- A first match of a whole text redacts it. -/
lemma covered_of_first (h : First secretValue (run ++ after) after) :
    Covered secretValue [] run after := by
  refine covered_of_hit (w := []) (s := after) ?_
  rw [List.nil_append, List.append_nil, firstLength_of_first h, List.length_append,
    Nat.add_sub_cancel]

/-- What is left after a key does not start with one. -/
lemma KeyedRun.not_keyed_rest (h : KeyedRun run key rest) (key' rest' : PyStr) :
    ¬ KeyedRun rest key' rest' := by
  intro h'
  have hs := h.stops (.scalar 's') (by rw [h'.eq]; rfl)
  cases hs

/-- What is left after a key, when it is too short to be a blob, is no secret and starts none. -/
lemma KeyedRun.firstLength_rest (h : KeyedRun run key rest) (hne : rest ≠ [])
    (hlen : rest.length < 32) (hafter : ∀ x ∈ after.head?, isBlobChar x = false) :
    firstLength secretValue (rest ++ after) = 0 := by
  refine firstLength_of_noMatch (noMatch_of_lang fun w hw hlang => ?_)
  obtain ⟨x, rest, rfl⟩ := List.exists_cons_of_ne_nil hne
  have hx : isAlnum x = false := h.stops x rfl
  obtain ⟨t, ht⟩ := hw
  cases lang_secretValue_iff.mp hlang with
  | key hkeylen hall =>
    have hhead : PyChar.scalar 's' = x := (List.cons.inj ht).1
    rw [← hhead] at hx
    cases hx
  | bearer hblank hspace htokenlen hall =>
    have hhead : PyChar.scalar 'B' = x := (List.cons.inj ht).1
    rw [← hhead] at hx
    cases hx
  | blob hbloblen hall =>
    have hle := (prefix_of_class hall hafter ⟨t, ht⟩).length_le
    omega

lemma KeyedRun.covered_iff (h : KeyedRun run key rest) (hrun : ∀ x ∈ run, isBlobChar x)
    (hafter : ∀ x ∈ after.head?, isBlobChar x = false) :
    Covered secretValue [] run after ↔ rest = [] ∨ 32 ≤ rest.length := by
  have hsplit : run = (py "sk-" ++ key) ++ rest := by rw [h.eq, List.append_assoc]
  have hfirst : firstLength secretValue ((py "sk-" ++ key) ++ (rest ++ after)) =
      (py "sk-" ++ key).length := by
    rw [← List.append_assoc, ← hsplit, firstLength_of_first (first_of_keyedRun h hafter), hsplit]
    simp only [List.length_append]
    omega
  have hkey : Covered secretValue [] (py "sk-" ++ key) (rest ++ after) :=
    covered_of_hit (w := []) (s := rest ++ after) (by rw [List.nil_append, hfirst]; simp)
  have hstands : Stands secretValue (py "sk-" ++ key) (rest ++ after) :=
    Stands.hit (u := []) .start (by simp) hfirst
  rw [hsplit, covered_append, List.nil_append, hstands.covered_iff, and_iff_right hkey]
  constructor
  · intro hcovered
    by_contra hnot
    obtain ⟨hne, hlen⟩ := not_or.mp hnot
    obtain ⟨x, rest, rfl⟩ := List.exists_cons_of_ne_nil hne
    exact not_covered_of_none (h.firstLength_rest hne (not_le.mp hlen) hafter) hcovered
  · rintro (rfl | hlen)
    · intro i hi
      cases hi
    · refine covered_of_first (first_of_not_keyed (fun x hx => hrun x ?_) hafter hlen
        h.not_keyed_rest)
      rw [hsplit]
      exact List.mem_append_right _ hx

/-- A run has only one key. -/
lemma KeyedRun.unique {key' rest' : PyStr} (h : KeyedRun run key rest)
    (h' : KeyedRun run key' rest') : rest = rest' := by
  have heq : key ++ rest = key' ++ rest' := List.append_cancel_left (h.eq.symm.trans h'.eq)
  have hdrop : ∀ {k t : PyStr}, (∀ x ∈ k, isAlnum x) → (∀ x ∈ t.head?, isAlnum x = false) →
      (k ++ t).dropWhile isAlnum = t := by
    intro k t hk ht
    rw [List.dropWhile_append_of_pos hk]
    cases t with
    | nil => rfl
    | cons x t => exact List.dropWhile_cons_of_neg (by rw [ht x rfl]; simp)
  rw [← hdrop h.alnum h.stops, heq, hdrop h'.alnum h'.stops]

/-- A run the scan comes to stand at is redacted if and only if it does not split. -/
lemma covered_iff_not_splits (hrun : ∀ x ∈ run, isBlobChar x)
    (hafter : ∀ x ∈ after.head?, isBlobChar x = false) (hlen : 32 ≤ run.length) :
    Covered secretValue [] run after ↔ ¬ Splits run := by
  by_cases hkeyed : ∃ key rest, KeyedRun run key rest
  · obtain ⟨key, rest, h⟩ := hkeyed
    rw [h.covered_iff hrun hafter]
    constructor
    · rintro hrest ⟨key', rest', h', hne, hshort⟩
      rw [← h.unique h'] at hne hshort
      rcases hrest with hnil | hlong
      · exact hne hnil
      · omega
    · intro hnot
      by_contra hrest
      obtain ⟨hne, hshort⟩ := not_or.mp hrest
      exact hnot ⟨key, rest, h, hne, not_le.mp hshort⟩
  · refine iff_of_true ?_ ?_
    · exact covered_of_first (first_of_not_keyed hrun hafter hlen fun key rest h =>
        hkeyed ⟨key, rest, h⟩)
    · rintro ⟨key, rest, h, -⟩
      exact hkeyed ⟨key, rest, h⟩

end

/-! ### A run inside a bearer token -/

section

variable {before run after : PyStr}

lemma first_of_bearer {blank token rest : PyStr} (hblank : blank ≠ [])
    (hspace : ∀ x ∈ blank, x.isSpace) (htoken : ∀ x ∈ token, isTokenChar x)
    (hlen : 16 ≤ token.length) (hrest : ∀ x ∈ rest.head?, isTokenChar x = false) :
    First secretValue (py "Bearer" ++ (blank ++ (token ++ rest))) rest := by
  refine First.group 1 (First.alt_right ?_ (First.alt_left (First.exactlyThen _ ?_)))
  · refine noMatch_of_lang fun w hw hlang => ?_
    obtain ⟨key, rfl, -⟩ := lang_exactlyThen_iff.mp hlang
    obtain ⟨t, ht⟩ := hw
    have hhead : PyChar.scalar 's' = .scalar 'B' := (List.cons.inj ht).1
    cases hhead
  · refine First.seq (u := token ++ rest) ?_ (first_many htoken hlen hrest)
    refine first_many hspace (List.length_pos_iff.mpr hblank) fun x hx => ?_
    obtain ⟨y, token, rfl⟩ := List.exists_cons_of_length_pos (by omega : 0 < token.length)
    obtain rfl : y = x := Option.some.inj hx
    refine Bool.eq_false_iff.mpr fun hblankx => ?_
    have hy := htoken y (by simp)
    rw [not_isTokenChar_of_isSpace hblankx] at hy
    cases hy

lemma redacted_of_inBearer (hrun : ∀ x ∈ run, isBlobChar x) (hlen : 32 ≤ run.length)
    (h : InBearer before run after) : Redacted before run after := by
  obtain ⟨front, blank, token, rfl, hblank, hspace, htoken, hstands⟩ := h
  have hafter : after = after.takeWhile isTokenChar ++ after.dropWhile isTokenChar :=
    List.takeWhile_append_dropWhile.symm
  have hall : ∀ x ∈ token ++ (run ++ after.takeWhile isTokenChar), isTokenChar x := by
    intro x hx
    rcases List.mem_append.mp hx with hx | hx
    · exact htoken x hx
    · rcases List.mem_append.mp hx with hx | hx
      · exact isTokenChar_of_isBlobChar (hrun x hx)
      · exact List.mem_takeWhile_imp hx
  have hends : ∀ x ∈ (after.dropWhile isTokenChar).head?, isTokenChar x = false := by
    intro x hx
    have hnot := List.head?_dropWhile_not isTokenChar after
    rwa [Option.mem_def.mp hx] at hnot
  have hfirst := first_of_bearer hblank hspace hall
    (by simp only [List.length_append]; omega) hends
  have hlength := firstLength_of_first hfirst
  have hcovered : Covered secretValue front (py "Bearer" ++ (blank ++ token) ++ run) after := by
    rw [Stands.covered_iff (by simpa using hstands)]
    conv => arg 4; rw [hafter]
    refine covered_of_hit ?_
    simp only [List.append_assoc] at hlength ⊢
    rw [hlength]
    simp only [List.length_append]
    omega
  exact (covered_append.mp hcovered).2

/-- A token of a `Bearer` is cut only after the blanks, where a blob character follows the cut and
the part before it does not consist of blob characters. -/
lemma left_of_bearer {left right blank token : PyStr}
    (hwhole : left ++ right = py "Bearer" ++ (blank ++ token))
    (hspace : ∀ x ∈ blank, x.isSpace) (hall : ∀ x ∈ token, isTokenChar x)
    (hleft : ¬ ∀ x ∈ left, isBlobChar x) (hright : ∀ x ∈ right.head?, isBlobChar x) :
    ∃ d, left = py "Bearer" ++ (blank ++ d) ∧ ∀ x ∈ d, isTokenChar x := by
  rcases List.append_eq_append_iff.mp hwhole with ⟨u, hbearer, -⟩ | ⟨u, rfl, hu⟩
  · refine absurd (fun x hx => isBlobChar_of_mem_bearer ?_) hleft
    rw [hbearer]
    exact List.mem_append_left u hx
  · rcases List.append_eq_append_iff.mp hu with ⟨d, rfl, rfl⟩ | ⟨d, rfl, hd⟩
    · exact ⟨d, rfl, fun x hx => hall x (List.mem_append_left right hx)⟩
    · rcases d with _ | ⟨x, d⟩
      · exact ⟨[], by simp, by simp⟩
      · have hx := hright x (by rw [hd]; rfl)
        rw [not_isBlobChar_of_isSpace (hspace x (by simp))] at hx
        cases hx

/-- Only a bearer token reaches from before a run into it. -/
lemma inBearer_of_straddled (h : MaximalRun before run after) (hne : run ≠ [])
    {front left right rest : PyStr}
    (hs : Straddled secretValue before (run ++ after) front left right rest) :
    InBearer before run after := by
  obtain ⟨rfl, hright, hleft, hrightne, hstands, hfirst⟩ := hs
  have hw : left ++ right ≠ [] := by simp [hleft]
  have hsecret := lang_secretValue_iff.mp (lang_of_firstLength hfirst hw)
  have hblobless : ¬ ∀ x ∈ left, isBlobChar x := by
    intro hall
    have hlast := h.before (left.getLast hleft) (by
      rw [List.getLast?_append, List.getLast?_eq_some_getLast hleft]
      rfl)
    rw [hall _ (List.getLast_mem hleft)] at hlast
    cases hlast
  generalize hwhole : left ++ right = w at hsecret
  have hmem : ∀ x ∈ left, x ∈ w := fun x hx => hwhole ▸ List.mem_append_left right hx
  cases hsecret with
  | @key key hlen hall =>
    refine absurd (fun x hx => ?_) hblobless
    rcases List.mem_append.mp (hmem x hx) with hx | hx
    · exact isBlobChar_of_mem_sk hx
    · exact isBlobChar_of_isAlnum (hall x hx)
  | blob hlen hall => exact absurd (fun x hx => hall x (hmem x hx)) hblobless
  | @bearer blank token hblank hspace hlen hall =>
    have hstart : ∀ x ∈ right.head?, isBlobChar x := by
      intro x hx
      obtain ⟨y, run, rfl⟩ := List.exists_cons_of_ne_nil hne
      obtain ⟨z, right, rfl⟩ := List.exists_cons_of_ne_nil hrightne
      obtain ⟨rfl, -⟩ := List.cons.inj hright
      obtain rfl : y = x := Option.some.inj hx
      exact h.chars y (by simp)
    obtain ⟨d, rfl, hd⟩ := left_of_bearer hwhole hspace hall hblobless hstart
    exact ⟨front, blank, d, rfl, hblank, hspace, hd, by simpa [← hright] using hstands⟩

end

/-- **Partial redaction.** A long run is redacted whole if and only if it is no key with a short
rest, or a bearer token reaches into it. -/
theorem redacted_iff (before run after : PyStr) (h : MaximalRun before run after)
    (hlen : 32 ≤ run.length) :
    Redacted before run after ↔ ¬ Splits run ∨ InBearer before run after := by
  have hstands : Stands secretValue before (run ++ after) →
      (Redacted before run after ↔ ¬ Splits run) := fun hstands =>
    hstands.covered_iff.trans (covered_iff_not_splits h.chars h.after hlen)
  have hne : run ≠ [] := List.ne_nil_of_length_pos (by omega)
  rcases stands_or_straddled secretValue before (run ++ after) with hs | ⟨_, _, _, _, hs⟩
  · constructor
    · exact fun hredacted => .inl ((hstands hs).mp hredacted)
    · rintro (hnot | hbearer)
      · exact (hstands hs).mpr hnot
      · exact redacted_of_inBearer h.chars hlen hbearer
  · have hbearer := inBearer_of_straddled h hne hs
    exact iff_of_true (redacted_of_inBearer h.chars hlen hbearer) (.inr hbearer)

namespace Sample

/-- A key of 16 characters and a suffix of 12. -/
def run : PyStr := py "sk-aaaaaaaaaaaaaaaa_bbbbbbbbbbbb"

end Sample

theorem redacted_iff_run : Redacted [] Sample.run [] ↔
    ¬ Splits Sample.run ∨ InBearer [] Sample.run [] :=
  redacted_iff [] Sample.run [] ⟨by decide, by simp, by simp⟩ (by decide)

/-- The suffix of a long key survives. -/
theorem suffix_survives : ¬ ∀ before run after : PyStr, MaximalRun before run after →
    32 ≤ run.length → Redacted before run after := by
  intro h
  have hredacted := h [] Sample.run [] ⟨by decide, by simp, by simp⟩ (by decide) 19 (by decide)
  revert hredacted
  decide

example : scrubText Sample.run = py "[REDACTED]_bbbbbbbbbbbb" := by decide

end ModelDispatcher.RedactedRuns
