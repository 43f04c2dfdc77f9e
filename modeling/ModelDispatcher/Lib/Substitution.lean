import Mathlib.Data.List.Induction
import ModelDispatcher.Lib.Regex

/-!
`re.sub` with a fixed text, for a pattern that matches no empty text. The leftmost scan cuts a
text into matches and the characters between them, and each match is replaced.
-/

namespace ModelDispatcher.Lib.Substitution

open Text Regex

/-- A piece of a scanned text. -/
inductive Piece
  | kept (x : PyChar)
  | hit (w : PyStr)

namespace Piece

def text : Piece → PyStr
  | kept x => [x]
  | hit w => w

def render (repl : PyStr) : Piece → PyStr
  | kept x => [x]
  | hit _ => repl

/-- For each character, whether it is replaced. -/
def marks : Piece → List Bool
  | kept _ => [false]
  | hit w => List.replicate w.length true

end Piece

/-- The length of the first match at the start of a text. -/
def firstLength (r : Re) (s : PyStr) : ℕ :=
  match r.matches s [] with
  | [] => 0
  | m :: _ => s.length - m.1.length

/-- The pieces of a text, from the first characters that the last match left. -/
def piecesFrom (r : Re) : ℕ → PyStr → List Piece
  | _, [] => []
  | k + 1, _ :: s => piecesFrom r k s
  | 0, x :: s =>
    match firstLength r (x :: s) with
    | 0 => .kept x :: piecesFrom r 0 s
    | k + 1 => .hit ((x :: s).take (k + 1)) :: piecesFrom r k s

def pieces (r : Re) (s : PyStr) : List Piece := piecesFrom r 0 s

/-- `pattern.sub(repl, text)`, for a replacement without references to groups. -/
def sub (r : Re) (repl s : PyStr) : PyStr := (pieces r s).flatMap (Piece.render repl)

def marks (r : Re) (s : PyStr) : List Bool := (pieces r s).flatMap Piece.marks

/-! ### The scan -/

section

variable {r : Re} {x : PyChar} {s w : PyStr}

lemma piecesFrom_eq (r : Re) (k : ℕ) (s : PyStr) : piecesFrom r k s = pieces r (s.drop k) := by
  induction s generalizing k with
  | nil => rw [List.drop_nil, pieces, piecesFrom, piecesFrom]
  | cons x s ih =>
    cases k with
    | zero => rfl
    | succ k => exact ih k

lemma pieces_kept (h : firstLength r (x :: s) = 0) :
    pieces r (x :: s) = .kept x :: pieces r s := by
  rw [pieces, piecesFrom, h]
  rfl

lemma pieces_hit (h : firstLength r (w ++ s) = w.length) (hw : w ≠ []) :
    pieces r (w ++ s) = .hit w :: pieces r s := by
  obtain ⟨x, w, rfl⟩ := List.exists_cons_of_ne_nil hw
  change piecesFrom r 0 (x :: (w ++ s)) = _
  rw [List.cons_append] at h
  rw [piecesFrom, h]
  change Piece.hit ((x :: (w ++ s)).take (w.length + 1)) :: piecesFrom r w.length (w ++ s) = _
  rw [List.take_succ_cons, List.take_left, piecesFrom_eq, List.drop_left]

lemma firstLength_le (r : Re) (s : PyStr) : firstLength r s ≤ s.length := by
  unfold firstLength
  split
  · exact Nat.zero_le _
  · exact Nat.sub_le _ _

/-- At the start of a text there is no match, or a first one. -/
lemma none_or_first (r : Re) (s : PyStr) : firstLength r s = 0 ∨
    ∃ w rest, s = w ++ rest ∧ w ≠ [] ∧ firstLength r (w ++ rest) = w.length := by
  by_cases h : firstLength r s = 0
  · exact .inl h
  · refine .inr ⟨s.take (firstLength r s), s.drop (firstLength r s), ?_, ?_, ?_⟩
    · exact (List.take_append_drop _ s).symm
    · intro hnil
      rcases List.take_eq_nil_iff.mp hnil with hzero | rfl
      · exact h hzero
      · exact h (Nat.le_zero.mp (firstLength_le r []))
    · rw [List.take_append_drop, List.length_take, Nat.min_eq_left (firstLength_le r s)]

end

/-- The pieces that the leftmost scan cuts a text into. -/
inductive Scan (r : Re) : PyStr → List Piece → Prop
  | nil : Scan r [] []
  | kept {x : PyChar} {s : PyStr} {ps : List Piece} (hnone : firstLength r (x :: s) = 0)
      (rest : Scan r s ps) : Scan r (x :: s) (.kept x :: ps)
  | hit {w s : PyStr} {ps : List Piece} (hfirst : firstLength r (w ++ s) = w.length)
      (hw : w ≠ []) (rest : Scan r s ps) : Scan r (w ++ s) (.hit w :: ps)

/-- The induction is on the length of what is left to scan. -/
lemma scan_pieces (r : Re) (s : PyStr) : Scan r s (pieces r s) := by
  induction hn : s.length using Nat.strong_induction_on generalizing s with
  | _ n ih =>
    subst hn
    rcases s with _ | ⟨x, s⟩
    · exact .nil
    · rcases none_or_first r (x :: s) with hnone | ⟨w, rest, hs, hw, hfirst⟩
      · rw [pieces_kept hnone]
        exact .kept hnone (ih s.length (by simp) s rfl)
      · rw [hs, pieces_hit hfirst hw]
        refine .hit hfirst hw (ih rest.length ?_ rest rfl)
        rw [hs, List.length_append]
        have := List.length_pos_iff.mpr hw
        omega

lemma Scan.text {r : Re} {s : PyStr} {ps : List Piece} (h : Scan r s ps) :
    ps.flatMap Piece.text = s := by
  induction h with
  | nil => rfl
  | kept hnone rest ih => rw [List.flatMap_cons, ih]; rfl
  | hit hfirst hw rest ih => rw [List.flatMap_cons, ih]; rfl

lemma lang_of_firstLength {r : Re} {w s : PyStr} (h : firstLength r (w ++ s) = w.length)
    (hw : w ≠ []) : r.Lang w := by
  unfold firstLength at h
  split at h
  · exact absurd (List.eq_nil_of_length_eq_zero h.symm) hw
  · next m ms hm =>
    obtain ⟨u, hu, hlang⟩ := lang_of_matches (hm ▸ List.mem_cons_self :
      m ∈ r.matches (w ++ s) [])
    have hlen : u.length = w.length := by
      rw [hu, List.length_append, Nat.add_sub_cancel] at h
      exact h
    rw [(List.append_inj hu hlen.symm).1]
    exact hlang

/-! ### What is left of a text -/

/-- No part of a text is in the language. -/
def Clean (r : Re) (s : PyStr) : Prop := ∀ w, w <:+: s → ¬ r.Lang w

section

variable {r : Re} {p : PyChar → Bool}

lemma firstLength_pos {w : PyStr} (hproper : ¬ r.Lang []) (h : r.Lang w) (rest : PyStr) :
    0 < firstLength r (w ++ rest) := by
  obtain ⟨c', h'⟩ := matches_of_lang h rest []
  unfold firstLength
  split
  · next hnone => rw [hnone] at h'; cases h'
  · next m ms hm =>
    obtain ⟨u, hu, hlang⟩ := lang_of_matches (hm ▸ List.mem_cons_self :
      m ∈ r.matches (w ++ rest) [])
    have hne : u ≠ [] := fun hnil => hproper (hnil ▸ hlang)
    have hpos := List.length_pos_iff.mpr hne
    rw [hu, List.length_append]
    omega

/-- What does not hold the character between two texts is a part of one of them. -/
lemma infix_of_separated {w u v : PyStr} {x : PyChar} (h : w <:+: u ++ x :: v) (hx : x ∉ w) :
    w <:+: u ∨ w <:+: v := by
  have hstart : ∀ t : PyStr, t <+: x :: v → x ∉ t → t = [] := by
    intro t ht hxt
    rcases List.prefix_cons_iff.mp ht with rfl | ⟨t', rfl, -⟩
    · rfl
    · exact absurd List.mem_cons_self hxt
  rcases List.infix_append_iff_ne_nil.mp h with h | h | ⟨l₁, l₂, -, hne, rfl, -, h⟩
  · exact .inl h
  · rcases List.infix_cons_iff.mp h with h | h
    · rw [hstart w h hx]
      exact .inr (List.nil_infix)
    · exact .inr h
  · exact absurd (hstart l₂ h fun hmem => hx (List.mem_append_right l₁ hmem)) hne

/-- A pattern whose texts are not empty and made of some characters, and a replacement that starts
and ends with other characters and has no text of the pattern inside. -/
structure Seals (r : Re) (p : PyChar → Bool) (repl : PyStr) : Prop where
  proper : ¬ r.Lang []
  chars : ∀ w, r.Lang w → ∀ x ∈ w, p x
  repl : ∃ first mid last, repl = first :: (mid ++ [last]) ∧ p first = false ∧ p last = false ∧
    Clean r mid

variable {repl : PyStr}

lemma Seals.not_mem (h : Seals r p repl) {w : PyStr} (hlang : r.Lang w) {x : PyChar}
    (hx : p x = false) : x ∉ w := by
  intro hmem
  have hpx := h.chars w hlang x hmem
  rw [hx] at hpx
  cases hpx

lemma Seals.clean_nil (h : Seals r p repl) : Clean r [] := by
  intro w hw hlang
  rw [List.eq_nil_of_infix_nil hw] at hlang
  exact h.proper hlang

/-- A character that no text of the language has separates two texts. -/
lemma Seals.clean_separated (h : Seals r p repl) {u v : PyStr} {x : PyChar} (hx : p x = false)
    (hu : Clean r u) (hv : Clean r v) : Clean r (u ++ x :: v) := by
  intro w hw hlang
  rcases infix_of_separated hw (h.not_mem hlang hx) with hw | hw
  · exact hu w hw hlang
  · exact hv w hw hlang

lemma Seals.clean_repl_append (h : Seals r p repl) {s : PyStr} (hs : Clean r s) :
    Clean r (repl ++ s) := by
  obtain ⟨first, mid, last, rfl, hfirst, hlast, hmid⟩ := h.repl
  have hinner : Clean r (mid ++ last :: s) := h.clean_separated hlast hmid hs
  have houter := h.clean_separated hfirst h.clean_nil hinner
  simpa using houter

/-- What a text of the class starts the output with, it starts the text with. The induction is on
the scan; a replacement starts with a character outside the class. -/
lemma Seals.prefix_of_prefix (h : Seals r p repl) {s : PyStr} {ps : List Piece}
    (hscan : Scan r s ps) {w : PyStr} (hw : ∀ x ∈ w, p x)
    (hstart : w <+: ps.flatMap (Piece.render repl)) : w <+: s := by
  induction hscan generalizing w with
  | nil => exact hstart
  | @kept x s ps hnone rest ih =>
    rcases List.prefix_cons_iff.mp hstart with rfl | ⟨t, rfl, ht⟩
    · exact List.nil_prefix
    · exact List.prefix_cons_inj x |>.mpr (ih (fun y hy => hw y (List.mem_cons_of_mem x hy)) ht)
  | @hit v s ps hfirst hv rest ih =>
    obtain ⟨first, mid, last, rfl, hout, -, -⟩ := h.repl
    rcases List.prefix_cons_iff.mp hstart with rfl | ⟨t, rfl, -⟩
    · exact List.nil_prefix
    · have hin := hw first List.mem_cons_self
      rw [hout] at hin
      cases hin

/-- No text of the language is left, or made, by the replacement. The induction is on the scan. -/
lemma Seals.clean_scan (h : Seals r p repl) {s : PyStr} {ps : List Piece} (hscan : Scan r s ps) :
    Clean r (ps.flatMap (Piece.render repl)) := by
  induction hscan with
  | nil => exact h.clean_nil
  | @kept x s ps hnone rest ih =>
    intro w hw hlang
    rcases List.infix_cons_iff.mp hw with hw | hw
    · obtain ⟨t, ht⟩ := h.prefix_of_prefix (.kept hnone rest) (h.chars w hlang) hw
      have hpos := firstLength_pos h.proper hlang t
      rw [ht, hnone] at hpos
      cases hpos
    · exact ih w hw hlang
  | hit hfirst hw rest ih => exact h.clean_repl_append ih

lemma clean_sub (h : Seals r p repl) (s : PyStr) : Clean r (sub r repl s) :=
  h.clean_scan (scan_pieces r s)

/-- A clean text has no match. -/
lemma sub_of_clean {s : PyStr} (h : Clean r s) (repl : PyStr) : sub r repl s = s := by
  have hscan : ∀ {s : PyStr} {ps : List Piece}, Scan r s ps → Clean r s →
      ps.flatMap (Piece.render repl) = s := by
    intro s ps hscan hclean
    induction hscan with
    | nil => rfl
    | @kept x s ps hnone rest ih =>
      have hrest := ih fun w hw => hclean w (List.infix_cons_iff.mpr (.inr hw))
      rw [List.flatMap_cons, hrest]
      rfl
    | @hit w s ps hfirst hw rest ih =>
      refine absurd (lang_of_firstLength hfirst hw) (hclean w ?_)
      exact ⟨[], s, rfl⟩
  exact hscan (scan_pieces r s) h

lemma sub_sub (h : Seals r p repl) (s : PyStr) : sub r repl (sub r repl s) = sub r repl s :=
  sub_of_clean (clean_sub h s) repl

end

/-! ### The first match -/

/-- At the start of a text the first match leaves a rest, whatever was captured before. -/
def First (r : Re) (s rest : PyStr) : Prop :=
  ∀ c, ∃ c' ms, r.matches s c = (rest, c') :: ms

/-- There is no match at the start of a text. -/
def NoMatch (r : Re) (s : PyStr) : Prop := ∀ c, r.matches s c = []

section

variable {r t : Re} {s rest : PyStr}

lemma noMatch_of_lang (h : ∀ w, w <+: s → ¬ r.Lang w) : NoMatch r s := by
  intro c
  refine List.eq_nil_iff_forall_not_mem.mpr fun m hm => ?_
  obtain ⟨w, hw, hlang⟩ := lang_of_matches hm
  exact h w ⟨m.1, hw.symm⟩ hlang

lemma First.alt_left (h : First r s rest) : First (.alt r t) s rest := by
  intro c
  obtain ⟨c', ms, hms⟩ := h c
  exact ⟨c', ms ++ t.matches s c, by rw [Re.matches, hms]; rfl⟩

lemma First.alt_right (hnone : NoMatch r s) (h : First t s rest) : First (.alt r t) s rest := by
  intro c
  obtain ⟨c', ms, hms⟩ := h c
  exact ⟨c', ms, by rw [Re.matches, hnone c, hms]; rfl⟩

lemma First.group (n : ℕ) (h : First r s rest) : First (.group n r) s rest := by
  intro c
  obtain ⟨c', ms, hms⟩ := h c
  exact ⟨_, _, by rw [Re.matches, hms]; rfl⟩

lemma First.seq {u : PyStr} (hr : First r s u) (ht : First t u rest) :
    First (.seq r t) s rest := by
  intro c
  obtain ⟨c₁, ms, hms⟩ := hr c
  obtain ⟨c₂, ns, hns⟩ := ht c₁
  refine ⟨c₂, ns ++ ms.flatMap fun m => t.matches m.1 m.2, ?_⟩
  rw [Re.matches, hms, List.flatMap_cons, hns]
  rfl

lemma First.exactlyThen (lit : PyStr) (h : First r s rest) :
    First (exactlyThen lit r) (lit ++ s) rest := by
  induction lit with
  | nil => exact h
  | cons x lit ih =>
    refine First.seq (u := lit ++ s) (fun c => ⟨c, [], ?_⟩) ih
    simp [Re.matches]

/-- A greedy run takes all it can. -/
lemma first_many {p : PyChar → Bool} {least : ℕ} {run : PyStr} (hall : ∀ x ∈ run, p x)
    (hleast : least ≤ run.length) (hrest : ∀ x ∈ rest.head?, p x = false) :
    First (.many p least none) (run ++ rest) rest := by
  intro c
  have hlen : ((run ++ rest).takeWhile p).length = run.length := by
    rw [List.takeWhile_append_of_pos hall]
    cases rest with
    | nil => simp
    | cons x rest => rw [List.takeWhile_cons_of_neg (by simp [hrest x rfl]), List.append_nil]
  obtain ⟨ks, hks⟩ := runLengths_eq_cons hleast
  refine ⟨c, ks.map fun k => ((run ++ rest).drop k, c), ?_⟩
  simp only [Re.matches, hlen, hks, List.map_cons, List.drop_left]

lemma firstLength_of_first (h : First r s rest) : firstLength r s = s.length - rest.length := by
  obtain ⟨c', ms, hms⟩ := h []
  unfold firstLength
  rw [hms]

lemma firstLength_of_noMatch (h : NoMatch r s) : firstLength r s = 0 := by
  unfold firstLength
  rw [h []]

end

/-! ### Where the scan stands -/

/-- The scan of a text comes to stand between two parts of it: no match reaches from one into the
other. -/
inductive Stands (r : Re) : PyStr → PyStr → Prop
  | start {s : PyStr} : Stands r [] s
  | kept {u s : PyStr} {x : PyChar} (h : Stands r u (x :: s))
      (hnone : firstLength r (x :: s) = 0) : Stands r (u ++ [x]) s
  | hit {u w s : PyStr} (h : Stands r u (w ++ s)) (hw : w ≠ [])
      (hfirst : firstLength r (w ++ s) = w.length) : Stands r (u ++ w) s

/-- Every character of the middle part of a text is replaced. -/
def Covered (r : Re) (u v s : PyStr) : Prop :=
  ∀ i < v.length, (marks r (u ++ (v ++ s)))[u.length + i]? = some true

section

variable {r : Re} {u v w s : PyStr}

/-- A match reaches from the first part into the second. -/
structure Straddled (r : Re) (u s before left right after : PyStr) : Prop where
  first : u = before ++ left
  second : s = right ++ after
  left_ne : left ≠ []
  right_ne : right ≠ []
  stands : Stands r before (left ++ right ++ after)
  isFirst : firstLength r (left ++ right ++ after) = (left ++ right).length

/-- The induction is on the first part, from its end. -/
lemma stands_or_straddled (r : Re) (u s : PyStr) : Stands r u s ∨
    ∃ before left right after, Straddled r u s before left right after := by
  induction u using List.reverseRecOn generalizing s with
  | nil => exact .inl .start
  | append_singleton u x ih =>
    rcases ih (x :: s) with h | ⟨before, left, right, after, h⟩
    · rcases none_or_first r (x :: s) with hnone | ⟨w, rest, hs, hw, hfirst⟩
      · exact .inl (.kept h hnone)
      · obtain ⟨y, w, rfl⟩ := List.exists_cons_of_ne_nil hw
        obtain ⟨rfl, htail⟩ := List.cons.inj hs
        rcases w with _ | ⟨z, w⟩
        · obtain rfl : s = rest := htail
          exact .inl (.hit (w := [x]) h (by simp) hfirst)
        · refine .inr ⟨u, [x], z :: w, rest, rfl, htail, by simp, by simp, ?_, hfirst⟩
          rw [hs] at h
          exact h
    · obtain ⟨rfl, hs, hleft, hright, hstands, hfirst⟩ := h
      obtain ⟨y, right, rfl⟩ := List.exists_cons_of_ne_nil hright
      obtain ⟨rfl, htail⟩ := List.cons.inj hs
      rcases right with _ | ⟨z, right⟩
      · obtain rfl : s = after := htail
        have hhit := Stands.hit hstands (by simp) hfirst
        rw [← List.append_assoc] at hhit
        exact .inl hhit
      · refine .inr ⟨before, left ++ [x], z :: right, after, by rw [List.append_assoc], htail,
          by simp, by simp, ?_, ?_⟩
        · simpa using hstands
        · simpa using hfirst

lemma length_marks_text (ps : List Piece) :
    (ps.flatMap Piece.marks).length = (ps.flatMap Piece.text).length := by
  induction ps with
  | nil => rfl
  | cons q ps ih =>
    rw [List.flatMap_cons, List.flatMap_cons, List.length_append, List.length_append, ih]
    cases q <;> simp [Piece.marks, Piece.text]

/-- The scan goes on from where it stands as on a text of its own. -/
lemma Stands.pieces (h : Stands r u s) :
    ∃ qs, Substitution.pieces r (u ++ s) = qs ++ Substitution.pieces r s ∧
      qs.flatMap Piece.text = u := by
  induction h with
  | start => exact ⟨[], rfl, rfl⟩
  | @kept u s x h hnone ih =>
    obtain ⟨qs, hqs, htext⟩ := ih
    refine ⟨qs ++ [.kept x], ?_, by rw [List.flatMap_append, htext]; rfl⟩
    rw [List.append_assoc, List.singleton_append, hqs, pieces_kept hnone, List.append_assoc]
    rfl
  | @hit u w s h hw hfirst ih =>
    obtain ⟨qs, hqs, htext⟩ := ih
    refine ⟨qs ++ [.hit w], ?_, ?_⟩
    · rw [List.append_assoc, hqs, pieces_hit hfirst hw, List.append_assoc]
      rfl
    · rw [List.flatMap_append, htext]
      simp [Piece.text]

lemma Stands.covered_iff (h : Stands r u (v ++ s)) : Covered r u v s ↔ Covered r [] v s := by
  obtain ⟨qs, hqs, htext⟩ := h.pieces
  have hlen : (qs.flatMap Piece.marks).length = u.length := by rw [length_marks_text, htext]
  unfold Covered marks
  refine forall₂_congr fun i hi => ?_
  rw [hqs, List.flatMap_append, ← hlen, List.getElem?_append_right (Nat.le_add_right _ _),
    Nat.add_sub_cancel_left, List.nil_append, List.length_nil, Nat.zero_add]

/-- A match replaces all of its characters. -/
lemma covered_of_hit (h : firstLength r (v ++ (w ++ s)) = (v ++ w).length) :
    Covered r [] v (w ++ s) := by
  intro i hi
  have hne : v ++ w ≠ [] := by
    refine List.ne_nil_of_length_pos ?_
    rw [List.length_append]
    omega
  have hpieces := pieces_hit (r := r) (w := v ++ w) (s := s) (by rw [List.append_assoc, h]) hne
  rw [List.append_assoc] at hpieces
  rw [List.nil_append, marks, hpieces, List.flatMap_cons, Piece.marks, List.length_nil,
    Nat.zero_add, List.getElem?_append_left (by simp; omega), List.getElem?_replicate_of_lt]
  rw [List.length_append]
  omega

lemma not_covered_of_none {x : PyChar} (h : firstLength r (x :: (v ++ s)) = 0) :
    ¬ Covered r [] (x :: v) s := by
  intro hcovered
  have hfirst := hcovered 0 (by simp)
  rw [List.nil_append, List.cons_append, marks, pieces_kept h, List.flatMap_cons] at hfirst
  simp [Piece.marks] at hfirst

lemma covered_append :
    Covered r u (v ++ w) s ↔ Covered r u v (w ++ s) ∧ Covered r (u ++ v) w s := by
  unfold Covered
  simp only [List.append_assoc, List.length_append]
  constructor
  · intro h
    refine ⟨fun i hi => h i (by omega), fun i hi => ?_⟩
    rw [Nat.add_assoc]
    exact h (v.length + i) (by omega)
  · rintro ⟨hv, hw⟩ i hi
    by_cases hlt : i < v.length
    · exact hv i hlt
    · have := hw (i - v.length) (by omega)
      rwa [Nat.add_assoc, Nat.add_sub_cancel' (by omega)] at this

end

end ModelDispatcher.Lib.Substitution
