import Mathlib.Data.List.Forall2
import ModelDispatcher.Lib.Substitution

/-!
What the groups of the first match capture, constructor by constructor, and the leftmost match of a
pattern that begins with a literal.
-/

namespace ModelDispatcher.Lib.Captures

open Text Regex Substitution

/-- At the start of a text the first match leaves a rest, and captures some groups on top of those
captured before. -/
def Captured (r : Re) (s rest : PyStr) (groups : Captures) : Prop :=
  ∀ c, ∃ ms, r.matches s c = (rest, groups ++ c) :: ms

section

variable {r t : Re} {s u rest : PyStr} {groups groups' : Captures}

lemma captured_chr {p : PyChar → Bool} {x : PyChar} (hx : p x) :
    Captured (.chr p) (x :: s) s [] := by
  intro c
  refine ⟨[], ?_⟩
  rw [Re.matches, if_pos hx]
  rfl

lemma Captured.seq (hr : Captured r s u groups) (ht : Captured t u rest groups') :
    Captured (.seq r t) s rest (groups' ++ groups) := by
  intro c
  obtain ⟨ms, hms⟩ := hr c
  obtain ⟨ns, hns⟩ := ht (groups ++ c)
  refine ⟨ns ++ ms.flatMap fun m => t.matches m.1 m.2, ?_⟩
  rw [Re.matches, hms, List.flatMap_cons, hns, List.append_assoc]
  rfl

lemma Captured.group {w : PyStr} (n : ℕ) (h : Captured r (w ++ rest) rest groups) :
    Captured (.group n r) (w ++ rest) rest ((n, w) :: groups) := by
  intro c
  obtain ⟨ms, hms⟩ := h c
  have htaken : (w ++ rest).take ((w ++ rest).length - rest.length) = w := by
    rw [List.length_append, Nat.add_sub_cancel, List.take_left]
  refine ⟨ms.map fun m =>
    (m.1, (n, (w ++ rest).take ((w ++ rest).length - m.1.length)) :: m.2), ?_⟩
  rw [Re.matches, hms, List.map_cons, htaken]
  rfl

lemma Captured.opt (h : Captured r s rest groups) : Captured (.opt r) s rest groups := by
  intro c
  obtain ⟨ms, hms⟩ := h c
  exact ⟨ms ++ [(s, c)], by rw [Re.matches, hms]; rfl⟩

/-- An optional part that does not match is left out. -/
lemma captured_opt_of_noMatch (h : NoMatch r s) : Captured (.opt r) s s [] := by
  intro c
  exact ⟨[], by rw [Re.matches, h c]; rfl⟩

/-- A run captures nothing by itself. -/
lemma captured_many {p : PyChar → Bool} {least : ℕ} {run : PyStr} (hall : ∀ x ∈ run, p x)
    (hleast : least ≤ run.length) (hrest : ∀ x ∈ rest.head?, p x = false) :
    Captured (.many p least none) (run ++ rest) rest [] := by
  intro c
  obtain ⟨c', ms, hms⟩ := first_many hall hleast hrest c
  have hmem : (rest, c') ∈ (Re.many p least none).matches (run ++ rest) c :=
    hms ▸ List.mem_cons_self
  obtain ⟨k, -, -, -, heq⟩ := mem_many_iff.mp hmem
  obtain ⟨-, rfl⟩ := Prod.mk.inj heq
  exact ⟨ms, hms⟩

/-- A run, and then a character outside its class, are not found where the run is not followed by
that character. -/
lemma noMatch_run_then {p q : PyChar → Bool} {least n : ℕ} {run : PyStr} (hall : ∀ x ∈ run, p x)
    (hpq : ∀ x, p x → q x = false) (hrest : ∀ x ∈ rest.head?, p x = false ∧ q x = false) :
    NoMatch (.seq (.group n (.many p least none)) (.seq (.chr q) t)) (run ++ rest) := by
  refine noMatch_of_lang fun w hw hlang => ?_
  obtain ⟨taken, v, rfl, ⟨htaken, -⟩, hlang⟩ := hlang
  obtain ⟨y, v, rfl, ⟨x, rfl, hx⟩, -⟩ := hlang
  obtain ⟨after, hafter⟩ := hw
  rw [List.append_assoc, List.append_assoc, List.singleton_append] at hafter
  rcases List.append_eq_append_iff.mp hafter with ⟨more, hrun, hmore⟩ | ⟨more, htake, hmore⟩
  · -- the character is in the run, or the first one behind it
    cases more with
    | nil =>
      have hhead : x ∈ rest.head? := (congrArg List.head? hmore).symm
      exact absurd hx (by simp [(hrest x hhead).2])
    | cons z more =>
      obtain ⟨rfl, -⟩ := List.cons.inj hmore
      have hrunx : p x := hall x (by simp [hrun])
      exact absurd hx (by simp [hpq x hrunx])
  · -- the run that is taken goes past the run
    cases more with
    | nil =>
      have hhead : x ∈ rest.head? := congrArg List.head? hmore
      exact absurd hx (by simp [(hrest x hhead).2])
    | cons z more =>
      have hhead : z ∈ rest.head? := congrArg List.head? hmore
      have hz : p z := htaken z (by simp [htake])
      exact absurd hz (by simp [(hrest z hhead).1])

end

/-! ### Literals -/

section

variable {lit : List Char} {r : Re} {s rest : PyStr} {groups : Captures}

/-- The text is the literal in some letter case. -/
def Spells (lit : List Char) (s : PyStr) : Prop := List.Forall₂ (fun c x => ignoreCase c x) lit s

/-- No part of the text is the literal in any letter case. -/
def Lacks (lit : List Char) (s : PyStr) : Prop := ∀ w, w <:+: s → ¬ Spells lit w

lemma lang_literalThen {w : PyStr} (h : (literalThen lit r).Lang w) :
    ∃ u v, w = u ++ v ∧ Spells lit u ∧ r.Lang v := by
  induction lit generalizing w with
  | nil => exact ⟨[], w, rfl, .nil, h⟩
  | cons c lit ih =>
    obtain ⟨y, v, rfl, ⟨x, rfl, hx⟩, hv⟩ := h
    obtain ⟨u, v, rfl, hu, hv⟩ := ih hv
    exact ⟨x :: u, v, rfl, .cons hx hu, hv⟩

lemma Spells.lang_literal {w : PyStr} (h : Spells lit w) : (literal lit).Lang w := by
  induction h with
  | nil => exact ⟨by simp, by simp, by simp⟩
  | @cons c x lit w hx _ ih => exact ⟨[x], w, rfl, ⟨x, rfl, hx⟩, ih⟩

lemma lacks_of_search (h : (literal lit).search s = none) : Lacks lit s := by
  intro w hw hspells
  have hsome := isSome_search_iff.mpr ⟨w, hw, hspells.lang_literal⟩
  rw [h] at hsome
  cases hsome

lemma ignoreCase_self (c : Char) : ignoreCase c (.scalar c) := by simp [ignoreCase]

lemma spells_self (lit : List Char) : Spells lit (lit.map .scalar) := by
  induction lit with
  | nil => exact .nil
  | cons c lit ih => exact .cons (ignoreCase_self c) ih

lemma Captured.literalThen {w : PyStr} (hw : Spells lit w) (h : Captured r s rest groups) :
    Captured (literalThen lit r) (w ++ s) rest groups := by
  induction hw with
  | nil => exact h
  | cons hx _ ih =>
    have hseq := (captured_chr hx).seq ih
    rwa [List.append_nil] at hseq

/-- Nothing is found in front of a literal whose first letter is none of its others, behind a text
without the literal. -/
lemma noMatch_literalThen {v : PyStr} {x : PyChar} (hlacks : Lacks lit v) (hv : v ≠ [])
    (hx : lit.tail.any (ignoreCase · x) = false) :
    NoMatch (Regex.literalThen lit r) (v ++ x :: s) := by
  refine noMatch_of_lang fun w hw hlang => ?_
  obtain ⟨u, t, rfl, hu, -⟩ := lang_literalThen hlang
  obtain ⟨after, hafter⟩ := hw
  rw [List.append_assoc] at hafter
  rcases List.append_eq_append_iff.mp hafter with ⟨more, hmore, -⟩ | ⟨more, hmore, hx'⟩
  · exact hlacks u ⟨[], more, hmore.symm⟩ hu
  · cases more with
    | nil =>
      rw [List.append_nil] at hmore
      exact hlacks u ⟨[], [], by simp [hmore]⟩ hu
    | cons y more =>
      obtain ⟨rfl, -⟩ := List.cons.inj hx'
      subst hmore
      have hdrop := List.forall₂_drop_append lit v (x :: more) hu
      obtain ⟨k, hk⟩ := Nat.exists_eq_succ_of_ne_zero (List.length_pos_iff.mpr hv).ne'
      rw [hk, ← List.drop_tail] at hdrop
      cases hdrop' : lit.tail.drop k with
      | nil => simp [hdrop'] at hdrop
      | cons c cs =>
        rw [hdrop'] at hdrop
        have hc : c ∈ lit.tail := List.mem_of_mem_drop (hdrop' ▸ List.mem_cons_self)
        exact absurd (List.forall₂_cons.mp hdrop).1 (List.any_eq_false.mp hx c hc)

end

/-! ### The leftmost match -/

lemma search_append {r : Re} {before s rest : PyStr} {groups : Captures}
    (hnone : ∀ v, v <:+ before → v ≠ [] → NoMatch r (v ++ s)) (h : Captured r s rest groups) :
    r.search (before ++ s) = some groups := by
  induction before with
  | nil =>
    obtain ⟨ms, hms⟩ := h []
    rw [List.append_nil] at hms
    cases s with
    | nil =>
      rw [List.append_nil, Re.search, hms]
      rfl
    | cons x s =>
      rw [List.nil_append, Re.search, hms]
  | cons x before ih =>
    have hhere := hnone (x :: before) List.suffix_rfl (List.cons_ne_nil x before) []
    rw [List.cons_append] at hhere ⊢
    rw [Re.search, hhere]
    exact ih fun v hv hne => hnone v (hv.trans (List.suffix_cons x before)) hne

/-- Behind a text without the literal, the search finds the literal. -/
lemma search_literalThen {lit : List Char} {r : Re} {before s rest : PyStr} {x : PyChar}
    {groups : Captures} (hlacks : Lacks lit before)
    (hx : lit.tail.any (ignoreCase · x) = false)
    (h : Captured (literalThen lit r) (x :: s) rest groups) :
    (literalThen lit r).search (before ++ x :: s) = some groups := by
  refine search_append (fun v hv hne => noMatch_literalThen (fun w hw => ?_) hne hx) h
  exact hlacks w (hw.trans hv.isInfix)

end ModelDispatcher.Lib.Captures
