import Mathlib.Data.List.Basic
import Mathlib.Tactic.Lemma

/-!
Texts over any alphabet, cut into the frames that a separator closes and an open rest.

Cutting a text in pieces, each after the rest of those before it, gives the frames of the whole.
-/

namespace ModelDispatcher.Lib.Framing

variable {α : Type} (sep : α)

/-- The text is some frames, each closed by the separator, and a rest that has none. -/
structure Framed (text : List α) (frames : List (List α)) (rest : List α) : Prop where
  text_eq : text = frames.flatMap (· ++ [sep]) ++ rest
  closed : ∀ frame ∈ frames, sep ∉ frame
  unfinished : sep ∉ rest

section

variable {sep} {s t rest rest' : List α} {frames frames' : List (List α)}

lemma framed_nil : Framed sep [] [] [] := ⟨rfl, by simp, by simp⟩

/-- A separator closes an empty frame. -/
lemma Framed.close (h : Framed sep s frames rest) : Framed sep (sep :: s) ([] :: frames) rest where
  text_eq := by simp [h.text_eq]
  closed := by simpa using h.closed
  unfinished := h.unfinished

/-- Any other symbol goes to the first frame. -/
lemma Framed.extend {c : α} {frame : List α} (hc : c ≠ sep)
    (h : Framed sep s (frame :: frames) rest) :
    Framed sep (c :: s) ((c :: frame) :: frames) rest where
  text_eq := by simp [h.text_eq]
  closed := by
    obtain ⟨hframe, hframes⟩ := List.forall_mem_cons.mp h.closed
    refine List.forall_mem_cons.mpr ⟨?_, hframes⟩
    exact List.not_mem_cons_of_ne_of_not_mem hc.symm hframe
  unfinished := h.unfinished

/-- Without a frame, it goes to the rest. -/
lemma Framed.extend_rest {c : α} (hc : c ≠ sep) (h : Framed sep s [] rest) :
    Framed sep (c :: s) [] (c :: rest) where
  text_eq := by simp [h.text_eq]
  closed := by simp
  unfinished := List.not_mem_cons_of_ne_of_not_mem hc.symm h.unfinished

/-- A text of two, cut at the rest of the first. -/
lemma Framed.append (h : Framed sep s frames rest) (h' : Framed sep (rest ++ t) frames' rest') :
    Framed sep (s ++ t) (frames ++ frames') rest' where
  text_eq := by
    rw [h.text_eq, List.flatMap_append, List.append_assoc, List.append_assoc, ← h'.text_eq]
  closed := by
    intro frame hframe
    rcases List.mem_append.mp hframe with hframe | hframe
    · exact h.closed frame hframe
    · exact h'.closed frame hframe
  unfinished := h'.unfinished

lemma append_cons_inj {a b s t : List α} (ha : sep ∉ a) (hb : sep ∉ b)
    (h : a ++ sep :: s = b ++ sep :: t) : a = b ∧ s = t := by
  induction a generalizing b with
  | nil =>
    cases b with
    | nil => exact ⟨rfl, List.tail_eq_of_cons_eq h⟩
    | cons x b =>
      cases h
      exact absurd List.mem_cons_self hb
  | cons x a ih =>
    cases b with
    | nil =>
      cases h
      exact absurd List.mem_cons_self ha
    | cons y b =>
      obtain ⟨rfl, htail⟩ := List.cons_eq_cons.mp h
      obtain ⟨rfl, rfl⟩ :=
        ih (List.not_mem_of_not_mem_cons ha) (List.not_mem_of_not_mem_cons hb) htail
      exact ⟨rfl, rfl⟩

/-- There is one way to cut a text. -/
lemma Framed.unique (h : Framed sep s frames rest) (h' : Framed sep s frames' rest') :
    frames = frames' ∧ rest = rest' := by
  induction frames generalizing s frames' with
  | nil =>
    obtain rfl : s = rest := h.text_eq
    cases frames' with
    | nil => exact ⟨rfl, h'.text_eq⟩
    | cons frame frames' => exact absurd (by simp [h'.text_eq]) h.unfinished
  | cons frame frames ih =>
    cases frames' with
    | nil =>
      obtain rfl : s = rest' := h'.text_eq
      exact absurd (by simp [h.text_eq]) h'.unfinished
    | cons frame' frames' =>
      obtain ⟨hframe, hframes⟩ := List.forall_mem_cons.mp h.closed
      obtain ⟨hframe', hframes'⟩ := List.forall_mem_cons.mp h'.closed
      have htext := h.text_eq.symm.trans h'.text_eq
      simp only [List.flatMap_cons, List.append_assoc, List.singleton_append] at htext
      obtain ⟨rfl, hrest⟩ := append_cons_inj hframe hframe' htext
      obtain ⟨rfl, rfl⟩ := ih ⟨rfl, hframes, h.unfinished⟩ ⟨hrest, hframes', h'.unfinished⟩
      exact ⟨rfl, rfl⟩

end

/-! ### Cutting -/

variable [BEq α]

/-- The frames of a text, and its rest. -/
def cut (s : List α) : List (List α) × List α :=
  ((s.splitOn sep).dropLast, (s.splitOn sep).getLast?.getD [])

variable {sep}

lemma cut_of_splitOn {s rest : List α} {frames : List (List α)}
    (h : s.splitOn sep = frames ++ [rest]) : cut sep s = (frames, rest) := by
  simp [cut, h]

variable [LawfulBEq α]

lemma exists_splitOn (s : List α) :
    ∃ frames rest, s.splitOn sep = frames ++ [rest] ∧ Framed sep s frames rest := by
  induction s with
  | nil => exact ⟨[], [], rfl, framed_nil⟩
  | cons c s ih =>
    obtain ⟨frames, rest, hs, hframed⟩ := ih
    rw [List.splitOn, List.splitOnP_cons_eq_if_modifyHead, ← List.splitOn, hs]
    split_ifs with hc
    · obtain rfl : c = sep := eq_of_beq hc
      exact ⟨[] :: frames, rest, rfl, hframed.close⟩
    · have hne : c ≠ sep := by simpa using hc
      cases frames with
      | nil => exact ⟨[], c :: rest, rfl, hframed.extend_rest hne⟩
      | cons frame frames => exact ⟨(c :: frame) :: frames, rest, rfl, hframed.extend hne⟩

variable (sep) in
lemma framed_cut (s : List α) : Framed sep s (cut sep s).1 (cut sep s).2 := by
  obtain ⟨frames, rest, hs, hframed⟩ := @exists_splitOn _ sep _ _ s
  rw [cut_of_splitOn hs]
  exact hframed

lemma Framed.cut_eq {s rest : List α} {frames : List (List α)} (h : Framed sep s frames rest) :
    cut sep s = (frames, rest) := by
  obtain ⟨hframes, hrest⟩ := (framed_cut sep s).unique h
  exact Prod.ext hframes hrest

variable (sep) in
/-- A second piece is cut after the rest of the first. -/
lemma cut_append (s t : List α) : cut sep (s ++ t) =
    ((cut sep s).1 ++ (cut sep ((cut sep s).2 ++ t)).1, (cut sep ((cut sep s).2 ++ t)).2) :=
  ((framed_cut sep s).append (framed_cut sep _)).cut_eq

/-- Without a separator there is no frame. -/
lemma cut_of_not_mem {s : List α} (h : sep ∉ s) : cut sep s = ([], s) :=
  Framed.cut_eq ⟨rfl, by simp, h⟩

end ModelDispatcher.Lib.Framing
