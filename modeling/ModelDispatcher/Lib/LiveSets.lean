import Mathlib.Data.List.Nodup
import Mathlib.Data.List.ReduceOption

/-!
Sets that keep the order of insertion, like those of JavaScript, and traversals that see what is
added and deleted while they run.

A deleted entry leaves a hole, so the place of an entry never changes. `round` visits the entries
that were there when it began; a traversal does the same and then goes on to the new ones.
-/

namespace ModelDispatcher.Lib.LiveSets

variable {α : Type} [DecidableEq α]

/-- The entries in order of insertion, with a hole for each that was deleted. -/
structure LiveSet (α : Type) where
  entries : List (Option α)
  nodup : entries.reduceOption.Nodup

namespace LiveSet

def members (s : LiveSet α) : List α := s.entries.reduceOption

def empty : LiveSet α := ⟨[], List.nodup_nil⟩

/-- `add`: a member keeps its place. -/
def add (s : LiveSet α) (a : α) : LiveSet α :=
  if h : some a ∈ s.entries then s
  else {
    entries := s.entries ++ [some a]
    nodup := by
      rw [List.reduceOption_append]
      refine List.nodup_append_comm.mp (List.nodup_cons.mpr ⟨?_, s.nodup⟩)
      exact fun hmem => h (List.reduceOption_mem_iff.mp hmem) }

/-- A hole in place of every entry of a kind. -/
def punch (s : LiveSet α) (p : α → Bool) : LiveSet α where
  entries := s.entries.map (·.filter fun a => !p a)
  nodup := by
    have hmembers : (s.entries.map (·.filter fun a => !p a)).reduceOption =
        s.entries.reduceOption.filter fun a => !p a := by
      induction s.entries with
      | nil => rfl
      | cons e entries ih =>
        cases e with
        | none => simpa using ih
        | some a => cases ha : p a <;> simpa [Option.filter, ha] using ih
    rw [hmembers]
    exact s.nodup.filter _

/-- `delete`. -/
def delete (s : LiveSet α) (a : α) : LiveSet α := s.punch (· = a)

/-- `clear`. -/
def clear (s : LiveSet α) : LiveSet α := s.punch fun _ => true

end LiveSet

/-! ### Sets over time -/

/-- Each entry of the first set has kept its place, or has left a hole there. -/
structure Later (s t : LiveSet α) : Prop where
  length_le : s.entries.length ≤ t.entries.length
  kept : ∀ i < s.entries.length, t.entries[i]? = s.entries[i]? ∨ t.entries[i]? = some none

section

variable {s t u : LiveSet α}

omit [DecidableEq α] in
lemma Later.refl (s : LiveSet α) : Later s s := ⟨Nat.le_refl _, fun _ _ => .inl rfl⟩

omit [DecidableEq α] in
lemma Later.trans (h : Later s t) (h' : Later t u) : Later s u where
  length_le := Nat.le_trans h.length_le h'.length_le
  kept := by
    intro i hi
    rcases h'.kept i (Nat.lt_of_lt_of_le hi h.length_le) with heq | hhole
    · rw [heq]
      exact h.kept i hi
    · exact .inr hhole

lemma later_add (s : LiveSet α) (a : α) : Later s (s.add a) := by
  unfold LiveSet.add
  split_ifs with hmem
  · exact .refl s
  · exact ⟨by simp, fun i hi => .inl (List.getElem?_append_left hi)⟩

omit [DecidableEq α] in
lemma later_punch (s : LiveSet α) (p : α → Bool) : Later s (s.punch p) where
  length_le := by simp [LiveSet.punch]
  kept := by
    intro i hi
    have hentry : (s.punch p).entries[i]? = (s.entries[i]?).map (·.filter fun a => !p a) :=
      List.getElem?_map
    rw [hentry, List.getElem?_eq_getElem hi]
    cases s.entries[i] with
    | none => exact .inl rfl
    | some a => cases ha : p a <;> simp [Option.filter, ha]

end

/-! ### Traversals -/

section

variable {σ ε : Type} (set : σ → LiveSet α) (visit : α → σ → σ × Option ε)

/-- On with a state, unless an exception was thrown. -/
def andThen (r : σ × Option ε) (next : σ → Option (σ × Option ε)) : Option (σ × Option ε) :=
  match r with
  | (s, none) => next s
  | (s, some e) => some (s, some e)

/-- `for (const a of set) visit(a)`, from the entry of an index on; `none` where the fuel did not
suffice. -/
def traverse : ℕ → ℕ → σ → Option (σ × Option ε)
  | 0, _, _ => none
  | fuel + 1, i, s =>
    match (set s).entries[i]? with
    | none => some (s, none)
    | some none => traverse fuel (i + 1) s
    | some (some a) => andThen (visit a s) (traverse fuel (i + 1))

/-- The visits to a number of entries from the one of an index on, each if it is still there. -/
def round : ℕ → ℕ → σ → σ × Option ε
  | 0, _, s => (s, none)
  | n + 1, i, s =>
    match (set s).entries[i]? with
    | none | some none => round n (i + 1) s
    | some (some a) =>
      match visit a s with
      | (s, none) => round n (i + 1) s
      | (s, some e) => (s, some e)

/-- No entry from the `n`-th on is left. -/
def NoneFrom (s : LiveSet α) (n : ℕ) : Prop := ∀ a, some a ∉ s.entries.drop n

end

section

variable {σ ε : Type} {set : σ → LiveSet α} {visit : α → σ → σ × Option ε}

omit [DecidableEq α]

lemma traverse_mono {r : σ × Option ε} (k : ℕ) {fuel : ℕ} : ∀ {i : ℕ} {s : σ},
    traverse set visit fuel i s = some r → traverse set visit (fuel + k) i s = some r := by
  induction fuel with
  | zero => exact fun h => nomatch h
  | succ fuel ih =>
    intro i s h
    rw [Nat.succ_add]
    unfold traverse at h ⊢
    split at h
    · exact h
    · exact ih h
    · rename_i a _
      generalize visit a s = out at h ⊢
      rcases out with ⟨t, - | e⟩
      · exact ih h
      · exact h

/-- Past the entries that were left there is only the end. -/
lemma traverse_of_holes {k : ℕ} : ∀ {i : ℕ} {s : σ},
    (set s).entries.drop i = List.replicate k none →
      traverse set visit (k + 1) i s = some (s, none) := by
  induction k with
  | zero =>
    intro i s h
    have hend : (set s).entries[i]? = none := by
      rw [List.getElem?_eq_none_iff]
      exact List.drop_eq_nil_iff.mp h
    rw [LiveSets.traverse, hend]
  | succ k ih =>
    intro i s h
    have hhole : (set s).entries[i]? = some none := by
      rw [← List.head?_drop, h]
      rfl
    rw [LiveSets.traverse, hhole]
    refine ih ?_
    rw [← List.tail_drop, h]
    rfl

lemma traverse_of_noneFrom {s : σ} {n : ℕ} (h : NoneFrom (set s) n) :
    ∃ fuel, traverse set visit fuel n s = some (s, none) := by
  have hholes : (set s).entries.drop n =
      List.replicate ((set s).entries.drop n).length none := by
    refine List.eq_replicate_iff.mpr ⟨rfl, fun e he => ?_⟩
    cases e with
    | none => rfl
    | some a => exact absurd he (h a)
  exact ⟨_, traverse_of_holes hholes⟩

/-- A traversal comes to an end exactly when, after some of its rounds, an exception has been thrown
or nobody is left who has not been visited. Both inductions are on the rounds. -/
lemma traverse_ends_iff {i : ℕ} {s : σ} :
    (∃ fuel r, traverse set visit fuel i s = some r) ↔
      ∃ n, (round set visit n i s).2 ≠ none ∨
        NoneFrom (set (round set visit n i s).1) (i + n) := by
  constructor
  · rintro ⟨fuel, r, h⟩
    induction fuel generalizing i s with
    | zero => cases h
    | succ fuel ih =>
      unfold traverse at h
      split at h
      · rename_i hend
        refine ⟨0, .inr fun a hmem => ?_⟩
        rw [Nat.add_zero, round,
          List.drop_eq_nil_iff.mpr (List.getElem?_eq_none_iff.mp hend)] at hmem
        cases hmem
      · rename_i hhole
        obtain ⟨n, hn⟩ := ih h
        refine ⟨n + 1, ?_⟩
        rw [round, hhole, ← Nat.add_assoc, Nat.add_right_comm]
        exact hn
      · rename_i a hentry
        cases hvisit : visit a s with
        | mk t thrown =>
          rw [hvisit] at h
          cases thrown with
          | some e => exact ⟨1, .inl (by rw [round, hentry]; simp [hvisit])⟩
          | none =>
            obtain ⟨n, hn⟩ := ih h
            refine ⟨n + 1, ?_⟩
            rw [round, hentry]
            dsimp only
            rw [hvisit, ← Nat.add_assoc, Nat.add_right_comm]
            exact hn
  · rintro ⟨n, hn⟩
    induction n generalizing i s with
    | zero =>
      rcases hn with hn | hn
      · exact absurd rfl hn
      · obtain ⟨fuel, hfuel⟩ := traverse_of_noneFrom hn
        exact ⟨fuel, _, hfuel⟩
    | succ n ih =>
      rw [round, ← Nat.add_assoc, Nat.add_right_comm] at hn
      cases hentry : (set s).entries[i]? with
      | none => exact ⟨1, (s, none), by rw [LiveSets.traverse, hentry]⟩
      | some entry =>
        rw [hentry] at hn
        cases entry with
        | none =>
          obtain ⟨fuel, r, hrun⟩ := ih hn
          exact ⟨fuel + 1, r, by rw [LiveSets.traverse, hentry]; exact hrun⟩
        | some a =>
          dsimp only at hn
          cases hvisit : visit a s with
          | mk t thrown =>
            rw [hvisit] at hn
            cases thrown with
            | some e =>
              refine ⟨1, (t, some e), ?_⟩
              rw [LiveSets.traverse, hentry]
              dsimp only
              rw [hvisit]
              rfl
            | none =>
              obtain ⟨fuel, r, hrun⟩ := ih hn
              refine ⟨fuel + 1, r, ?_⟩
              rw [LiveSets.traverse, hentry]
              dsimp only
              rw [hvisit]
              exact hrun

/-- What every visit keeps, a round keeps. -/
lemma round_rule {Q : σ × Option ε → Prop} (hvisit : ∀ a s, Q (s, none) → Q (visit a s)) (n : ℕ) :
    ∀ {i : ℕ} {s : σ}, Q (s, none) → Q (round set visit n i s) := by
  induction n with
  | zero => exact fun h => h
  | succ n ih =>
    intro i s h
    unfold round
    split
    · exact ih h
    · exact ih h
    · rename_i a _
      have hafter := hvisit a s h
      generalize visit a s = out at hafter ⊢
      rcases out with ⟨t, - | e⟩
      · exact ih hafter
      · exact hafter

/-- What every visit keeps, a traversal that ends keeps. -/
lemma traverse_rule {Q : σ × Option ε → Prop} (hvisit : ∀ a s, Q (s, none) → Q (visit a s))
    {r : σ × Option ε} {fuel : ℕ} : ∀ {i : ℕ} {s : σ},
      traverse set visit fuel i s = some r → Q (s, none) → Q r := by
  induction fuel with
  | zero => exact fun h => nomatch h
  | succ fuel ih =>
    intro i s h hs
    unfold traverse at h
    split at h
    · cases h
      exact hs
    · exact ih h hs
    · rename_i a _
      have hafter := hvisit a s hs
      generalize visit a s = out at h hafter
      rcases out with ⟨t, - | e⟩
      · exact ih h hafter
      · cases h
        exact hafter

/-- Visits that add nothing leave as many entries as there were. -/
lemma length_round (hlen : ∀ a s, (set (visit a s).1).entries.length = (set s).entries.length)
    (n i : ℕ) (s : σ) :
    (set (round set visit n i s).1).entries.length = (set s).entries.length :=
  round_rule (Q := fun r => (set r.1).entries.length = (set s).entries.length)
    (fun a t ht => (hlen a t).trans ht) n rfl

lemma round_returns (hreturns : ∀ a s, (visit a s).2 = none) (n i : ℕ) (s : σ) :
    (round set visit n i s).2 = none :=
  round_rule (Q := fun r => r.2 = none) (fun a t _ => hreturns a t) n rfl

/-- A traversal begins with the round of the entries that are there. -/
lemma traverse_round (hlater : ∀ a s, Later (set s) (set (visit a s).1)) (fuel n : ℕ) :
    ∀ {i : ℕ} {s : σ}, i + n ≤ (set s).entries.length →
    traverse set visit (n + fuel) i s =
      andThen (round set visit n i s) (traverse set visit fuel (i + n)) := by
  induction n with
  | zero =>
    intro i s _
    rw [Nat.zero_add]
    rfl
  | succ n ih =>
    intro i s hlen
    have hnext : ∀ t : σ, (set s).entries.length ≤ (set t).entries.length →
        traverse set visit (n + fuel) (i + 1) t =
          andThen (round set visit n (i + 1) t) (traverse set visit fuel (i + (n + 1))) := by
      intro t ht
      rw [ih (by omega), Nat.add_right_comm i 1 n, Nat.add_assoc]
    rw [Nat.succ_add]
    unfold traverse round
    cases hentry : (set s).entries[i]? with
    | none =>
      rw [List.getElem?_eq_none_iff] at hentry
      omega
    | some e =>
      cases e with
      | none => exact hnext s (Nat.le_refl _)
      | some a =>
        have hvisit := (hlater a s).length_le
        dsimp only
        generalize visit a s = out at hvisit ⊢
        rcases out with ⟨t, - | e⟩
        · exact hnext t hvisit
        · rfl

/-! ### What is visited -/

section

variable {called : σ → List α} (hcalled : ∀ a s, called (visit a s).1 = called s ++ [a])
include hcalled

lemma called_traverse {r : σ × Option ε} {fuel i : ℕ} {s : σ}
    (h : traverse set visit fuel i s = some r) : called s <+: called r.1 := by
  refine traverse_rule (Q := fun r => called s <+: called r.1) (fun a t ht => ?_) h List.prefix_rfl
  exact ht.trans (hcalled a t ▸ List.prefix_append _ _)

/-- A traversal visits an entry that is there. -/
lemma called_traverse_ne {r : σ × Option ε} {fuel : ℕ} : ∀ {i : ℕ} {s : σ},
    traverse set visit fuel i s = some r → ¬ NoneFrom (set s) i → called r.1 ≠ called s := by
  induction fuel with
  | zero => exact fun h => nomatch h
  | succ fuel ih =>
    intro i s h hlive
    unfold traverse at h
    split at h
    · rename_i hend
      refine absurd (fun a hmem => ?_) hlive
      rw [List.drop_eq_nil_iff.mpr (List.getElem?_eq_none_iff.mp hend)] at hmem
      cases hmem
    · rename_i hhole
      obtain ⟨hi, hnone⟩ := List.getElem?_eq_some_iff.mp hhole
      refine ih h fun hrest => hlive fun a hmem => hrest a ?_
      rw [List.drop_eq_getElem_cons hi, hnone] at hmem
      simpa using hmem
    · rename_i a _
      have hvisit := hcalled a s
      have hne : ∀ t : σ, called t = called s ++ [a] → called t <+: called r.1 →
          called r.1 ≠ called s := by
        intro t ht hprefix heq
        have hlen := hprefix.length_le
        rw [ht, heq, List.length_append, List.length_singleton] at hlen
        omega
      generalize visit a s = out at h hvisit
      rcases out with ⟨t, - | e⟩
      · exact hne t hvisit (called_traverse hcalled h)
      · cases h
        exact hne t hvisit List.prefix_rfl

variable (hlater : ∀ a s, Later (set s) (set (visit a s).1))
include hlater

/-- What a round visits is entries of an earlier set, in their order. -/
lemma called_round {s₀ : LiveSet α} (n : ℕ) : ∀ {i : ℕ} {s : σ}, Later s₀ (set s) →
    i + n ≤ s₀.entries.length → ∃ visited, called (round set visit n i s).1 = called s ++ visited ∧
      visited.Sublist ((s₀.entries.drop i).take n).reduceOption := by
  induction n with
  | zero => exact fun _ _ => ⟨[], by simp [round], by simp⟩
  | succ n ih =>
    intro i s hs hlen
    have hi : i < s₀.entries.length := by omega
    have hcons : (s₀.entries.drop i).take (n + 1) =
        s₀.entries[i] :: (s₀.entries.drop (i + 1)).take n := by
      rw [List.drop_eq_getElem_cons hi, List.take_succ_cons]
    have hskip : ((s₀.entries.drop (i + 1)).take n).reduceOption.Sublist
        ((s₀.entries.drop i).take (n + 1)).reduceOption := by
      rw [hcons]
      exact (List.sublist_cons_self _ _).filterMap id
    unfold round
    split
    · obtain ⟨visited, heq, hsub⟩ := ih hs (by omega : i + 1 + n ≤ s₀.entries.length)
      exact ⟨visited, heq, hsub.trans hskip⟩
    · obtain ⟨visited, heq, hsub⟩ := ih hs (by omega : i + 1 + n ≤ s₀.entries.length)
      exact ⟨visited, heq, hsub.trans hskip⟩
    · rename_i a hentry
      have hfirst : s₀.entries[i] = some a := by
        rcases hs.kept i hi with heq | hhole
        · rw [heq, List.getElem?_eq_getElem hi] at hentry
          exact Option.some.inj hentry
        · rw [hhole] at hentry
          cases hentry
      rw [hcons, hfirst, List.reduceOption_cons_of_some]
      have hvisit := hcalled a s
      have hafter := hs.trans (hlater a s)
      generalize visit a s = out at hvisit hafter ⊢
      rcases out with ⟨t, - | e⟩
      · obtain ⟨visited, heq, hsub⟩ := ih hafter (by omega : i + 1 + n ≤ s₀.entries.length)
        refine ⟨a :: visited, ?_, hsub.cons_cons a⟩
        rw [heq, hvisit, List.append_assoc, List.singleton_append]
      · exact ⟨[a], hvisit, (List.nil_sublist _).cons_cons a⟩

/-- A traversal ends normally after the visits of a round exactly where the round ends normally and
nothing that was added in it is left. -/
lemma traverse_agrees_iff (s : σ) :
    (∃ fuel t, traverse set visit fuel 0 s = some (t, none) ∧
      called t = called (round set visit (set s).entries.length 0 s).1) ↔
      (round set visit (set s).entries.length 0 s).2 = none ∧
        NoneFrom (set (round set visit (set s).entries.length 0 s).1) (set s).entries.length := by
  have hround : ∀ fuel, traverse set visit ((set s).entries.length + fuel) 0 s =
      andThen (round set visit (set s).entries.length 0 s)
        (traverse set visit fuel (set s).entries.length) := by
    intro fuel
    rw [traverse_round hlater fuel _ (by omega), Nat.zero_add]
  generalize round set visit (set s).entries.length 0 s = r at hround ⊢
  constructor
  · rintro ⟨fuel, t, ht, hcalls⟩
    have hrun := hround fuel
    rw [Nat.add_comm, traverse_mono _ ht] at hrun
    rcases r with ⟨r, - | e⟩
    · refine ⟨rfl, ?_⟩
      by_contra hlive
      exact called_traverse_ne hcalled hrun.symm hlive hcalls
    · cases hrun
  · rintro ⟨hreturns, hnone⟩
    obtain ⟨fuel, hfuel⟩ : ∃ fuel, traverse set visit fuel _ r.1 = some (r.1, none) :=
      traverse_of_noneFrom hnone
    rcases r with ⟨r, - | e⟩
    · exact ⟨_, r, (hround fuel).trans hfuel, rfl⟩
    · cases hreturns

end

end

end ModelDispatcher.Lib.LiveSets
