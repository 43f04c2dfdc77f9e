import Mathlib.Data.List.TakeWhile
import ModelDispatcher.Lib.Text

/-!
A backtracking matcher for the fragment of Python's `re` whose repetitions are greedy runs of
one character class. A match is the list of all ways to match in the order the engine tries
them, so the first one is the match `re` reports.
-/

namespace ModelDispatcher.Lib.Regex

open Text

inductive Re
  /-- One character of a class. -/
  | chr (p : PyChar → Bool)
  | seq (r s : Re)
  /-- The first pattern, or else the second. -/
  | alt (r s : Re)
  /-- A greedy run of a class, of a length between two bounds. -/
  | many (p : PyChar → Bool) (least : ℕ) (most : Option ℕ)
  /-- `(?:r)?`, greedy. -/
  | opt (r : Re)
  /-- The capturing group of a number. -/
  | group (n : ℕ) (r : Re)

/-- The groups captured so far, the latest first. -/
abbrev Captures := List (ℕ × PyStr)

/-- `match.group(n)`. -/
def Captures.get (c : Captures) (n : ℕ) : Option PyStr := (c.find? (·.1 = n)).map Prod.snd

/-- The lengths a greedy run may take, the longest first. -/
def runLengths (longest least : ℕ) : List ℕ :=
  (List.range (longest + 1 - least)).map (longest - ·)

/-- All matches at the start of the text, each with the text left over. -/
def Re.matches : Re → PyStr → Captures → List (PyStr × Captures)
  | .chr p, s, c =>
    match s with
    | x :: rest => if p x then [(rest, c)] else []
    | [] => []
  | .seq r t, s, c => (r.matches s c).flatMap fun m => t.matches m.1 m.2
  | .alt r t, s, c => r.matches s c ++ t.matches s c
  | .many p least most, s, c =>
    let run := (s.takeWhile p).length
    let longest := match most with
      | some n => Nat.min run n
      | none => run
    (runLengths longest least).map fun k => (s.drop k, c)
  | .opt r, s, c => r.matches s c ++ [(s, c)]
  | .group n r, s, c =>
    (r.matches s c).map fun m => (m.1, (n, s.take (s.length - m.1.length)) :: m.2)

/-- `re.search`: the groups of the first match at the leftmost position that has one. -/
def Re.search (r : Re) : PyStr → Option Captures
  | [] => ((r.matches [] []).head?).map Prod.snd
  | x :: s =>
    match r.matches (x :: s) [] with
    | m :: _ => some m.2
    | [] => r.search s

/-! ### Character classes -/

/-- A literal letter under `re.IGNORECASE`: `i` also matches its dotted capital and dotless
forms, `k` the Kelvin sign and `s` the long s. -/
def ignoreCase (c : Char) (x : PyChar) : Bool :=
  match x with
  | .scalar d =>
    d.toLower = c.toLower || (c = 'i' && (d.toNat = 0x130 || d.toNat = 0x131)) ||
      (c = 'k' && d.toNat = 0x212A) || (c = 's' && d.toNat = 0x17F)
  | .surrogate _ => false

/-- A literal text under `re.IGNORECASE`, followed by a pattern. -/
def literalThen (s : List Char) (r : Re) : Re := s.foldr (fun c r => .seq (.chr (ignoreCase c)) r) r

/-- The empty pattern. -/
def empty : Re := .many (fun _ => false) 0 none

/-- A literal text under `re.IGNORECASE`. -/
def literal (s : List Char) : Re := literalThen s empty

/-- A literal text, followed by a pattern. -/
def exactlyThen (s : PyStr) (r : Re) : Re := s.foldr (fun c r => .seq (.chr (· = c)) r) r

def digits : Re := .many PyChar.isDigit 1 none
def blanks (least : ℕ) : Re := .many PyChar.isSpace least none

/-- `.`: any character but a newline. -/
def anyChar (x : PyChar) : Bool := x ≠ .scalar '\n'

def isDigitOrDot (x : PyChar) : Bool := x.isDigit || x = .scalar '.'

/-! ### The language of a pattern -/

/-- The texts a pattern matches, whatever is captured. -/
def Re.Lang : Re → PyStr → Prop
  | .chr p, w => ∃ x, w = [x] ∧ p x
  | .seq r t, w => ∃ u v, w = u ++ v ∧ r.Lang u ∧ t.Lang v
  | .alt r t, w => r.Lang w ∨ t.Lang w
  | .many p least most, w => (∀ x ∈ w, p x) ∧ least ≤ w.length ∧ ∀ n ∈ most, w.length ≤ n
  | .opt r, w => r.Lang w ∨ w = []
  | .group _ r, w => r.Lang w

lemma mem_runLengths_iff {longest least k : ℕ} :
    k ∈ runLengths longest least ↔ least ≤ k ∧ k ≤ longest := by
  rw [runLengths, List.mem_map]
  constructor
  · rintro ⟨i, hi, rfl⟩
    have := List.mem_range.mp hi
    omega
  · rintro ⟨hleast, hlongest⟩
    exact ⟨longest - k, List.mem_range.mpr (by omega), by omega⟩

lemma runLengths_eq_cons {longest least : ℕ} (h : least ≤ longest) :
    ∃ ks, runLengths longest least = longest :: ks := by
  obtain ⟨k, hk⟩ : ∃ k, longest + 1 - least = k + 1 := ⟨longest - least, by omega⟩
  refine ⟨((List.range k).map Nat.succ).map (longest - ·), ?_⟩
  rw [runLengths, hk, List.range_succ_eq_map]
  rfl

/-- A greedy run takes characters of its class, as many as its bounds allow. -/
lemma mem_many_iff {p : PyChar → Bool} {least : ℕ} {most : Option ℕ} {s : PyStr} {c : Captures}
    {m : PyStr × Captures} : m ∈ (Re.many p least most).matches s c ↔
      ∃ k, least ≤ k ∧ k ≤ (s.takeWhile p).length ∧ (∀ n ∈ most, k ≤ n) ∧ m = (s.drop k, c) := by
  cases most with
  | none =>
    simp only [Re.matches, List.mem_map, mem_runLengths_iff]
    constructor
    · rintro ⟨k, ⟨hleast, hrun⟩, rfl⟩
      exact ⟨k, hleast, hrun, by simp, rfl⟩
    · rintro ⟨k, hleast, hrun, -, rfl⟩
      exact ⟨k, ⟨hleast, hrun⟩, rfl⟩
  | some n =>
    simp only [Re.matches, List.mem_map, mem_runLengths_iff]
    constructor
    · rintro ⟨k, ⟨hleast, hrun⟩, rfl⟩
      obtain ⟨hrun, hn⟩ := Nat.le_min.mp hrun
      exact ⟨k, hleast, hrun, by simpa using hn, rfl⟩
    · rintro ⟨k, hleast, hrun, hn, rfl⟩
      exact ⟨k, ⟨hleast, Nat.le_min.mpr ⟨hrun, hn n rfl⟩⟩, rfl⟩

/-- What a match takes is a text of the language. -/
lemma lang_of_matches {r : Re} {s : PyStr} {c : Captures} {m : PyStr × Captures}
    (hm : m ∈ r.matches s c) : ∃ w, s = w ++ m.1 ∧ r.Lang w := by
  induction r generalizing s c m with
  | chr p =>
    cases s with
    | nil => simp [Re.matches] at hm
    | cons x rest =>
      simp only [Re.matches] at hm
      split_ifs at hm with hx
      · rw [List.mem_singleton.mp hm]
        exact ⟨[x], rfl, x, rfl, hx⟩
      · simp at hm
  | seq r t ihr iht =>
    obtain ⟨m', hm', hm⟩ := List.mem_flatMap.mp hm
    obtain ⟨u, hs, hu⟩ := ihr hm'
    obtain ⟨v, hv, hlang⟩ := iht hm
    exact ⟨u ++ v, by rw [hs, hv, List.append_assoc], u, v, rfl, hu, hlang⟩
  | alt r t ihr iht =>
    rcases List.mem_append.mp hm with hm | hm
    · obtain ⟨w, hw, hlang⟩ := ihr hm
      exact ⟨w, hw, .inl hlang⟩
    · obtain ⟨w, hw, hlang⟩ := iht hm
      exact ⟨w, hw, .inr hlang⟩
  | many p least most =>
    obtain ⟨k, hleast, hrun, hmost, rfl⟩ := mem_many_iff.mp hm
    have hk : s.take k = (s.takeWhile p).take k := by
      conv_rhs =>
        rw [List.prefix_iff_eq_take.mp (List.takeWhile_prefix p), List.take_take,
          Nat.min_eq_left hrun]
    have hlen : (s.take k).length = k := by
      rw [hk, List.length_take, Nat.min_eq_left hrun]
    refine ⟨s.take k, (List.take_append_drop k s).symm, fun x hx => ?_, ?_, ?_⟩
    · rw [hk] at hx
      exact List.mem_takeWhile_imp (List.mem_of_mem_take hx)
    · rw [hlen]
      exact hleast
    · rw [hlen]
      exact hmost
  | opt r ih =>
    rcases List.mem_append.mp hm with hm | hm
    · obtain ⟨w, hw, hlang⟩ := ih hm
      exact ⟨w, hw, .inl hlang⟩
    · rw [List.mem_singleton.mp hm]
      exact ⟨[], rfl, .inr rfl⟩
  | group n r ih =>
    obtain ⟨m', hm', rfl⟩ := List.mem_map.mp hm
    obtain ⟨w, hw, hlang⟩ := ih hm'
    exact ⟨w, hw, hlang⟩

/-- Every text of the language is matched, whatever follows it. -/
lemma matches_of_lang {r : Re} {w : PyStr} (h : r.Lang w) (rest : PyStr) (c : Captures) :
    ∃ c', (rest, c') ∈ r.matches (w ++ rest) c := by
  induction r generalizing w rest c with
  | chr p =>
    obtain ⟨x, rfl, hx⟩ := h
    exact ⟨c, by simp [Re.matches, hx]⟩
  | seq r t ihr iht =>
    obtain ⟨u, v, rfl, hu, hv⟩ := h
    obtain ⟨c₁, h₁⟩ := ihr hu (v ++ rest) c
    obtain ⟨c₂, h₂⟩ := iht hv rest c₁
    refine ⟨c₂, List.mem_flatMap.mpr ⟨(v ++ rest, c₁), ?_, h₂⟩⟩
    rw [List.append_assoc]
    exact h₁
  | alt r t ihr iht =>
    rcases h with h | h
    · obtain ⟨c', h'⟩ := ihr h rest c
      exact ⟨c', List.mem_append_left _ h'⟩
    · obtain ⟨c', h'⟩ := iht h rest c
      exact ⟨c', List.mem_append_right _ h'⟩
  | many p least most =>
    obtain ⟨hall, hleast, hmost⟩ := h
    refine ⟨c, mem_many_iff.mpr ⟨w.length, hleast, ?_, hmost, by rw [List.drop_left]⟩⟩
    rw [List.takeWhile_append_of_pos hall, List.length_append]
    exact Nat.le_add_right _ _
  | opt r ih =>
    rcases h with h | rfl
    · obtain ⟨c', h'⟩ := ih h rest c
      exact ⟨c', List.mem_append_left _ h'⟩
    · exact ⟨c, List.mem_append_right _ (List.mem_singleton.mpr rfl)⟩
  | group n r ih =>
    obtain ⟨c', h'⟩ := ih h rest c
    exact ⟨_, List.mem_map.mpr ⟨_, h', rfl⟩⟩

/-- A search succeeds if and only if a text of the language is a part of the text. -/
lemma isSome_search_iff {r : Re} {s : PyStr} : (r.search s).isSome ↔ ∃ w, w <:+: s ∧ r.Lang w := by
  induction s with
  | nil =>
    rw [Re.search, Option.isSome_map]
    constructor
    · intro h
      obtain ⟨m, hm⟩ := Option.isSome_iff_exists.mp h
      obtain ⟨w, hw, hlang⟩ := lang_of_matches (List.mem_of_mem_head? hm)
      exact ⟨w, ⟨[], m.1, hw.symm⟩, hlang⟩
    · rintro ⟨w, hw, hlang⟩
      obtain rfl := List.eq_nil_of_infix_nil hw
      obtain ⟨c', h'⟩ := matches_of_lang hlang [] []
      rw [List.isSome_head?]
      exact List.ne_nil_of_mem h'
  | cons x s ih =>
    rw [Re.search]
    split
    · next m ms hm =>
      obtain ⟨w, hw, hlang⟩ := lang_of_matches (hm ▸ List.mem_cons_self : m ∈ r.matches (x :: s) [])
      exact iff_of_true rfl ⟨w, ⟨[], m.1, hw.symm⟩, hlang⟩
    · next hm =>
      rw [ih]
      refine exists_congr fun w => and_congr_left fun hlang => ?_
      rw [List.infix_cons_iff]
      refine (or_iff_right ?_).symm
      rintro ⟨rest, hw⟩
      obtain ⟨c', h'⟩ := matches_of_lang hlang rest []
      rw [hw, hm] at h'
      cases h'

/-! ### What the groups capture -/

/-- An unbounded run takes characters of its class only, and enough of them. -/
lemma many_takes {p : PyChar → Bool} {least : ℕ} {s : PyStr} {c : Captures}
    {m : PyStr × Captures} (h : m ∈ (Re.many p least none).matches s c) :
    least ≤ (s.take (s.length - m.1.length)).length ∧
      ∀ x ∈ s.take (s.length - m.1.length), p x := by
  obtain ⟨k, hk, rfl⟩ := List.mem_map.mp h
  obtain ⟨hleast, hrun⟩ := mem_runLengths_iff.mp hk
  change k ≤ (s.takeWhile p).length at hrun
  have hlen : (s.takeWhile p).length ≤ s.length := (List.takeWhile_prefix p).length_le
  have htake : s.take (s.length - (s.drop k).length) = (s.takeWhile p).take k := by
    rw [List.length_drop, Nat.sub_sub_self (Nat.le_trans hrun hlen)]
    conv_rhs =>
      rw [List.prefix_iff_eq_take.mp (List.takeWhile_prefix p), List.take_take,
        Nat.min_eq_left hrun]
  rw [htake]
  refine ⟨by rw [List.length_take]; omega, fun x hx => ?_⟩
  exact List.mem_takeWhile_imp (List.mem_of_mem_take hx)

/-- Every group of the pattern matches only texts of its predicate. -/
def Re.GroupsAre (P : ℕ → PyStr → Prop) : Re → Prop
  | .chr _ => True
  | .seq r t => r.GroupsAre P ∧ t.GroupsAre P
  | .alt r t => r.GroupsAre P ∧ t.GroupsAre P
  | .many .. => True
  | .opt r => r.GroupsAre P
  | .group n r => r.GroupsAre P ∧ ∀ s c, ∀ m ∈ r.matches s c, P n (s.take (s.length - m.1.length))

lemma groupsAre_literalThen {P : ℕ → PyStr → Prop} {r : Re} (h : r.GroupsAre P)
    (cs : List Char) : (literalThen cs r).GroupsAre P := by
  induction cs with
  | nil => exact h
  | cons c cs ih => exact ⟨trivial, ih⟩

lemma captures_of_matches {P : ℕ → PyStr → Prop} {r : Re} (h : r.GroupsAre P) {s : PyStr}
    {c : Captures} (hc : ∀ g ∈ c, P g.1 g.2) {m : PyStr × Captures} (hm : m ∈ r.matches s c) :
    ∀ g ∈ m.2, P g.1 g.2 := by
  induction r generalizing s c m with
  | chr p =>
    cases s with
    | nil => simp [Re.matches] at hm
    | cons x rest =>
      simp only [Re.matches] at hm
      split_ifs at hm
      · rw [List.mem_singleton.mp hm]; exact hc
      · simp at hm
  | seq r t ihr iht =>
    obtain ⟨m', hm', hm⟩ := List.mem_flatMap.mp hm
    exact iht h.2 (ihr h.1 hc hm') hm
  | alt r t ihr iht =>
    rcases List.mem_append.mp hm with hm | hm
    · exact ihr h.1 hc hm
    · exact iht h.2 hc hm
  | many p least most =>
    obtain ⟨k, -, rfl⟩ := List.mem_map.mp hm
    exact hc
  | opt r ih =>
    rcases List.mem_append.mp hm with hm | hm
    · exact ih h hc hm
    · rw [List.mem_singleton.mp hm]; exact hc
  | group n r ih =>
    obtain ⟨m', hm', rfl⟩ := List.mem_map.mp hm
    intro g hg
    rcases List.mem_cons.mp hg with rfl | hg
    · exact h.2 s c m' hm'
    · exact ih h.1 hc hm' g hg

/-- What a search captures. -/
lemma captures_of_search {P : ℕ → PyStr → Prop} {r : Re} (h : r.GroupsAre P) {s : PyStr}
    {c : Captures} (hc : r.search s = some c) {n : ℕ} {t : PyStr} (ht : c.get n = some t) :
    P n t := by
  have hall : ∀ g ∈ c, P g.1 g.2 := by
    clear ht
    induction s with
    | nil =>
      obtain ⟨m, hm, rfl⟩ := Option.map_eq_some_iff.mp hc
      exact captures_of_matches h (by simp) (List.mem_of_mem_head? hm)
    | cons x s ih =>
      rw [Re.search] at hc
      split at hc
      · rename_i m _ hm
        cases hc
        exact captures_of_matches h (by simp) (hm ▸ List.mem_cons_self)
      · exact ih hc
  obtain ⟨g, hg, rfl⟩ := Option.map_eq_some_iff.mp ht
  have hn : g.1 = n := of_decide_eq_true (List.find?_some hg :)
  exact hn ▸ hall g (List.mem_of_find?_eq_some hg)

end ModelDispatcher.Lib.Regex
