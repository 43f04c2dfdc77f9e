import Mathlib.Data.List.Nodup
import Mathlib.Tactic.Lemma

/-!
Python dictionaries: finite maps that remember the order in which their keys were first
inserted. Assigning to a present key keeps its place.
-/

namespace ModelDispatcher.Lib.Dicts

variable {κ ν : Type} [DecidableEq κ]

structure PyDict (κ ν : Type) where
  entries : List (κ × ν)
  nodup : (entries.map Prod.fst).Nodup

namespace PyDict

def empty : PyDict κ ν := ⟨[], List.nodup_nil⟩

instance : EmptyCollection (PyDict κ ν) := ⟨empty⟩

/-- `d.get(k)`. -/
def get? (d : PyDict κ ν) (k : κ) : Option ν := (d.entries.find? (·.1 = k)).map Prod.snd

/-- `d.values()`, in insertion order. -/
def values (d : PyDict κ ν) : List ν := d.entries.map Prod.snd

lemma mem_values_of_get? {d : PyDict κ ν} {k : κ} {v : ν} (h : d.get? k = some v) :
    v ∈ d.values := by
  obtain ⟨e, he, rfl⟩ := Option.map_eq_some_iff.mp h
  exact List.mem_map_of_mem (List.mem_of_find?_eq_some he)

/-- The entries after `d[k] = v`. -/
def setEntries (k : κ) (v : ν) : List (κ × ν) → List (κ × ν)
  | [] => [(k, v)]
  | (k', v') :: rest => if k' = k then (k, v) :: rest else (k', v') :: setEntries k v rest

lemma mem_keys_setEntries {k k' : κ} {v : ν} {es : List (κ × ν)} :
    k' ∈ (setEntries k v es).map Prod.fst ↔ k' = k ∨ k' ∈ es.map Prod.fst := by
  induction es with
  | nil => simp [setEntries]
  | cons e rest ih =>
    obtain ⟨k₀, v₀⟩ := e
    by_cases h : k₀ = k
    · subst h; simp [setEntries]
    · simp only [setEntries, if_neg h, List.map_cons, List.mem_cons, ih]
      tauto

/-- Assigning keeps the keys in their order, and appends a new one. -/
lemma keys_setEntries (k : κ) (v : ν) (es : List (κ × ν)) :
    (setEntries k v es).map Prod.fst =
      if k ∈ es.map Prod.fst then es.map Prod.fst else es.map Prod.fst ++ [k] := by
  induction es with
  | nil => simp [setEntries]
  | cons e rest ih =>
    by_cases hk : e.1 = k
    · simp [setEntries, hk]
    · have hk' : k ≠ e.1 := Ne.symm hk
      rw [setEntries, if_neg hk, List.map_cons, ih, List.map_cons]
      by_cases hmem : k ∈ rest.map Prod.fst
      · simp [hmem]
      · simp [hmem, hk']

lemma nodup_setEntries (k : κ) (v : ν) {es : List (κ × ν)} (h : (es.map Prod.fst).Nodup) :
    ((setEntries k v es).map Prod.fst).Nodup := by
  induction es with
  | nil => simp [setEntries]
  | cons e rest ih =>
    obtain ⟨k₀, v₀⟩ := e
    rw [List.map_cons, List.nodup_cons] at h
    by_cases hk : k₀ = k
    · subst hk
      simpa [setEntries] using h
    · simp only [setEntries, if_neg hk, List.map_cons, List.nodup_cons, mem_keys_setEntries]
      exact ⟨by rintro (h' | h') <;> [exact hk h'; exact h.1 h'], ih h.2⟩

/-- `d[k] = v`. -/
def set (d : PyDict κ ν) (k : κ) (v : ν) : PyDict κ ν :=
  ⟨setEntries k v d.entries, nodup_setEntries k v d.nodup⟩

@[simp] lemma get?_set_self (d : PyDict κ ν) (k : κ) (v : ν) : (d.set k v).get? k = some v := by
  obtain ⟨es, hes⟩ := d
  simp only [get?, set]
  clear hes
  induction es with
  | nil => simp [setEntries]
  | cons e rest ih =>
    by_cases h : e.1 = k
    · simp [setEntries, h]
    · simpa [setEntries, h] using ih

lemma get?_set_of_ne (d : PyDict κ ν) {k k' : κ} (h : k' ≠ k) (v : ν) :
    (d.set k v).get? k' = d.get? k' := by
  obtain ⟨es, hes⟩ := d
  simp only [get?, set]
  clear hes
  induction es with
  | nil => simp [setEntries, h.symm]
  | cons e rest ih =>
    by_cases hk : e.1 = k
    · have hk' : e.1 ≠ k' := fun hc => h (hc.symm.trans hk)
      simp [setEntries, hk, h.symm]
    · by_cases hk' : e.1 = k'
      · simp [setEntries, hk', h]
      · simpa [setEntries, hk, hk'] using ih

/-- A look-up finds exactly the entries. -/
lemma get?_eq_some_iff {d : PyDict κ ν} {k : κ} {v : ν} :
    d.get? k = some v ↔ (k, v) ∈ d.entries := by
  obtain ⟨es, hes⟩ := d
  simp only [get?]
  induction es with
  | nil => simp
  | cons e rest ih =>
    obtain ⟨k₀, v₀⟩ := e
    rw [List.map_cons, List.nodup_cons] at hes
    by_cases hk : k₀ = k
    · subst hk
      have hrest : (k₀, v) ∉ rest := fun h => hes.1 (List.mem_map.mpr ⟨_, h, rfl⟩)
      simp [hrest, eq_comm]
    · rw [List.find?_cons_of_neg (by simpa using hk), ih hes.2, List.mem_cons,
        or_iff_right (by simp [Ne.symm hk])]

lemma mem_values_set {d : PyDict κ ν} {k : κ} {v v' : ν} (h : v' ∈ (d.set k v).values) :
    v' = v ∨ v' ∈ d.values := by
  obtain ⟨es, hes⟩ := d
  simp only [values, set] at h ⊢
  clear hes
  induction es with
  | nil => simpa [setEntries] using h
  | cons e rest ih =>
    unfold setEntries at h
    split_ifs at h
    · simp only [List.map_cons, List.mem_cons] at h ⊢
      exact h.imp_right .inr
    · simp only [List.map_cons, List.mem_cons] at h ⊢
      exact h.elim (fun h => .inr (.inl h)) fun h => (ih h).imp_right .inr

/-- `del d[k]`, for a present key. -/
def erase (d : PyDict κ ν) (k : κ) : PyDict κ ν :=
  ⟨d.entries.filter (·.1 ≠ k), d.nodup.sublist (List.filter_sublist.map Prod.fst)⟩

lemma get?_erase (d : PyDict κ ν) (k k' : κ) :
    (d.erase k).get? k' = if k' = k then none else d.get? k' := by
  obtain ⟨es, hes⟩ := d
  simp only [get?, erase, List.find?_filter]
  by_cases h : k' = k
  · subst h
    simp
  · rw [if_neg h]
    congr 2
    funext e
    by_cases he : e.1 = k'
    · simp [he, h]
    · simp [he]

/-- Deleting several keys. -/
lemma get?_foldl_erase (ks : List κ) (d : PyDict κ ν) (k : κ) :
    (ks.foldl erase d).get? k = if k ∈ ks then none else d.get? k := by
  induction ks generalizing d with
  | nil => rfl
  | cons k' ks ih =>
    rw [List.foldl_cons, ih, get?_erase]
    by_cases hmem : k ∈ ks
    · simp [hmem]
    · by_cases hk : k = k' <;> simp [hmem, hk]

/-- The dictionary of some assignments, made in order. -/
def ofList (es : List (κ × ν)) : PyDict κ ν := es.foldl (fun d e => d.set e.1 e.2) ∅

lemma get?_foldl_set {es : List (κ × ν)} (hes : (es.map Prod.fst).Nodup) (d : PyDict κ ν)
    {k : κ} {v : ν} :
    (es.foldl (fun d e => d.set e.1 e.2) d).get? k = some v ↔
      (k, v) ∈ es ∨ k ∉ es.map Prod.fst ∧ d.get? k = some v := by
  induction es generalizing d with
  | nil => simp
  | cons e rest ih =>
    rw [List.map_cons, List.nodup_cons] at hes
    rw [List.foldl_cons, ih hes.2]
    by_cases hk : k = e.1
    · subst hk
      have hrest : (e.1, v) ∉ rest := fun h => hes.1 (List.mem_map.mpr ⟨_, h, rfl⟩)
      have he : (e.1, v) = e ↔ e.2 = v := by
        rw [Prod.ext_iff, eq_comm]
        simp [eq_comm]
      rw [get?_set_self, List.mem_cons, he]
      simp [hrest, hes.1]
    · have hne : (k, v) ≠ e := fun h => hk (by rw [← h])
      rw [get?_set_of_ne _ hk, List.mem_cons, List.map_cons, List.mem_cons, or_iff_right hne,
        or_iff_right hk]

lemma get?_ofList {es : List (κ × ν)} (hes : (es.map Prod.fst).Nodup) {k : κ} {v : ν} :
    (ofList es).get? k = some v ↔ (k, v) ∈ es := by
  have hempty : (∅ : PyDict κ ν).get? k = none := rfl
  rw [ofList, get?_foldl_set hes, hempty]
  simp

/-- Assignments to different keys are the entries. -/
lemma entries_ofList {es : List (κ × ν)} (hes : (es.map Prod.fst).Nodup) :
    (ofList es).entries = es := by
  have happend : ∀ (es : List (κ × ν)) (d : PyDict κ ν),
      (d.entries.map Prod.fst ++ es.map Prod.fst).Nodup →
        (es.foldl (fun d e => d.set e.1 e.2) d).entries = d.entries ++ es := by
    intro es
    induction es with
    | nil => intro d _; simp
    | cons e es ih =>
      intro d hd
      have hnew : e.1 ∉ d.entries.map Prod.fst := fun hmem =>
        (List.nodup_append.mp hd).2.2 _ hmem _ (by simp) rfl
      have hset : (d.set e.1 e.2).entries = d.entries ++ [e] := by
        have hfresh : ∀ es : List (κ × ν), e.1 ∉ es.map Prod.fst →
            setEntries e.1 e.2 es = es ++ [e] := by
          intro es hes
          induction es with
          | nil => rfl
          | cons f es ih =>
            rw [List.map_cons, List.mem_cons, not_or] at hes
            rw [setEntries, if_neg (Ne.symm hes.1), ih hes.2, List.cons_append]
        exact hfresh _ hnew
      rw [List.foldl_cons, ih, hset, List.append_assoc, List.singleton_append]
      rw [hset, List.map_append, List.append_assoc]
      exact hd
  exact happend es ∅ hes

end PyDict

end ModelDispatcher.Lib.Dicts
