import Mathlib.Algebra.BigOperators.Group.List.Basic
import Mathlib.Order.Monotone.Defs

/-!
Counting in tumbling windows, twice: a log of timestamped amounts, summed over a period, and one
bucket a key that keeps the amount of its latest period.

`Represents` relates the two from an instant on. Amounts of periods before the current one are
gone from the buckets, and a bucket of such a period may be there or not.
-/

namespace ModelDispatcher.Lib.Windows

variable {κ τ π α : Type} [DecidableEq κ] [DecidableEq π] [AddMonoid α]

/-- An amount for a key, at an instant. -/
structure Entry (κ τ α : Type) where
  key : κ
  time : τ
  amount : α

variable (period : κ → τ → π)

/-- The sum of a key's amounts in a period. -/
def total (log : List (Entry κ τ α)) (k : κ) (p : π) : α :=
  ((log.filter fun e => e.key = k ∧ period e.key e.time = p).map Entry.amount).sum

/-- What a bucket says about a period. -/
def bucketCount (bucket : Option (α × π)) (p : π) : α :=
  match bucket with
  | none => 0
  | some (amount, q) => if q = p then amount else 0

@[simp] lemma total_nil (k : κ) (p : π) : total period ([] : List (Entry κ τ α)) k p = 0 := rfl

variable {period} {log : List (Entry κ τ α)}

lemma total_append_self {k : κ} {t : τ} {n : α} {p : π} (h : period k t = p) :
    total period (log ++ [⟨k, t, n⟩]) k p = total period log k p + n := by
  simp [total, h]

lemma total_append_of_ne {e : Entry κ τ α} {k : κ} {p : π}
    (h : ¬ (e.key = k ∧ period e.key e.time = p)) :
    total period (log ++ [e]) k p = total period log k p := by
  rw [total, List.filter_append, List.filter_cons_of_neg (by simpa using h), List.filter_nil,
    List.append_nil]
  rfl

@[simp] lemma bucketCount_self (n : α) (p : π) : bucketCount (some (n, p)) p = n := if_pos rfl

lemma bucketCount_of_ne {n : α} {p q : π} (h : q ≠ p) : bucketCount (some (n, q)) p = 0 :=
  if_neg h

variable [PartialOrder π]

/-- From an instant on, the buckets say what the log says. -/
structure Represents (period : κ → τ → π) (buckets : κ → Option (α × π))
    (log : List (Entry κ τ α)) (now : τ) : Prop where
  opened : ∀ k n q, buckets k = some (n, q) → q ≤ period k now
  counts : ∀ k p, period k now ≤ p → bucketCount (buckets k) p = total period log k p

variable {buckets : κ → Option (α × π)} {now now' : τ}

lemma represents_empty (now : τ) :
    Represents period (fun _ => none) ([] : List (Entry κ τ α)) now :=
  ⟨nofun, fun _ _ _ => rfl⟩

/-- An amount is added to the current period of its key. -/
lemma Represents.incr {buckets' : κ → Option (α × π)} {k : κ} {n : α}
    (h : Represents period buckets log now)
    (hself : buckets' k =
      some (bucketCount (buckets k) (period k now) + n, period k now))
    (hother : ∀ k', k' ≠ k → buckets' k' = buckets k') :
    Represents period buckets' (log ++ [⟨k, now, n⟩]) now := by
  constructor
  · intro k' m q hk'
    by_cases hkey : k' = k
    · subst hkey
      rw [hself] at hk'
      cases hk'
      exact le_rfl
    · exact h.opened k' m q ((hother k' hkey).symm.trans hk')
  · intro k' p hp
    by_cases hkey : k' = k
    · subst hkey
      rw [hself]
      by_cases hcurrent : period k' now = p
      · rw [total_append_self hcurrent, ← h.counts k' p hp, hcurrent, bucketCount_self]
      · -- a later period has no amounts yet
        rw [bucketCount_of_ne hcurrent, total_append_of_ne fun hc => hcurrent hc.2,
          ← h.counts k' p hp]
        cases hbucket : buckets k' with
        | none => rfl
        | some b =>
          obtain ⟨m, q⟩ := b
          have hle := h.opened k' m q hbucket
          refine (bucketCount_of_ne ?_).symm
          rintro rfl
          exact hcurrent (le_antisymm hp hle)
    · rw [hother k' hkey, total_append_of_ne fun hc => hkey hc.1.symm]
      exact h.counts k' p hp

variable [Preorder τ]

lemma Represents.mono (hmono : ∀ k, Monotone (period k))
    (h : Represents period buckets log now) (hle : now ≤ now') :
    Represents period buckets log now' :=
  ⟨fun k n q hk => (h.opened k n q hk).trans (hmono k hle),
    fun k p hp => h.counts k p ((hmono k hle).trans hp)⟩

/-- Buckets are dropped, each at an instant that is not in its period. -/
lemma Represents.drop {buckets' : κ → Option (α × π)} (hmono : ∀ k, Monotone (period k))
    (h : ∀ k, ∃ t ≤ now', Represents period buckets log t ∧
      (buckets' k = buckets k ∨
        buckets' k = none ∧ ∀ n q, buckets k = some (n, q) → q ≠ period k t)) :
    Represents period buckets' log now' := by
  constructor
  · intro k n q hk
    obtain ⟨t, hle, hrep, hkept | ⟨hnone, -⟩⟩ := h k
    · exact (hrep.opened k n q (hkept.symm.trans hk)).trans (hmono k hle)
    · cases hnone.symm.trans hk
  · intro k p hp
    obtain ⟨t, hle, hrep, hkept | ⟨hnone, hstale⟩⟩ := h k
    · rw [hkept]
      exact hrep.counts k p ((hmono k hle).trans hp)
    · rw [hnone, ← hrep.counts k p ((hmono k hle).trans hp)]
      cases hbucket : buckets k with
      | none => rfl
      | some b =>
        -- its period is before the one at the instant, so before any later one
        obtain ⟨n, q⟩ := b
        have hlt := lt_of_le_of_ne (hrep.opened k n q hbucket) (hstale n q hbucket)
        exact (bucketCount_of_ne (hlt.trans_le ((hmono k hle).trans hp)).ne).symm

end ModelDispatcher.Lib.Windows
