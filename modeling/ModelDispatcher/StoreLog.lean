import Mathlib.Data.Int.ConditionallyCompleteOrder
import ModelDispatcher.Lib.Windows
import ModelDispatcher.Quota

/-!
The quota store against a log of timestamped increments: along any sequence of operations whose
clock readings do not decrease, what the store answers is what the log sums up to.
-/

namespace ModelDispatcher.StoreLog

open Lib.Dicts Lib.Windows DataTypes Quota

/-- The bucket of a tenant and a window. -/
abbrev Bucket := TenantId × WindowKey

/-- An operation on the store, with its clock readings. -/
inductive StoreOp
  | incr (now : ℚ) (tenant : TenantId) (window : WindowKey) (tokens : ℤ)
  | read (now : ℚ) (tenant : TenantId) (window : WindowKey)
  /-- The clock is read for each bucket in turn. -/
  | resetExpired (clock : ℕ → ℚ)

namespace StoreOp

/-- The store after an operation, and what the operation returns. -/
def step (st : InMemoryQuotaStore) : StoreOp → InMemoryQuotaStore × Option ℤ
  | .incr now tenant window tokens =>
    (st.incr now tenant window tokens, some (st.updated now tenant window tokens))
  | .read now tenant window => (st, some (st.read now tenant window))
  | .resetExpired clock => (st.resetExpired clock, none)

/-- The readings an operation takes, in order; for a read of an absent bucket, which takes none,
its instant. -/
def readings (st : InMemoryQuotaStore) : StoreOp → List ℚ
  | .incr now .. => [now]
  | .read now .. => [now]
  | .resetExpired clock => (List.range st.counts.entries.length).map clock

/-- What an operation adds to the log. -/
def logged : StoreOp → List (Entry Bucket ℚ ℤ)
  | .incr now tenant window tokens => [⟨(tenant, window), now, tokens⟩]
  | .read .. => []
  | .resetExpired _ => []

end StoreOp

/-- The period of a bucket at an instant. -/
def periodOf (k : Bucket) (now : ℚ) : ℤ := period k.2 now

/-- What the operations return, from a store on. -/
def results (st : InMemoryQuotaStore) : List StoreOp → List (Option ℤ)
  | [] => []
  | op :: ops => (op.step st).2 :: results (op.step st).1 ops

/-- The readings the operations take, from a store on. -/
def readings (st : InMemoryQuotaStore) : List StoreOp → List ℚ
  | [] => []
  | op :: ops => op.readings st ++ readings (op.step st).1 ops

/-- What an operation should return after a log: the sum of the amounts of its bucket in the
current period, its own included. -/
def StoreOp.expected (log : List (Entry Bucket ℚ ℤ)) : StoreOp → Option ℤ
  | .incr now tenant window tokens =>
    some (total periodOf (log ++ [⟨(tenant, window), now, tokens⟩]) (tenant, window)
      (period window now))
  | .read now tenant window => some (total periodOf log (tenant, window) (period window now))
  | .resetExpired _ => none

/-- What the operations should return, after a log. -/
def expected (log : List (Entry Bucket ℚ ℤ)) : List StoreOp → List (Option ℤ)
  | [] => []
  | op :: ops => op.expected log :: expected (log ++ op.logged) ops

/-! ### One operation -/

lemma periodOf_mono (k : Bucket) : Monotone (periodOf k) := by
  intro s t hst
  have hpos : (0 : ℚ) ≤ (k.2.seconds : ℚ) := Nat.cast_nonneg _
  exact Int.floor_le_floor (div_le_div_of_nonneg_right hst hpos)

section

variable {st : InMemoryQuotaStore} {log : List (Entry Bucket ℚ ℤ)}

lemma bucketCount_eq (p : ℤ) (tenant : TenantId) (window : WindowKey) :
    bucketCount (st.counts.get? (tenant, window)) p = st.countIn p tenant window := by
  unfold bucketCount InMemoryQuotaStore.countIn
  cases st.counts.get? (tenant, window) with
  | none => rfl
  | some b => by_cases hp : b.2 = p <;> simp [hp]

/-- The store says what the log says, from the last reading on. -/
def Agrees (st : InMemoryQuotaStore) (log : List (Entry Bucket ℚ ℤ)) (past : List ℚ) : Prop :=
  ∀ now, (∀ t ∈ past, t ≤ now) → Represents periodOf st.counts.get? log now

lemma represents_incr {now : ℚ} (h : Represents periodOf st.counts.get? log now)
    (tenant : TenantId) (window : WindowKey) (tokens : ℤ) :
    Represents periodOf (st.incr now tenant window tokens).counts.get?
      (log ++ [⟨(tenant, window), now, tokens⟩]) now := by
  refine h.incr ?_ fun k' hk' => ?_
  · rw [periodOf, bucketCount_eq]
    exact PyDict.get?_set_self _ _ _
  · exact PyDict.get?_set_of_ne _ hk' _

/-- The buckets after the expired ones are dropped: each is kept, or was not in its period when it
was looked at. -/
lemma get?_resetExpired (clock : ℕ → ℚ) (k : Bucket) :
    (st.resetExpired clock).counts.get? k = st.counts.get? k ∨
      (st.resetExpired clock).counts.get? k = none ∧
        ∃ i < st.counts.entries.length, ∀ n q, st.counts.get? k = some (n, q) →
          q ≠ periodOf k (clock i) := by
  unfold InMemoryQuotaStore.resetExpired
  rw [PyDict.get?_foldl_erase]
  split_ifs with hstale
  · refine .inr ⟨rfl, ?_⟩
    obtain ⟨⟨⟨k', n, q⟩, i⟩, hmem, rfl⟩ := List.mem_map.mp hstale
    obtain ⟨hmem, hperiod⟩ := List.mem_filter.mp hmem
    obtain ⟨hlt, hentry⟩ := List.mem_zipIdx' hmem
    refine ⟨i, hlt, fun n' q' hget => ?_⟩
    have hfound : st.counts.get? k' = some (n, q) :=
      PyDict.get?_eq_some_iff.mpr (by rw [hentry]; exact List.getElem_mem hlt)
    obtain ⟨rfl, rfl⟩ := Prod.mk.inj (Option.some.inj (hfound.symm.trans hget))
    simpa [periodOf] using hperiod
  · exact .inl rfl

/-- **One operation** returns what the log says, and keeps the agreement. -/
lemma agrees_step {past : List ℚ} (h : Agrees st log past) (op : StoreOp)
    (hsorted : (past ++ op.readings st).Pairwise (· ≤ ·)) :
    (op.step st).2 = op.expected log ∧
      Agrees (op.step st).1 (log ++ op.logged) (past ++ op.readings st) := by
  have hpast : ∀ t ∈ op.readings st, ∀ s ∈ past, s ≤ t :=
    fun t ht s hs => (List.pairwise_append.mp hsorted).2.2 s hs t ht
  cases op with
  | incr now tenant window tokens =>
    have hnow := h now (hpast now (by simp [StoreOp.readings]))
    have hincr := represents_incr hnow tenant window tokens
    constructor
    · have hcount := hincr.counts (tenant, window) (period window now) le_rfl
      rw [bucketCount_eq, InMemoryQuotaStore.countIn_incr_self] at hcount
      exact congrArg some hcount
    · intro later hlater
      exact hincr.mono periodOf_mono (hlater now (by simp [StoreOp.readings]))
  | read now tenant window =>
    have hnow := h now (hpast now (by simp [StoreOp.readings]))
    constructor
    · have hcount := hnow.counts (tenant, window) (period window now) le_rfl
      rw [bucketCount_eq] at hcount
      exact congrArg some hcount
    · intro later hlater
      rw [StoreOp.logged, List.append_nil]
      exact h later fun t ht => hlater t (by simp [ht])
  | resetExpired clock =>
    refine ⟨rfl, fun later hlater => ?_⟩
    rw [StoreOp.logged, List.append_nil]
    have hdrop : ∀ k, ∃ t ≤ later, Represents periodOf st.counts.get? log t ∧
        ((st.resetExpired clock).counts.get? k = st.counts.get? k ∨
          (st.resetExpired clock).counts.get? k = none ∧
            ∀ n q, st.counts.get? k = some (n, q) → q ≠ periodOf k t) := by
      intro k
      rcases get?_resetExpired clock k with hkept | ⟨hnone, i, hi, hstale⟩
      · exact ⟨later, le_rfl, h later fun t ht => hlater t (by simp [ht]), .inl hkept⟩
      · have hreading : clock i ∈ (StoreOp.resetExpired clock).readings st :=
          List.mem_map_of_mem (List.mem_range.mpr hi)
        exact ⟨clock i, hlater _ (by simp [hreading]), h _ (hpast _ hreading),
          .inr ⟨hnone, hstale⟩⟩
    exact Represents.drop periodOf_mono hdrop

end

/-! ### Sequences of operations -/

/-- From a store that agrees with a log, the operations return what the log says. -/
lemma results_eq {st : InMemoryQuotaStore} {log : List (Entry Bucket ℚ ℤ)} {past : List ℚ}
    {ops : List StoreOp} (h : Agrees st log past)
    (hsorted : (past ++ readings st ops).Pairwise (· ≤ ·)) :
    results st ops = expected log ops := by
  induction ops generalizing st log past with
  | nil => rfl
  | cons op ops ih =>
    rw [readings, ← List.append_assoc] at hsorted
    obtain ⟨hresult, hagrees⟩ := agrees_step h op (List.pairwise_append.mp hsorted).1
    rw [results, expected, hresult, ih hagrees hsorted]

lemma agrees_empty : Agrees {} [] [] := fun now _ => represents_empty now

lemma expected_append (log : List (Entry Bucket ℚ ℤ)) (ops ops' : List StoreOp) :
    expected log (ops ++ ops') =
      expected log ops ++ expected (log ++ ops.flatMap StoreOp.logged) ops' := by
  induction ops generalizing log with
  | nil => simp [expected]
  | cons op ops ih => simp [expected, ih]

lemma readings_append (st : InMemoryQuotaStore) (ops ops' : List StoreOp) :
    ∃ st', readings st (ops ++ ops') = readings st ops ++ readings st' ops' := by
  induction ops generalizing st with
  | nil => exact ⟨st, rfl⟩
  | cons op ops ih =>
    obtain ⟨st', h⟩ := ih (op.step st).1
    exact ⟨st', by rw [List.cons_append, readings, h, readings, List.append_assoc]⟩

/-- **The store refines the log.** With readings that do not decrease, every operation returns the
sum of the log; and with another reset anywhere, the later operations return the same. -/
theorem store_refines_log :
    (∀ ops, (readings {} ops).Pairwise (· ≤ ·) → results {} ops = expected [] ops) ∧
    ∀ pre clock post, (readings {} (pre ++ .resetExpired clock :: post)).Pairwise (· ≤ ·) →
      (readings {} (pre ++ post)).Pairwise (· ≤ ·) →
      ∃ later, results {} (pre ++ post) = results {} pre ++ later ∧
        results {} (pre ++ .resetExpired clock :: post) = results {} pre ++ none :: later := by
  have hresults : ∀ ops, (readings {} ops).Pairwise (· ≤ ·) → results {} ops = expected [] ops :=
    fun ops hsorted => results_eq agrees_empty hsorted
  refine ⟨hresults, fun pre clock post hreset hplain => ?_⟩
  have hpre : results {} pre = expected [] pre := by
    obtain ⟨st', h⟩ := readings_append {} pre post
    rw [h] at hplain
    exact hresults pre (List.pairwise_append.mp hplain).1
  refine ⟨expected (pre.flatMap StoreOp.logged) post, ?_, ?_⟩
  · rw [hresults _ hplain, hpre, expected_append, List.nil_append]
  · rw [hresults _ hreset, hpre, expected_append, List.nil_append, expected, StoreOp.logged,
      List.append_nil]
    rfl

namespace Sample

/-- An increment and a read in its minute. -/
def minute : List StoreOp :=
  [.incr 10 (Lib.Text.py "t") .tokensPerMin 5, .read 30 (Lib.Text.py "t") .tokensPerMin]

/-- A read in the next minute. -/
def next : List StoreOp := [.read 80 (Lib.Text.py "t") .tokensPerMin]

/-- The expired buckets are dropped between the two. -/
def rollover : List StoreOp := minute ++ .resetExpired (fun _ => 70) :: next

end Sample

/-- A minute's count is read in the minute and is gone in the next one, dropped or not. -/
theorem rollover_results :
    results {} Sample.rollover = [some 5, some 5, none, some 0] ∧
      results {} (Sample.minute ++ Sample.next) = [some 5, some 5, some 0] := by
  have hrollover : results {} Sample.rollover = [some 5, some 5, none, some 0] := by
    rw [store_refines_log.1 Sample.rollover (by decide)]
    decide +kernel
  refine ⟨hrollover, ?_⟩
  obtain ⟨later, hplain, hreset⟩ := store_refines_log.2 Sample.minute (fun _ => 70) Sample.next
    (by decide) (by decide)
  have hminute : results {} Sample.minute = [some 5, some 5] := by decide +kernel
  rw [hminute] at hplain hreset
  rw [← Sample.rollover, hrollover] at hreset
  have hlater : later = [some 0] := by simpa using hreset.symm
  rw [hplain, hlater]
  rfl

end ModelDispatcher.StoreLog
