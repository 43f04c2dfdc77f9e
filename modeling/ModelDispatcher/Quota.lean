import Mathlib.Algebra.Order.Floor.Ring
import Mathlib.Data.Rat.Floor
import ModelDispatcher.Config
import ModelDispatcher.Exceptions

/-!
Tenant quota: the in-memory counter store with its tumbling windows, and the manager that
reserves an estimate before a call and reconciles it after.

The clock is a sequence of readings; every store operation takes the next one.
-/

namespace ModelDispatcher.Quota

open Lib.Text Lib.Binary64 Lib.Floats Lib.Dicts DataTypes Exceptions Config

inductive WindowKey
  | requestsPerMin | tokensPerMin | tokensPerDay
  deriving DecidableEq

def WindowKey.seconds : WindowKey → ℕ
  | .requestsPerMin => 60
  | .tokensPerMin => 60
  | .tokensPerDay => 86400

def WindowKey.name : WindowKey → PyStr
  | .requestsPerMin => py "requests_per_min"
  | .tokensPerMin => py "tokens_per_min"
  | .tokensPerDay => py "tokens_per_day"

/-! ### The store -/

/-- Counters keyed by tenant and window, each with the period it belongs to. -/
structure InMemoryQuotaStore where
  counts : PyDict (TenantId × WindowKey) (ℤ × ℤ) := ∅

/-- The index of the tumbling window a clock reading falls in. -/
def period (window : WindowKey) (now : ℚ) : ℤ := ⌊now / window.seconds⌋

namespace InMemoryQuotaStore

/-- The count of a bucket in a period: zero unless the bucket belongs to it. -/
def countIn (st : InMemoryQuotaStore) (p : ℤ) (tenant : TenantId) (window : WindowKey) : ℤ :=
  match st.counts.get? (tenant, window) with
  | none => 0
  | some (count, q) => if q ≠ p then 0 else count

def read (st : InMemoryQuotaStore) (now : ℚ) (tenant : TenantId) (window : WindowKey) : ℤ :=
  st.countIn (period window now) tenant window

def incr (st : InMemoryQuotaStore) (now : ℚ) (tenant : TenantId) (window : WindowKey)
    (tokens : ℤ) : InMemoryQuotaStore :=
  let p := period window now
  ⟨st.counts.set (tenant, window) (st.countIn p tenant window + tokens, p)⟩

/-- What `incr` returns: the new running total. -/
def updated (st : InMemoryQuotaStore) (now : ℚ) (tenant : TenantId) (window : WindowKey)
    (tokens : ℤ) : ℤ := st.countIn (period window now) tenant window + tokens

/-- Drop the buckets whose period is over; the clock is read for each of them. -/
def resetExpired (st : InMemoryQuotaStore) (clock : ℕ → ℚ) : InMemoryQuotaStore :=
  let stale := (st.counts.entries.zipIdx.filter fun x =>
    x.1.2.2 ≠ period x.1.1.2 (clock x.2)).map fun x => x.1.1
  ⟨stale.foldl PyDict.erase st.counts⟩

/-- An increment adds to its own bucket, in the period it is made in. -/
lemma countIn_incr_self (st : InMemoryQuotaStore) (now : ℚ) (t : TenantId) (w : WindowKey)
    (n : ℤ) : (st.incr now t w n).countIn (period w now) t w =
      st.countIn (period w now) t w + n := by
  conv_lhs => unfold countIn
  simp [incr]

/-- An increment in another period starts the bucket afresh. -/
lemma countIn_incr_of_period_ne (st : InMemoryQuotaStore) {now : ℚ} {p : ℤ} (t : TenantId)
    {w : WindowKey} (h : period w now ≠ p) (n : ℤ) : (st.incr now t w n).countIn p t w = 0 := by
  conv_lhs => unfold countIn
  simp [incr, h]

/-- An increment leaves every other bucket alone. -/
lemma countIn_incr_of_ne (st : InMemoryQuotaStore) (now : ℚ) (p : ℤ) {t t' : TenantId}
    {w w' : WindowKey} (h : (t', w') ≠ (t, w)) (n : ℤ) :
    (st.incr now t w n).countIn p t' w' = st.countIn p t' w' := by
  simp only [countIn, incr, PyDict.get?_set_of_ne _ h]

/-- The buckets after an increment. -/
lemma countIn_incr (st : InMemoryQuotaStore) (now : ℚ) (p : ℤ) (t t' : TenantId)
    (w w' : WindowKey) (n : ℤ) :
    (st.incr now t w n).countIn p t' w' =
      if t' = t ∧ w' = w then if period w now = p then st.countIn p t w + n else 0
      else st.countIn p t' w' := by
  by_cases h : t' = t ∧ w' = w
  · obtain ⟨rfl, rfl⟩ := h
    by_cases hp : period w' now = p
    · subst hp; simp [countIn_incr_self]
    · simp [hp, countIn_incr_of_period_ne _ _ hp]
  · rw [if_neg h, countIn_incr_of_ne _ _ _ (by simpa using h)]

end InMemoryQuotaStore

/-! ### The manager -/

inductive QuotaOutcome
  | allow | softLimit | deny
  deriving DecidableEq

structure QuotaDecision where
  outcome : QuotaOutcome
  reservedTokens : ℤ
  breachedWindow : Option WindowKey := none
  providerName : Option PyStr := none
  deriving DecidableEq

/-- A decision that lets the call proceed. -/
def QuotaDecision.granted (d : QuotaDecision) : Prop := d.outcome ≠ .deny

instance (d : QuotaDecision) : Decidable d.granted := inferInstanceAs (Decidable (_ ≠ _))

/-- The store and the number of clock readings taken so far. -/
structure QuotaState where
  store : InMemoryQuotaStore := {}
  ticks : ℕ := 0

abbrev QuotaM := EStateM BuiltinError QuotaState

/-- The verdict over the windows still to check, given the one reached so far. -/
def judge (ratio : PyFloat) : List (WindowKey × ℤ × ℤ) → QuotaOutcome → Option WindowKey →
    Except BuiltinError (QuotaOutcome × Option WindowKey)
  | [], outcome, breached => .ok (outcome, breached)
  | (window, prospective, cap) :: rest, outcome, breached =>
    if prospective > cap then .ok (.deny, some window)
    else match ofInt cap with
      | none => .error .overflowError
      | some c =>
        if (c.mul ratio).ltRat prospective then judge ratio rest .softLimit (some window)
        else judge ratio rest outcome breached

lemma judge_nil (ratio : PyFloat) (o : QuotaOutcome) (b : Option WindowKey) :
    judge ratio [] o b = .ok (o, b) := rfl

lemma judge_cons (ratio : PyFloat) (window : WindowKey) (prospective cap : ℤ)
    (rest : List (WindowKey × ℤ × ℤ)) (o : QuotaOutcome) (b : Option WindowKey) :
    judge ratio ((window, prospective, cap) :: rest) o b =
      if prospective > cap then .ok (.deny, some window)
      else match ofInt cap with
        | none => .error .overflowError
        | some c =>
          if (c.mul ratio).ltRat prospective then judge ratio rest .softLimit (some window)
          else judge ratio rest o b := rfl

/-- Every prospective count is within its cap. -/
def WithinCaps (checks : List (WindowKey × ℤ × ℤ)) : Prop := ∀ c ∈ checks, c.2.1 ≤ c.2.2

/-- Some cap is too large for a float, and no window up to it is over its own cap. -/
def CapOverflows : List (WindowKey × ℤ × ℤ) → Prop
  | [] => False
  | (_, prospective, cap) :: rest =>
    prospective ≤ cap ∧ (overflowBound ≤ |(cap : ℚ)| ∨ CapOverflows rest)

lemma judge_ok_of_ne_deny {ratio : PyFloat} {checks : List (WindowKey × ℤ × ℤ)}
    {o o' : QuotaOutcome} {b b' : Option WindowKey}
    (h : judge ratio checks o b = .ok (o', b')) (ho : o' ≠ .deny) : WithinCaps checks := by
  induction checks generalizing o b with
  | nil => simp [WithinCaps]
  | cons c rest ih =>
    obtain ⟨win, prospective, cap⟩ := c
    rw [judge_cons] at h
    split at h
    · cases h; exact absurd rfl ho
    · rename_i hle
      have hrest : WithinCaps rest := by
        split at h
        · cases h
        · split at h <;> exact ih h
      simpa [WithinCaps] using ⟨not_lt.mp hle, by simpa [WithinCaps] using hrest⟩

/-- The verdict raises exactly when a cap that is reached is too large for a float. -/
lemma judge_error_iff {ratio : PyFloat} {checks : List (WindowKey × ℤ × ℤ)}
    {o : QuotaOutcome} {b : Option WindowKey} {e : BuiltinError} :
    judge ratio checks o b = .error e ↔ e = .overflowError ∧ CapOverflows checks := by
  induction checks generalizing o b with
  | nil => simp [judge_nil, CapOverflows]
  | cons c rest ih =>
    obtain ⟨win, prospective, cap⟩ := c
    rw [judge_cons, CapOverflows, ofInt]
    by_cases hle : prospective ≤ cap
    · rw [if_neg (not_lt.mpr hle)]
      by_cases hcap : |(cap : ℚ)| < overflowBound
      · simp only [if_pos hcap, hle, not_le.mpr hcap, false_or, true_and]
        split_ifs <;> exact ih
      · simp [if_neg hcap, hle, not_lt.mp hcap, eq_comm]
    · simp [not_le.mp hle, hle]

namespace QuotaManager

variable (clock : ℕ → ℚ)

def read (tenant : TenantId) (window : WindowKey) : QuotaM ℤ :=
  modifyGet fun s => (s.store.read (clock s.ticks) tenant window, { s with ticks := s.ticks + 1 })

def incr (tenant : TenantId) (window : WindowKey) (tokens : ℤ) : QuotaM Unit :=
  modify fun s =>
    { store := s.store.incr (clock s.ticks) tenant window tokens, ticks := s.ticks + 1 }

/-- Charge the estimate provisionally and return the verdict. -/
def reserve (tenant : TenantContext) (estimatedTokens : ℤ) (providerName : PyStr) :
    QuotaM QuotaDecision := do
  let quota := tenant.quota
  let tid := tenant.tenantId
  let requests ← read clock tid .requestsPerMin
  let tokensMin ← read clock tid .tokensPerMin
  let tokensDay ← read clock tid .tokensPerDay
  let checks : List (WindowKey × ℤ × ℤ) :=
    [(.requestsPerMin, requests + 1, quota.requestsPerMin),
     (.tokensPerMin, tokensMin + estimatedTokens, quota.tokensPerMin),
     (.tokensPerDay, tokensDay + estimatedTokens, quota.tokensPerDay)]
  match judge quota.softLimitRatio checks .allow none with
  | .error e => throw e
  | .ok (.deny, breached) => return ⟨.deny, 0, breached, some providerName⟩
  | .ok (outcome, breached) =>
    incr clock tid .requestsPerMin 1
    incr clock tid .tokensPerMin estimatedTokens
    incr clock tid .tokensPerDay estimatedTokens
    return ⟨outcome, estimatedTokens, breached, some providerName⟩

/-- Reconcile a reservation against the usage the provider reported. -/
def commit (tenant : TenantContext) (decision : QuotaDecision) (actual : Usage) : QuotaM Unit := do
  let delta := actual.totalTokens - decision.reservedTokens
  if delta = 0 then return
  incr clock tenant.tenantId .tokensPerMin delta
  incr clock tenant.tenantId .tokensPerDay delta

/-! ### What the two operations do -/

/-- The windows, in the order the manager reads, checks and charges them. -/
def windows : List WindowKey := [.requestsPerMin, .tokensPerMin, .tokensPerDay]

def capOf (quota : TenantQuota) : WindowKey → ℤ
  | .requestsPerMin => quota.requestsPerMin
  | .tokensPerMin => quota.tokensPerMin
  | .tokensPerDay => quota.tokensPerDay

/-- What a granted reservation adds to a window. -/
def chargeOf (estimate : ℤ) : WindowKey → ℤ
  | .requestsPerMin => 1
  | .tokensPerMin => estimate
  | .tokensPerDay => estimate

/-- The checks of a reservation that read some counts. -/
def checksOf (quota : TenantQuota) (seen : WindowKey → ℤ) (estimate : ℤ) :
    List (WindowKey × ℤ × ℤ) :=
  windows.map fun w => (w, seen w + chargeOf estimate w, capOf quota w)

lemma withinCaps_checksOf {quota : TenantQuota} {seen : WindowKey → ℤ} {estimate : ℤ} :
    WithinCaps (checksOf quota seen estimate) ↔
      ∀ w, seen w + chargeOf estimate w ≤ capOf quota w := by
  simp only [WithinCaps, checksOf, windows, List.mem_map, forall_exists_index, and_imp,
    forall_apply_eq_imp_iff₂]
  exact ⟨fun h w => h w (by cases w <;> simp), fun h w _ => h w⟩

/-- Which reading of a reservation, counted from its first, the read of a window takes. -/
def readOffset : WindowKey → ℕ
  | .requestsPerMin => 0
  | .tokensPerMin => 1
  | .tokensPerDay => 2

/-- The checks of a reservation whose first clock reading is the `n`-th. -/
def checks (st : InMemoryQuotaStore) (n : ℕ) (tenant : TenantContext) (estimate : ℤ) :
    List (WindowKey × ℤ × ℤ) :=
  checksOf tenant.quota (fun w => st.read (clock (n + readOffset w)) tenant.tenantId w) estimate

/-- The store after the three increments of a granted reservation, the first at the `n`-th
reading. -/
def charge (st : InMemoryQuotaStore) (n : ℕ) (tid : TenantId) (estimate : ℤ) :
    InMemoryQuotaStore :=
  ((st.incr (clock n) tid .requestsPerMin 1).incr (clock (n + 1)) tid .tokensPerMin estimate).incr
    (clock (n + 2)) tid .tokensPerDay estimate

/-- The store after the two increments that settle a reservation, the first at the `n`-th
reading. -/
def settle (st : InMemoryQuotaStore) (n : ℕ) (tid : TenantId) (delta : ℤ) :
    InMemoryQuotaStore :=
  (st.incr (clock n) tid .tokensPerMin delta).incr (clock (n + 1)) tid .tokensPerDay delta

/-- Which reading of a reservation, counted from its first, an increment of a window takes. -/
def chargeOffset : WindowKey → ℕ
  | .requestsPerMin => 3
  | .tokensPerMin => 4
  | .tokensPerDay => 5

lemma countIn_charge (st : InMemoryQuotaStore) (n : ℕ) (tid t : TenantId) (estimate p : ℤ)
    (w : WindowKey) :
    (charge clock st (n + 3) tid estimate).countIn p t w =
      if t = tid then
        if period w (clock (n + chargeOffset w)) = p then st.countIn p t w + chargeOf estimate w
        else 0
      else st.countIn p t w := by
  by_cases h : t = tid
  · subst h
    cases w <;>
      simp only [charge, InMemoryQuotaStore.countIn_incr, reduceCtorEq, and_true, and_false,
        if_true, if_false, chargeOffset, chargeOf, Nat.add_assoc, Nat.reduceAdd] <;>
      rfl
  · simp only [charge, InMemoryQuotaStore.countIn_incr, h, false_and, if_false]

/-- Which reading of a commit, counted from its first, an increment of a window takes. -/
def settleOffset : WindowKey → ℕ
  | .tokensPerDay => 1
  | _ => 0

lemma countIn_settle (st : InMemoryQuotaStore) (n : ℕ) (tid t : TenantId) (delta p : ℤ)
    (w : WindowKey) :
    (settle clock st n tid delta).countIn p t w =
      if t = tid ∧ w ≠ .requestsPerMin then
        if period w (clock (n + settleOffset w)) = p then st.countIn p t w + delta else 0
      else st.countIn p t w := by
  by_cases h : t = tid
  · subst h
    cases w <;> simp [settle, InMemoryQuotaStore.countIn_incr, settleOffset]
    rfl
  · simp [settle, InMemoryQuotaStore.countIn_incr, h]

/-- The ways a reservation ends: denied and uncharged, granted and charged, or raised. -/
inductive Reserved (q : QuotaState) (tenant : TenantContext) (estimate : ℤ) (name : PyStr) :
    EStateM.Result BuiltinError QuotaState QuotaDecision → Prop
  | denied (b : Option WindowKey) :
      Reserved q tenant estimate name
        (.ok ⟨.deny, 0, b, some name⟩ { q with ticks := q.ticks + 3 })
  | granted (o : QuotaOutcome) (b : Option WindowKey) (ho : o ≠ .deny)
      (hfits : WithinCaps (checks clock q.store q.ticks tenant estimate)) :
      Reserved q tenant estimate name
        (.ok ⟨o, estimate, b, some name⟩
          ⟨charge clock q.store (q.ticks + 3) tenant.tenantId estimate, q.ticks + 6⟩)
  | raised (h : CapOverflows (checks clock q.store q.ticks tenant estimate)) :
      Reserved q tenant estimate name (.error .overflowError { q with ticks := q.ticks + 3 })

lemma reserve_run (q : QuotaState) (tenant : TenantContext) (estimate : ℤ) (name : PyStr) :
    (reserve clock tenant estimate name).run q =
      match judge tenant.quota.softLimitRatio (checks clock q.store q.ticks tenant estimate)
          .allow none with
      | .error e => .error e { q with ticks := q.ticks + 3 }
      | .ok (.deny, b) => .ok ⟨.deny, 0, b, some name⟩ { q with ticks := q.ticks + 3 }
      | .ok (o, b) => .ok ⟨o, estimate, b, some name⟩
          ⟨charge clock q.store (q.ticks + 3) tenant.tenantId estimate, q.ticks + 6⟩ := by
  change (match judge _ (checks clock q.store q.ticks tenant estimate) .allow none with
    | .error e => _
    | .ok (.deny, b) => _
    | .ok (o, b) => _ : QuotaM QuotaDecision).run _ = _
  rcases judge tenant.quota.softLimitRatio (checks clock q.store q.ticks tenant estimate)
    .allow none with e | ⟨o, b⟩
  · rfl
  · cases o <;> rfl

theorem reserve_cases (q : QuotaState) (tenant : TenantContext) (estimate : ℤ) (name : PyStr) :
    Reserved clock q tenant estimate name ((reserve clock tenant estimate name).run q) := by
  rw [reserve_run]
  cases h : judge tenant.quota.softLimitRatio (checks clock q.store q.ticks tenant estimate)
      .allow none with
  | error e =>
    obtain ⟨rfl, hcap⟩ := judge_error_iff.mp h
    exact .raised hcap
  | ok v =>
    obtain ⟨o, b⟩ := v
    cases o with
    | deny => exact .denied b
    | allow => exact .granted .allow b (by simp) (judge_ok_of_ne_deny h (by simp))
    | softLimit => exact .granted .softLimit b (by simp) (judge_ok_of_ne_deny h (by simp))

lemma reserve_run_granted {q : QuotaState} {tenant : TenantContext} {estimate : ℤ}
    {name : PyStr} {o : QuotaOutcome} {b : Option WindowKey}
    (h : judge tenant.quota.softLimitRatio (checks clock q.store q.ticks tenant estimate)
      .allow none = .ok (o, b)) (ho : o ≠ .deny) :
    (reserve clock tenant estimate name).run q = .ok ⟨o, estimate, b, some name⟩
      ⟨charge clock q.store (q.ticks + 3) tenant.tenantId estimate, q.ticks + 6⟩ := by
  rw [reserve_run, h]
  cases o
  · rfl
  · rfl
  · exact absurd rfl ho

lemma commit_run (q : QuotaState) (tenant : TenantContext) (d : QuotaDecision) (u : Usage) :
    (commit clock tenant d u).run q =
      if u.totalTokens - d.reservedTokens = 0 then .ok () q
      else .ok () ⟨settle clock q.store q.ticks tenant.tenantId
        (u.totalTokens - d.reservedTokens), q.ticks + 2⟩ := by
  unfold commit
  by_cases h : u.totalTokens - d.reservedTokens = 0
  · simp only [h, if_true]; rfl
  · simp only [h, if_false]; rfl

end QuotaManager

end ModelDispatcher.Quota
