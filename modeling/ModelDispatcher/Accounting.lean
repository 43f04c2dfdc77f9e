import ModelDispatcher.Charges
import ModelDispatcher.Ledger

/-!
Exact accounting within a period: any number of dispatches of any number of tenants reserve and
commit over one store, in any order, and every counter is what the outstanding reservations and
the settled usages add up to.
-/

namespace ModelDispatcher.Accounting

open Lib.Text Lib.Runs Lib.Logged DataTypes Exceptions Config Quota QuotaManager
open InMemoryQuotaStore Charges

inductive Action
  | reserve (tenant : TenantContext) (estimate : ℤ) (providerName : PyStr)
  | commit (tenant : TenantContext) (decision : QuotaDecision) (usage : Usage)

/-- A granted decision and the tenant it is for. -/
structure Grant where
  tenant : TenantId
  decision : QuotaDecision

/-- A grant with the usage it was committed with. -/
structure Settlement where
  grant : Grant
  usage : Usage

/-- The quota state, with the grants still to be committed and those that were. -/
structure Books where
  quota : QuotaState
  outstanding : List Grant := []
  settled : List Settlement := []

/-- A reservation of any tenant, or the commit of an outstanding grant of the same tenant. -/
inductive Step (clock : ℕ → ℚ) (b : Books) : Action → Books → Prop
  | granted {tenant : TenantContext} {estimate : ℤ} {name : PyStr} {d : QuotaDecision}
      {q : QuotaState} (hrun : (reserve clock tenant estimate name).run b.quota = .ok d q)
      (hd : d.granted) :
      Step clock b (.reserve tenant estimate name)
        ⟨q, ⟨tenant.tenantId, d⟩ :: b.outstanding, b.settled⟩
  | denied {tenant : TenantContext} {estimate : ℤ} {name : PyStr} {d : QuotaDecision}
      {q : QuotaState} (hrun : (reserve clock tenant estimate name).run b.quota = .ok d q)
      (hd : ¬ d.granted) :
      Step clock b (.reserve tenant estimate name) ⟨q, b.outstanding, b.settled⟩
  | raised {tenant : TenantContext} {estimate : ℤ} {name : PyStr} {e : BuiltinError}
      {q : QuotaState} (hrun : (reserve clock tenant estimate name).run b.quota = .error e q) :
      Step clock b (.reserve tenant estimate name) ⟨q, b.outstanding, b.settled⟩
  | commit {before after : List Grant} {tenant : TenantContext} {d : QuotaDecision}
      {usage : Usage} {q : QuotaState}
      (hg : b.outstanding = before ++ ⟨tenant.tenantId, d⟩ :: after)
      (hrun : (QuotaManager.commit clock tenant d usage).run b.quota = .ok () q) :
      Step clock b (.commit tenant d usage)
        ⟨q, before ++ after, ⟨⟨tenant.tenantId, d⟩, usage⟩ :: b.settled⟩

/-! ### What the books say of a counter -/

/-- The amounts of the entries that are a tenant's. -/
def sumFor {α : Type} (who : α → TenantId) (amount : α → ℤ) (t : TenantId) (xs : List α) : ℤ :=
  ((xs.filter (who · = t)).map amount).sum

section

variable {α : Type} (who : α → TenantId) (amount : α → ℤ) (t : TenantId)

lemma sumFor_append (xs ys : List α) :
    sumFor who amount t (xs ++ ys) = sumFor who amount t xs + sumFor who amount t ys := by
  unfold sumFor
  rw [List.filter_append, List.map_append, List.sum_append]

lemma sumFor_cons (x : α) (xs : List α) :
    sumFor who amount t (x :: xs) =
      (if who x = t then amount x else 0) + sumFor who amount t xs := by
  unfold sumFor
  by_cases h : who x = t
  · rw [List.filter_cons_of_pos (by simpa using h), List.map_cons, List.sum_cons, if_pos h]
  · rw [List.filter_cons_of_neg (by simpa using h), if_neg h, zero_add]

end

/-- What a tenant's outstanding grants have charged to a window. -/
def pending (t : TenantId) (w : WindowKey) (gs : List Grant) : ℤ :=
  sumFor Grant.tenant (fun g => chargeOf g.decision.reservedTokens w) t gs

/-- What a tenant's settled grants have charged to a window. -/
def spent (t : TenantId) (w : WindowKey) (ss : List Settlement) : ℤ :=
  sumFor (·.grant.tenant) (fun s => chargeOf s.usage.totalTokens w) t ss

def Books.booked (b : Books) (t : TenantId) (w : WindowKey) : ℤ :=
  spent t w b.settled + pending t w b.outstanding

/-! ### One step -/

section

variable {clock : ℕ → ℚ} {b b' : Books} {a : Action} {m : ℕ} {t : TenantId} {w : WindowKey}

/-- A reservation that is denied leaves the store alone. -/
lemma store_of_denied {q q' : QuotaState} {tenant : TenantContext} {estimate : ℤ}
    {name : PyStr} {d : QuotaDecision}
    (hrun : (reserve clock tenant estimate name).run q = .ok d q') (hd : ¬ d.granted) :
    q'.store = q.store := by
  have hcases := reserve_cases clock q tenant estimate name
  rw [hrun] at hcases
  cases hcases with
  | denied => rfl
  | granted o b ho => exact absurd ho hd

/-- What a step does to the counters: nothing, the charge of a grant, or its settlement. -/
inductive Moves (clock : ℕ → ℚ) (b : Books) : Books → Prop
  | idle (n : ℕ) : Moves clock b { b with quota := { b.quota with ticks := b.quota.ticks + n } }
  | charged {tid : TenantId} {d : QuotaDecision} :
      Moves clock b ⟨⟨charge clock b.quota.store (b.quota.ticks + 3) tid d.reservedTokens,
        b.quota.ticks + 6⟩, ⟨tid, d⟩ :: b.outstanding, b.settled⟩
  | settled {before after : List Grant} {tid : TenantId} {d : QuotaDecision} {u : Usage} {n : ℕ}
      {st : InMemoryQuotaStore} (hg : b.outstanding = before ++ ⟨tid, d⟩ :: after)
      (hst : u.totalTokens = d.reservedTokens ∧ st = b.quota.store ∧ n = 0 ∨
        st = settle clock b.quota.store b.quota.ticks tid (u.totalTokens - d.reservedTokens) ∧
          n = 2) :
      Moves clock b ⟨⟨st, b.quota.ticks + n⟩, before ++ after, ⟨⟨tid, d⟩, u⟩ :: b.settled⟩

lemma moves_of_step (h : Step clock b a b') : Moves clock b b' := by
  cases h with
  | @granted tenant estimate name d q hrun hd =>
    have hcases := reserve_cases clock b.quota tenant estimate name
    rw [hrun] at hcases
    cases hcases with
    | denied => exact absurd rfl hd
    | granted o x ho =>
      exact .charged (d := ⟨o, estimate, x, some name⟩)
  | @denied tenant estimate name d q hrun hd =>
    have hcases := reserve_cases clock b.quota tenant estimate name
    rw [hrun] at hcases
    cases hcases with
    | denied => exact .idle 3
    | granted o x ho => exact absurd ho hd
  | @raised tenant estimate name e q hrun =>
    have hcases := reserve_cases clock b.quota tenant estimate name
    rw [hrun] at hcases
    cases hcases
    exact .idle 3
  | @commit before after tenant d u q hg hrun =>
    rw [commit_run] at hrun
    split_ifs at hrun with hzero
    · cases hrun
      exact .settled (n := 0) hg (.inl ⟨by omega, rfl, rfl⟩)
    · cases hrun
      exact .settled hg (.inr ⟨rfl, rfl⟩)

lemma ticks_le (h : Moves clock b b') : b.quota.ticks ≤ b'.quota.ticks := by
  cases h <;> exact Nat.le_add_right _ _

/-- A settlement replaces the charge of the estimate by that of the usage. -/
lemma countIn_settled {q : QuotaState} {tid : TenantId} {d : QuotaDecision} {u : Usage} {n : ℕ}
    {st : InMemoryQuotaStore} (hm : m ≤ q.ticks) (hroll : NoRollover clock m (q.ticks + n))
    (hst : u.totalTokens = d.reservedTokens ∧ st = q.store ∧ n = 0 ∨
      st = settle clock q.store q.ticks tid (u.totalTokens - d.reservedTokens) ∧ n = 2) :
    st.countIn (period w (clock m)) t w = q.store.countIn (period w (clock m)) t w +
      if tid = t then chargeOf u.totalTokens w - chargeOf d.reservedTokens w else 0 := by
  rcases hst with ⟨hexact, rfl, -⟩ | ⟨rfl, rfl⟩
  · rw [hexact, sub_self, ite_self, add_zero]
  · have hoff : settleOffset w < 2 := by cases w <;> simp [settleOffset]
    have hp := hroll (q.ticks + settleOffset w) (by omega) (Nat.add_lt_add_left hoff _) w
    rw [countIn_settle, if_pos hp]
    by_cases ht : t = tid
    · subst ht
      cases w <;> simp [chargeOf]
    · simp [ht, Ne.symm ht]

/-- A step moves a counter by what it changes in the books. -/
lemma countAt_moves (h : Moves clock b b') (hm : m ≤ b.quota.ticks)
    (hroll : NoRollover clock m b'.quota.ticks) :
    countAt clock m t b'.quota w - b'.booked t w = countAt clock m t b.quota w - b.booked t w := by
  unfold countAt InMemoryQuotaStore.read Books.booked
  cases h with
  | idle n => rfl
  | @charged tid d =>
    have hoff : chargeOffset w < 6 := by cases w <;> simp [chargeOffset]
    have hp := hroll (b.quota.ticks + chargeOffset w) (by omega)
      (Nat.add_lt_add_left hoff _) w
    rw [countIn_charge, pending, pending, sumFor_cons]
    by_cases ht : t = tid
    · subst ht
      simp only [hp, if_true]
      ring
    · simp only [ht, Ne.symm ht, if_false]
      ring
  | @settled before after tid d u n st hg hst =>
    rw [countIn_settled hm hroll hst, hg]
    simp only [pending, spent, sumFor_append, sumFor_cons]
    by_cases ht : tid = t
    · simp only [ht, if_true]
      ring
    · simp only [ht, if_false]
      ring

/-- The counters and the books move together along a run. -/
lemma countAt_run {as : List Action} (h : Steps (Step clock) b as b')
    (hroll : NoRollover clock b.quota.ticks b'.quota.ticks) (t : TenantId) (w : WindowKey) :
    b.quota.ticks ≤ b'.quota.ticks ∧
      countAt clock b.quota.ticks t b'.quota w - b'.booked t w =
        countAt clock b.quota.ticks t b.quota w - b.booked t w := by
  induction h with
  | refl => exact ⟨le_rfl, rfl⟩
  | snoc _ hstep ih =>
    have hmoves := moves_of_step hstep
    have hle := ticks_le hmoves
    obtain ⟨hle', hcount⟩ := ih fun k hk hk' => hroll k hk (by omega)
    exact ⟨hle'.trans hle, (countAt_moves hmoves hle' hroll).trans hcount⟩

end

/-! ### Runs -/

/-- The total of a tenant's committed usages. -/
def committedTokens (t : TenantId) (ss : List Settlement) : ℤ :=
  ((ss.filter (·.grant.tenant = t)).map (·.usage.totalTokens)).sum

/-- The total a tenant's uncommitted grants have reserved. -/
def reservedTokens (t : TenantId) (gs : List Grant) : ℤ :=
  ((gs.filter (·.tenant = t)).map (·.decision.reservedTokens)).sum

/-- A tenant's grants, committed or not. -/
def grants (t : TenantId) (b : Books) : ℕ :=
  (b.settled.filter (·.grant.tenant = t)).length + (b.outstanding.filter (·.tenant = t)).length

/-- What the store answers now for a tenant and a window. -/
def reads (clock : ℕ → ℚ) (q : QuotaState) (t : TenantId) (w : WindowKey) : ℤ :=
  q.store.read (clock q.ticks) t w

/-- The counters of a tenant are their starting values with what the books add up to. -/
structure Exact (clock : ℕ → ℚ) (start : QuotaState) (b : Books) (t : TenantId) : Prop where
  tokensPerMin : reads clock b.quota t .tokensPerMin = reads clock start t .tokensPerMin +
    committedTokens t b.settled + reservedTokens t b.outstanding
  tokensPerDay : reads clock b.quota t .tokensPerDay = reads clock start t .tokensPerDay +
    committedTokens t b.settled + reservedTokens t b.outstanding
  requestsPerMin : reads clock b.quota t .requestsPerMin =
    reads clock start t .requestsPerMin + grants t b

lemma booked_requests (b : Books) (t : TenantId) : b.booked t .requestsPerMin = grants t b := by
  simp [Books.booked, spent, pending, sumFor, chargeOf, grants]

lemma booked_tokens (b : Books) (t : TenantId) {w : WindowKey} (hw : w ≠ .requestsPerMin) :
    b.booked t w = committedTokens t b.settled + reservedTokens t b.outstanding := by
  cases w with
  | requestsPerMin => exact absurd rfl hw
  | tokensPerMin => rfl
  | tokensPerDay => rfl

/-- **Exact accounting.** From any quota state, in every state that reservations and commits lead
to within one period, the counters of every tenant are exact, and a denied reservation leaves
the store alone. -/
theorem exact_of_no_rollover (clock : ℕ → ℚ) (start : QuotaState) (as : List Action) (b : Books)
    (hrun : Steps (Step clock) { quota := start } as b)
    (hroll : NoRollover clock start.ticks (b.quota.ticks + 1)) :
    (∀ t, Exact clock start b t) ∧
      ∀ tenant estimate name d q,
        (reserve clock tenant estimate name).run b.quota = .ok d q → ¬ d.granted →
          q.store = b.quota.store := by
  refine ⟨fun t => ?_, fun _ _ _ _ _ => store_of_denied⟩
  have hcount : ∀ w, reads clock b.quota t w = reads clock start t w + b.booked t w := by
    intro w
    obtain ⟨hle, hcount⟩ := countAt_run hrun (fun k hk hk' => hroll k hk (by omega)) t w
    have hnow : reads clock b.quota t w = countAt clock start.ticks t b.quota w := by
      unfold reads countAt InMemoryQuotaStore.read
      rw [hroll b.quota.ticks hle (Nat.lt_succ_self _) w]
    have hempty : Books.booked { quota := start } t w = 0 := rfl
    have hstart : reads clock start t w = countAt clock start.ticks t start w := rfl
    rw [hempty, sub_zero] at hcount
    rw [hnow, hstart, ← hcount]
    ring
  refine ⟨?_, ?_, ?_⟩
  · rw [hcount, booked_tokens b t (by simp)]
    ring
  · rw [hcount, booked_tokens b t (by simp)]
    ring
  · rw [hcount, booked_requests]

namespace Sample

open Ledger (sampleTenant)

def clock : ℕ → ℚ := fun _ => 0

def decision : QuotaDecision := ⟨.allow, 10, none, some (py "p")⟩

/-- The store after so many reservations of ten tokens. -/
def reserved : ℕ → QuotaState
  | 0 => {}
  | n + 1 => ⟨charge clock (reserved n).store ((reserved n).ticks + 3) (py "t") 10,
      (reserved n).ticks + 6⟩

/-- Two reservations of ten tokens, the first one committed with seven used. -/
def books : Books where
  quota := ⟨settle clock (reserved 2).store (reserved 2).ticks (py "t") (-3), 14⟩
  outstanding := [⟨py "t", decision⟩]
  settled := [⟨⟨py "t", decision⟩, ⟨3, 4⟩⟩]

lemma step_reserve {n : ℕ} {gs : List Grant}
    (h : judge sampleTenant.quota.softLimitRatio
      (checks clock (reserved n).store (reserved n).ticks sampleTenant 10) .allow none =
        .ok (.allow, none)) :
    Step clock ⟨reserved n, gs, []⟩ (.reserve sampleTenant 10 (py "p"))
      ⟨reserved (n + 1), ⟨py "t", decision⟩ :: gs, []⟩ :=
  .granted (d := decision) (reserve_run_granted clock h (by simp)) (by decide)

lemma run : ∃ as, Steps (Step clock) { quota := {} } as books := by
  have h0 : Step clock ⟨reserved 0, [], []⟩ _ _ := step_reserve (by decide +kernel)
  have h1 : Step clock ⟨reserved 1, [⟨py "t", decision⟩], []⟩ _ _ :=
    step_reserve (by decide +kernel)
  have hcommit : Step clock ⟨reserved 2, [⟨py "t", decision⟩, ⟨py "t", decision⟩], []⟩
      (.commit sampleTenant decision ⟨3, 4⟩) books :=
    @Step.commit clock _ [⟨py "t", decision⟩] [] sampleTenant decision ⟨3, 4⟩ _ rfl
      (by rw [commit_run]; rfl)
  exact ⟨_, ((Steps.single h0).snoc h1).snoc hcommit⟩

end Sample

/-- Two reservations, one of them settled. -/
theorem exact_two_reservations : Exact Sample.clock {} Sample.books (py "t") :=
  let ⟨_, hrun⟩ := Sample.run
  (exact_of_no_rollover Sample.clock {} _ Sample.books hrun fun _ _ _ _ => rfl).1 (py "t")

end ModelDispatcher.Accounting
