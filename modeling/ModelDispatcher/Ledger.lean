import Mathlib.Order.Monotone.Basic
import ModelDispatcher.Lib.Runs
import ModelDispatcher.Quota

/-!
Runs of the quota manager: reservations and commits, one after the other, under a clock that
may cross any number of window boundaries between the two.

The ledger keeps the reservations that are granted and not yet committed. What they may still
give back is what a bucket must hold.
-/

namespace ModelDispatcher.Ledger

open Lib.Text Lib.Binary64 Lib.Dicts Lib.Runs DataTypes Exceptions Config Quota QuotaManager
open InMemoryQuotaStore

/-- A granted reservation, with the clock reading it started at. -/
structure Grant where
  tenant : TenantContext
  decision : QuotaDecision
  start : ℕ

inductive Action
  | reserve (tenant : TenantContext) (estimate : ℤ) (providerName : PyStr)
  | commit (grant : Grant) (usage : Usage)

structure System where
  quota : QuotaState := {}
  outstanding : List Grant := []

/-- A reservation with a non-negative estimate, or the commit of an outstanding grant with
non-negative usage. -/
inductive Step (clock : ℕ → ℚ) (s : System) : Action → System → Prop
  | granted {tenant : TenantContext} {estimate : ℤ} {name : PyStr} {d : QuotaDecision}
      {q : QuotaState} (hestimate : 0 ≤ estimate)
      (hrun : (reserve clock tenant estimate name).run s.quota = .ok d q) (hd : d.granted) :
      Step clock s (.reserve tenant estimate name)
        ⟨q, ⟨tenant, d, s.quota.ticks⟩ :: s.outstanding⟩
  | denied {tenant : TenantContext} {estimate : ℤ} {name : PyStr} {d : QuotaDecision}
      {q : QuotaState} (hestimate : 0 ≤ estimate)
      (hrun : (reserve clock tenant estimate name).run s.quota = .ok d q) (hd : ¬ d.granted) :
      Step clock s (.reserve tenant estimate name) ⟨q, s.outstanding⟩
  | raised {tenant : TenantContext} {estimate : ℤ} {name : PyStr} {e : BuiltinError}
      {q : QuotaState} (hestimate : 0 ≤ estimate)
      (hrun : (reserve clock tenant estimate name).run s.quota = .error e q) :
      Step clock s (.reserve tenant estimate name) ⟨q, s.outstanding⟩
  | commit {before after : List Grant} {g : Grant} {usage : Usage} {q : QuotaState}
      (hg : s.outstanding = before ++ g :: after)
      (hprompt : 0 ≤ usage.promptTokens) (hcompletion : 0 ≤ usage.completionTokens)
      (hrun : (QuotaManager.commit clock g.tenant g.decision usage).run s.quota = .ok () q) :
      Step clock s (.commit g usage) ⟨q, before ++ after⟩

/-! ### What outstanding grants may give back -/

variable (clock : ℕ → ℚ)

/-- The most a commit can take back from a window. -/
def Grant.refundable (g : Grant) : WindowKey → ℤ
  | .requestsPerMin => 0
  | _ => g.decision.reservedTokens

/-- The period of a window the grant was charged in. -/
def Grant.chargedIn (g : Grant) (w : WindowKey) : ℤ :=
  period w (clock (g.start + chargeOffset w))

/-- What the grants of a tenant charged in a period may still take back from a window. -/
def owed (gs : List Grant) (p : ℤ) (t : TenantId) (w : WindowKey) : ℤ :=
  (gs.map fun g =>
    if g.tenant.tenantId = t ∧ g.chargedIn clock w = p then g.refundable w else 0).sum

@[simp] lemma owed_cons (g : Grant) (gs : List Grant) (p : ℤ) (t : TenantId) (w : WindowKey) :
    owed clock (g :: gs) p t w =
      (if g.tenant.tenantId = t ∧ g.chargedIn clock w = p then g.refundable w else 0) +
        owed clock gs p t w := by
  simp [owed]

lemma owed_append_cons (gs hs : List Grant) (g : Grant) (p : ℤ) (t : TenantId) (w : WindowKey) :
    owed clock (gs ++ g :: hs) p t w =
      (if g.tenant.tenantId = t ∧ g.chargedIn clock w = p then g.refundable w else 0) +
        owed clock (gs ++ hs) p t w := by
  simp only [owed, List.map_append, List.map_cons, List.sum_append, List.sum_cons]
  omega

lemma owed_nonneg {gs : List Grant} (h : ∀ g ∈ gs, 0 ≤ g.decision.reservedTokens) (p : ℤ)
    (t : TenantId) (w : WindowKey) : 0 ≤ owed clock gs p t w := by
  induction gs with
  | nil => simp [owed]
  | cons g gs ih =>
    have hg : 0 ≤ g.refundable w := by
      cases w
      · exact le_rfl
      · exact h g (by simp)
      · exact h g (by simp)
    have := ih fun g' hg' => h g' (by simp [hg'])
    rw [owed_cons]
    split_ifs <;> omega

lemma owed_eq_zero {gs : List Grant} {p : ℤ} {w : WindowKey}
    (h : ∀ g ∈ gs, g.chargedIn clock w ≠ p) (t : TenantId) : owed clock gs p t w = 0 := by
  induction gs with
  | nil => simp [owed]
  | cons g gs ih =>
    rw [owed_cons, ih fun g' hg' => h g' (by simp [hg']), if_neg (by simp [h g])]
    rfl

/-! ### The invariant -/

/-- No bucket is negative, and every bucket that can still be read as current holds what the
outstanding grants may take back from it. -/
structure Inv (s : System) : Prop where
  nonneg : ∀ p t w, 0 ≤ s.quota.store.countIn p t w
  covered : ∀ n, s.quota.ticks ≤ n → ∀ t w,
    owed clock s.outstanding (period w (clock n)) t w ≤
      s.quota.store.countIn (period w (clock n)) t w
  past : ∀ g ∈ s.outstanding, g.start + 6 ≤ s.quota.ticks
  reserved : ∀ g ∈ s.outstanding, 0 ≤ g.decision.reservedTokens

variable {clock}

lemma period_mono (hmono : Monotone clock) (w : WindowKey) {m n : ℕ} (h : m ≤ n) :
    period w (clock m) ≤ period w (clock n) :=
  Int.floor_le_floor (div_le_div_of_nonneg_right (hmono h) (by positivity))

lemma inv_init : Inv clock {} :=
  ⟨fun _ _ _ => le_rfl, fun _ _ _ _ => le_rfl, by simp, by simp⟩

/-- A grant charged before a reading that starts a new period owes nothing to that period. -/
lemma owed_later (hmono : Monotone clock) {gs : List Grant} {k m n : ℕ}
    (hpast : ∀ g ∈ gs, g.start + 6 ≤ k) (hkm : k ≤ m) (hmn : m ≤ n) {w : WindowKey}
    (hne : period w (clock m) ≠ period w (clock n)) (t : TenantId) :
    owed clock gs (period w (clock n)) t w = 0 := by
  refine owed_eq_zero clock (fun g hg hc => ?_) t
  have hoff : chargeOffset w ≤ 5 := by cases w <;> simp [chargeOffset]
  have h1 := period_mono hmono w (show g.start + chargeOffset w ≤ m by
    have := hpast g hg; omega)
  have h2 := period_mono hmono w hmn
  unfold Grant.chargedIn at hc
  omega

/-- Readings alone keep the invariant. -/
lemma inv_read {s : System} (h : Inv clock s) (k : ℕ) :
    Inv clock ⟨{ s.quota with ticks := s.quota.ticks + k }, s.outstanding⟩ where
  nonneg := h.nonneg
  covered n hn := h.covered n (by simp only at hn; omega)
  past g hg := by have := h.past g hg; simp only; omega
  reserved := h.reserved

lemma inv_granted (hmono : Monotone clock) {s : System} (h : Inv clock s)
    (tenant : TenantContext) {d : QuotaDecision} (hd : 0 ≤ d.reservedTokens) :
    Inv clock ⟨⟨charge clock s.quota.store (s.quota.ticks + 3) tenant.tenantId d.reservedTokens,
      s.quota.ticks + 6⟩, ⟨tenant, d, s.quota.ticks⟩ :: s.outstanding⟩ where
  nonneg p t w := by
    have hamount : 0 ≤ chargeOf d.reservedTokens w := by cases w <;> simp [chargeOf, hd]
    have := h.nonneg p t w
    simp only [countIn_charge]
    split_ifs with ht
    · subst ht; omega
    · exact le_rfl
    · exact this
  covered n hn t w := by
    simp only at hn
    have hcov := h.covered n (by omega) t w
    have hamount : Grant.refundable ⟨tenant, d, s.quota.ticks⟩ w ≤ chargeOf d.reservedTokens w := by
      cases w <;> simp [Grant.refundable, chargeOf]
    simp only [owed_cons, countIn_charge]
    by_cases ht : tenant.tenantId = t
    · subst ht
      rw [if_pos rfl]
      by_cases hp : period w (clock (s.quota.ticks + chargeOffset w)) = period w (clock n)
      · rw [if_pos ⟨rfl, hp⟩, if_pos hp]
        omega
      · -- the bucket starts afresh, and nothing was charged in its new period
        have hoff : chargeOffset w ≤ 5 := by cases w <;> simp [chargeOffset]
        rw [if_neg (by rintro ⟨-, hc⟩; exact hp hc), if_neg hp,
          owed_later hmono h.past (by omega) (by omega) hp]
        rfl
    · rw [if_neg (by simp [ht]), if_neg (Ne.symm ht)]
      omega
  past g hg := by
    rcases List.mem_cons.mp hg with rfl | hg
    · exact le_rfl
    · have := h.past g hg; simp only; omega
  reserved g hg := by
    rcases List.mem_cons.mp hg with rfl | hg
    · exact hd
    · exact h.reserved g hg

/-- A commit that takes tokens back lands in the periods its reservation was charged in. -/
def LandsWithCharge (clock : ℕ → ℚ) (s : System) : Action → Prop
  | .reserve .. => True
  | .commit g usage =>
    usage.totalTokens < g.decision.reservedTokens → ∀ w, w ≠ .requestsPerMin →
      g.chargedIn clock w = period w (clock (s.quota.ticks + settleOffset w))

/-- Removing a grant leaves the others covered. -/
lemma inv_forget {s : System} (h : Inv clock s) {before after : List Grant} {g : Grant}
    (hg : s.outstanding = before ++ g :: after) : Inv clock ⟨s.quota, before ++ after⟩ := by
  have hmem : ∀ g' ∈ before ++ after, g' ∈ s.outstanding := by
    intro g' hg'
    rw [hg]
    rcases List.mem_append.mp hg' with hg' | hg' <;> simp [hg']
  refine ⟨h.nonneg, fun n hn t w => ?_, fun g' hg' => h.past g' (hmem g' hg'),
    fun g' hg' => h.reserved g' (hmem g' hg')⟩
  have hcov := h.covered n hn t w
  have hres : 0 ≤ g.refundable w := by
    cases w
    · exact le_rfl
    all_goals exact h.reserved g (by simp [hg])
  rw [hg, owed_append_cons] at hcov
  split_ifs at hcov <;> simp only <;> omega

lemma inv_commit (hmono : Monotone clock) {s : System} (h : Inv clock s)
    {before after : List Grant} {g : Grant} (hg : s.outstanding = before ++ g :: after)
    {delta : ℤ} (hdelta : -g.decision.reservedTokens ≤ delta)
    (hlands : delta < 0 → ∀ w, w ≠ .requestsPerMin →
      g.chargedIn clock w = period w (clock (s.quota.ticks + settleOffset w))) :
    Inv clock ⟨⟨settle clock s.quota.store s.quota.ticks g.tenant.tenantId delta,
      s.quota.ticks + 2⟩, before ++ after⟩ := by
  have hforget := inv_forget h hg
  -- what the bucket the commit lands in holds beyond the other grants
  have hbucket : ∀ w, w ≠ .requestsPerMin → ∀ n, s.quota.ticks ≤ n →
      period w (clock (s.quota.ticks + settleOffset w)) = period w (clock n) →
      owed clock (before ++ after) (period w (clock n)) g.tenant.tenantId w ≤
        s.quota.store.countIn (period w (clock n)) g.tenant.tenantId w + delta := by
    intro w hw n hn hp
    have hcov := h.covered n hn g.tenant.tenantId w
    have hrest := hforget.covered n hn g.tenant.tenantId w
    by_cases hneg : delta < 0
    · have hcharged := (hlands hneg w hw).trans hp
      rw [hg, owed_append_cons, if_pos ⟨rfl, hcharged⟩] at hcov
      have hr : g.refundable w = g.decision.reservedTokens := by cases w <;> trivial
      omega
    · simp only at hrest; omega
  refine ⟨fun p t w => ?_, fun n hn t w => ?_, fun g' hg' => ?_, hforget.reserved⟩
  · have hnonneg := h.nonneg p t w
    simp only [countIn_settle]
    split_ifs with ht hp
    · obtain ⟨rfl, hw⟩ := ht
      subst hp
      exact (owed_nonneg clock hforget.reserved _ _ _).trans (hbucket w hw _ (by omega) rfl)
    · exact le_rfl
    · exact hnonneg
  · simp only at hn
    have hrest := hforget.covered n (by simp only; omega) t w
    simp only [countIn_settle]
    split_ifs with ht hp
    · obtain ⟨rfl, hw⟩ := ht
      exact hbucket w hw n (by omega) hp
    · have hoff : settleOffset w ≤ 1 := by cases w <;> simp [settleOffset]
      rw [owed_later hmono hforget.past (by simp only; omega) (by omega) hp]
    · exact hrest
  · have := hforget.past g' hg'; simp only at this ⊢; omega

/-- One step that lands its refunds where they were charged keeps the invariant. -/
lemma inv_step (hmono : Monotone clock) {s t : System} {a : Action} (h : Inv clock s)
    (hstep : Step clock s a t) (hlands : LandsWithCharge clock s a) : Inv clock t := by
  cases hstep with
  | @granted tenant estimate name d q hestimate hrun hd =>
    have hcases := reserve_cases clock s.quota tenant estimate name
    rw [hrun] at hcases
    cases hcases with
    | denied b => exact absurd rfl hd
    | granted o b ho hfits =>
      exact inv_granted hmono h tenant (d := ⟨o, estimate, b, some name⟩) hestimate
  | @denied tenant estimate name d q hestimate hrun hd =>
    have hcases := reserve_cases clock s.quota tenant estimate name
    rw [hrun] at hcases
    cases hcases with
    | denied b => exact inv_read h 3
    | granted o b ho hfits => exact absurd ho hd
  | @raised tenant estimate name e q hestimate hrun =>
    have hcases := reserve_cases clock s.quota tenant estimate name
    rw [hrun] at hcases
    cases hcases with
    | raised hcap => exact inv_read h 3
  | @commit before after g usage q hg hprompt hcompletion hrun =>
    rw [commit_run] at hrun
    have htotal : 0 ≤ usage.totalTokens := Int.add_nonneg hprompt hcompletion
    split_ifs at hrun with hzero
    · cases hrun
      exact inv_forget h hg
    · cases hrun
      exact inv_commit hmono h hg (by omega) fun hneg => hlands (by omega)

/-- A run whose refunds all land in the periods they were charged in. -/
abbrev SoundRun (clock : ℕ → ℚ) :=
  Steps fun s a t => Step clock s a t ∧ LandsWithCharge clock s a

lemma inv_run (hmono : Monotone clock) {as : List Action} {s : System}
    (h : SoundRun clock {} as s) : Inv clock s :=
  h.invariant (I := fun _ s => Inv clock s) inv_init fun hi hs => inv_step hmono hi hs.1 hs.2

/-- **Counters stay sound across rollover.** In a run whose refunds all land in the periods
their reservations were charged in, every value read from the store is non-negative, so no
grant is larger than a full cap. -/
theorem read_nonneg_of_refunds_land {clock : ℕ → ℚ} (hmono : Monotone clock) {as : List Action}
    {s : System} (h : SoundRun clock {} as s) :
    (∀ (t : TenantId) (w : WindowKey) (now : ℚ), 0 ≤ s.quota.store.read now t w) ∧
      ∀ (tenant : TenantContext) (estimate : ℤ) (name : PyStr) (d : QuotaDecision)
        (q : QuotaState), (reserve clock tenant estimate name).run s.quota = .ok d q →
          d.granted → estimate ≤ tenant.quota.tokensPerMin ∧
            estimate ≤ tenant.quota.tokensPerDay := by
  have hinv := inv_run hmono h
  refine ⟨fun t w now => hinv.nonneg _ t w, fun tenant estimate name d q hrun hd => ?_⟩
  have hcases := reserve_cases clock s.quota tenant estimate name
  rw [hrun] at hcases
  cases hcases with
  | denied b => exact absurd rfl hd
  | granted o b ho hfits =>
    have hcaps := withinCaps_checksOf.mp hfits
    constructor
    · have := hcaps .tokensPerMin
      have := hinv.nonneg (period .tokensPerMin (clock (s.quota.ticks + 1))) tenant.tenantId
        .tokensPerMin
      simp only [InMemoryQuotaStore.read, readOffset, chargeOf, capOf] at *
      omega
    · have := hcaps .tokensPerDay
      have := hinv.nonneg (period .tokensPerDay (clock (s.quota.ticks + 2))) tenant.tenantId
        .tokensPerDay
      simp only [InMemoryQuotaStore.read, readOffset, chargeOf, capOf] at *
      omega

/-! ### A minute boundary between a reservation and its commit -/

/-- Readings just before a minute ends, then just after. -/
def boundaryClock (n : ℕ) : ℚ := if n < 6 then 59 else 60

lemma boundaryClock_mono : Monotone boundaryClock := by
  intro m n h
  unfold boundaryClock
  split_ifs with hm hn
  · exact le_rfl
  · norm_num
  · omega
  · exact le_rfl

def sampleTenant : TenantContext := { tenantId := py "t", quota := ⟨10, 100, 1000, ofRat (9 / 10)⟩ }

def sampleGrant : Grant := ⟨sampleTenant, ⟨.allow, 10, none, some (py "p")⟩, 0⟩

lemma sample_verdict (clock : ℕ → ℚ) :
    judge sampleTenant.quota.softLimitRatio (checks clock {} 0 sampleTenant 10) .allow none =
      .ok (.allow, none) := by
  change judge (ofRat (9 / 10)) [(.requestsPerMin, 1, 10), (.tokensPerMin, 10, 100),
    (.tokensPerDay, 10, 1000)] .allow none = _
  decide +kernel

lemma sample_reserve (clock : ℕ → ℚ) :
    Step clock {} (.reserve sampleTenant 10 (py "p"))
      ⟨⟨charge clock {} 3 (py "t") 10, 6⟩, [sampleGrant]⟩ :=
  .granted (by norm_num) (reserve_run_granted clock (sample_verdict clock) (by simp)) (by decide)

lemma sample_commit (clock : ℕ → ℚ) :
    Step clock ⟨⟨charge clock {} 3 (py "t") 10, 6⟩, [sampleGrant]⟩ (.commit sampleGrant ⟨0, 0⟩)
      ⟨⟨settle clock (charge clock {} 3 (py "t") 10) 6 (py "t") (-10), 8⟩, []⟩ :=
  @Step.commit clock _ [] [] _ _ _ rfl le_rfl le_rfl (by rw [commit_run]; rfl)

/-- A reservation of ten tokens is committed with none used, one minute later: the refund
leaves the new minute at minus ten. -/
theorem late_refund_reads_negative :
    ¬ ∀ (clock : ℕ → ℚ), Monotone clock → ∀ (as : List Action) (s : System),
      Steps (Step clock) {} as s →
        ∀ (t : TenantId) (w : WindowKey) (now : ℚ), 0 ≤ s.quota.store.read now t w := by
  intro h
  have hrun := (Steps.single (sample_reserve boundaryClock)).snoc (sample_commit boundaryClock)
  have := h boundaryClock boundaryClock_mono _ _ hrun (py "t") .tokensPerMin 60
  revert this
  decide +kernel

/-- The same call inside one minute. -/
theorem read_nonneg_within_a_minute :
    0 ≤ (settle (fun _ => 0) (charge (fun _ => 0) {} 3 (py "t") 10) 6 (py "t") (-10)).read 0
      (py "t") .tokensPerMin :=
  (@read_nonneg_of_refunds_land (fun _ => 0) monotone_const _ _
    ((Steps.single ⟨sample_reserve _, trivial⟩).snoc
      ⟨sample_commit _, fun _ _ _ => rfl⟩)).1 (py "t") .tokensPerMin 0

end ModelDispatcher.Ledger
