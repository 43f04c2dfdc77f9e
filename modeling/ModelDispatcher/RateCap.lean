import ModelDispatcher.TenantIsolation

/-!
The request cap over whole runs of the server: however the requests of all callers are mixed and
wherever their clocks cross a minute, a tenant has at most its cap of reservations counted in a
minute, and none is turned away for it before the minute is full.

A reservation reads the count first and adds to it three readings later, so the two may fall into
different minutes. The invariant says what the buckets mean from an instant on, and that is enough:
a bucket opened by such a reservation is empty before it.
-/

namespace ModelDispatcher.RateCap

open Lib Lib.Text Lib.Logged Lib.Runs DataTypes Exceptions Config Providers Quota QuotaManager
open Machines Handlers Chain Turns Refinement Orchestration Gateway Dispatches Pipeline Identity
open TenantIsolation

/-! ### A dispatch accounts for the quota state -/

section

variable (T : Turn) {α β : Type}

/-- The events a program appends account for what it does to the quota state. -/
def Accounts (x : Run α) : Prop :=
  ∀ s, Emits Machine.log x s fun es r => Steps (QuotaStep T) s.quota es (finalState r).quota

variable {T}

lemma accounts_pure (a : α) : Accounts T (pure a : Run α) := fun _ => emits_pure .refl

lemma accounts_throw (e : PyException) : Accounts T (throw e : Run α) :=
  fun _ => emits_throw .refl

lemma accounts_bind {x : Run α} {f : α → Run β} (hx : Accounts T x)
    (hf : ∀ a, Accounts T (f a)) : Accounts T (x >>= f) := by
  intro s
  refine emits_bind (hx s) ?_ fun _ _ _ h => h
  intro es a t h
  exact (hf a t).mono fun _ _ h' => h.append h'

lemma accounts_get {f : Machine → Run α} (hf : ∀ s, Accounts T (f s)) :
    Accounts T (get >>= f) := fun s => emits_get (hf s s)

lemma accounts_emit {e : Event} (he : Event.inert e) : Accounts T (emit e) :=
  fun _ => ⟨[e], rfl, Steps.single (.inert he)⟩

lemma accounts_orRaise (x : Except PyException α) : Accounts T (orRaise x) := by
  cases x with
  | ok a => exact accounts_pure a
  | error e => exact accounts_throw e

/-- The request of a turn does not matter for what its events do to the quota state. -/
lemma quotaStep_congr {T' : Turn} (hworld : T'.world = T.world) (htenant : T'.tenant = T.tenant)
    {q q' : QuotaState} {e : Event} (h : QuotaStep T' q e q') : QuotaStep T q e q' := by
  cases h with
  | inert h => exact .inert h
  | reserved p estimate =>
    rw [hworld, htenant]
    exact .reserved p estimate
  | committed d u =>
    rw [hworld, htenant]
    exact .committed d u

end

section

variable {T : Turn} {settings : GatewaySettings} {candidates : List ModelProvider}

lemma accounts_append (st : ConversationState) (m : Message) :
    Accounts T (AgentLoop.append st m) :=
  accounts_bind (accounts_emit rfl) fun _ => accounts_pure _

lemma accounts_runToolCalls (registry : ToolRegistry) (calls : List ToolCall)
    (st : ConversationState) : Accounts T (AgentLoop.runToolCalls registry calls st) := by
  induction calls generalizing st with
  | nil => exact accounts_pure _
  | cons call rest ih =>
    exact accounts_get fun s => accounts_bind (accounts_append st _) fun st => ih st

lemma accounts_dispatchTurn (st : ConversationState) :
    Accounts T (AgentLoop.dispatchTurn (buildChain T.world settings) T.tenant candidates st) := by
  intro s
  have hturn := logs_execute (T := turnOf T.world settings st.toRequest T.tenant)
    (s := { s with scratch := {} }) candidates
  refine emits_step rfl (List.append_nil _).symm (hturn.mono fun es r h => ?_)
  exact h.1.quota.mono fun hstep => @quotaStep_congr T (turnOf _ _ _ _) rfl rfl _ _ _ hstep

/-- The induction is on the turns left. -/
lemma accounts_run (registry : ToolRegistry) (n : ℕ) (st : ConversationState)
    (steps : List StepResult) :
    Accounts T (AgentLoop.run T.world (buildChain T.world settings) T.tenant registry candidates
      none n st steps) := by
  induction n generalizing st steps with
  | zero => exact accounts_pure _
  | succ n ih =>
    refine accounts_bind (accounts_pure false) fun past => ?_
    split_ifs
    · exact accounts_pure _
    · refine accounts_bind (accounts_dispatchTurn st) fun response => accounts_get fun s => ?_
      refine accounts_bind (accounts_bind (accounts_append st _) fun _ => accounts_pure _) ?_
      intro st
      dsimp only
      split_ifs
      · exact accounts_bind (accounts_runToolCalls _ _ _) fun st => ih st _
      · exact accounts_pure _

lemma accounts_dispatch (g : ModelGateway) (request : CompletionRequest)
    (tools : Option ToolRegistry) : Accounts T (g.dispatch T.world request T.tenant tools) := by
  refine accounts_bind ?_ fun candidates => accounts_run _ _ _ _
  refine accounts_bind (accounts_emit rfl) fun _ => accounts_bind (accounts_orRaise _) fun _ => ?_
  exact accounts_bind (accounts_emit rfl) fun _ => accounts_orRaise _

end

/-! ### The requests of a tenant -/

/-- What a reservation made of the request window: counted the request, or turned it away. -/
inductive Verdict
  | counted (time : ℚ)
  | refused (time : ℚ)
  deriving DecidableEq

/-- The verdict of an event, at the reading that decided it. -/
def verdictOf (clock : ℕ → ℚ) : Event → Option Verdict
  | .reserved _ _ q (.ok d) =>
    if d.granted then some (.counted (clock (q.ticks + 3)))
    else if d.breachedWindow = some .requestsPerMin then some (.refused (clock q.ticks))
    else none
  | _ => none

def Verdict.countedIn (minute : ℤ) : Verdict → Bool
  | .counted time => period .requestsPerMin time = minute
  | .refused _ => false

/-- How many requests were counted in a minute. -/
def countedIn (history : List Verdict) (minute : ℤ) : ℕ := history.countP (·.countedIn minute)

@[simp] lemma countedIn_nil (minute : ℤ) : countedIn [] minute = 0 := rfl

@[simp] lemma countedIn_counted (history : List Verdict) (time : ℚ) (minute : ℤ) :
    countedIn (history ++ [.counted time]) minute =
      countedIn history minute + if period .requestsPerMin time = minute then 1 else 0 := by
  simp [countedIn, List.countP_append, List.countP_cons, Verdict.countedIn]

@[simp] lemma countedIn_refused (history : List Verdict) (time : ℚ) (minute : ℤ) :
    countedIn (history ++ [.refused time]) minute = countedIn history minute := by
  simp [countedIn, List.countP_append, Verdict.countedIn]

/-- A request is turned away only in a minute with the cap counted already. -/
def Full (cap : ℤ) (before : List Verdict) : Verdict → Prop
  | .counted _ => True
  | .refused time => cap ≤ countedIn before (period .requestsPerMin time)

/-- From an instant on, the store's request counts of a tenant are those of its history. -/
structure Exact (cap : ℤ) (uid : TenantId) (history : List Verdict) (st : InMemoryQuotaStore)
    (now : ℚ) : Prop where
  capped : ∀ minute, (countedIn history minute : ℤ) ≤ max 0 cap
  counts : ∀ minute, period .requestsPerMin now ≤ minute →
    st.countIn minute uid .requestsPerMin = countedIn history minute
  refusals : Along (Full cap) history
  past : ∀ time, .counted time ∈ history → time ≤ now

section

variable {cap : ℤ} {uid : TenantId} {history : List Verdict} {st : InMemoryQuotaStore}
variable {now now' : ℚ}

lemma period_le (h : now ≤ now') : period .requestsPerMin now ≤ period .requestsPerMin now' :=
  Int.floor_le_floor (div_le_div_of_nonneg_right h (by positivity))

lemma Exact.later (h : Exact cap uid history st now) (hle : now ≤ now') :
    Exact cap uid history st now' :=
  { h with
    counts := fun minute hm => h.counts minute ((period_le hle).trans hm)
    past := fun time hmem => (h.past time hmem).trans hle }

/-- A minute after the current one has no requests yet. -/
lemma Exact.countedIn_later (h : Exact cap uid history st now) {minute : ℤ}
    (hlater : period .requestsPerMin now < minute) : countedIn history minute = 0 := by
  refine List.countP_eq_zero.mpr fun v hv hc => ?_
  cases v with
  | refused => cases hc
  | counted time =>
    have hminute : period .requestsPerMin time = minute := of_decide_eq_true hc
    have := period_le (h.past time hv)
    omega

lemma along_snoc {P : List Verdict → Verdict → Prop} {v : Verdict} (h : Along P history)
    (hv : P history v) : Along P (history ++ [v]) := by
  refine along_append h ?_
  intro pre e post heq
  obtain ⟨rfl, hnil⟩ | ⟨v', rfl, hnil⟩ := List.cons_eq_append_iff.mp heq
  · cases hnil
    rwa [List.append_nil]
  · simp at hnil

/-- A request read below the cap at one instant is counted at a later one. -/
lemma Exact.counted (h : Exact cap uid history st now) (hle : now ≤ now')
    (hfits : st.read now uid .requestsPerMin + 1 ≤ cap) {st' : InMemoryQuotaStore}
    (hcounts : ∀ minute, st'.countIn minute uid .requestsPerMin =
      if period .requestsPerMin now' = minute then st.countIn minute uid .requestsPerMin + 1
      else 0) :
    Exact cap uid (history ++ [.counted now']) st' now' := by
  have hread : (countedIn history (period .requestsPerMin now) : ℤ) + 1 ≤ cap := by
    rwa [← h.counts _ le_rfl]
  have hperiod := period_le hle
  constructor
  · intro minute
    have hcapped := h.capped minute
    rw [countedIn_counted]
    split_ifs with hminute
    · by_cases hsame : period .requestsPerMin now = minute
      · rw [hsame] at hread
        exact (by exact_mod_cast hread : _ ≤ cap).trans (le_max_right 0 cap)
      · -- the request is the first of a minute that began after the read
        rw [h.countedIn_later (by omega)]
        push_cast
        omega
    · simpa using hcapped
  · intro minute hm
    rw [hcounts, countedIn_counted]
    split_ifs with hminute
    · rw [h.counts minute (by omega)]
      push_cast
      rfl
    · rw [h.countedIn_later (by omega)]
      rfl
  · exact along_snoc h.refusals trivial
  · intro time hmem
    rcases List.mem_append.mp hmem with hmem | hmem
    · exact (h.past time hmem).trans hle
    · cases List.mem_singleton.mp hmem
      exact le_rfl

lemma Exact.refused (h : Exact cap uid history st now)
    (hfull : cap < st.read now uid .requestsPerMin + 1) :
    Exact cap uid (history ++ [.refused now]) st now := by
  constructor
  · intro minute
    rw [countedIn_refused]
    exact h.capped minute
  · intro minute hm
    rw [countedIn_refused]
    exact h.counts minute hm
  · refine along_snoc h.refusals ?_
    have hread := h.counts _ le_rfl
    unfold InMemoryQuotaStore.read at hfull
    unfold Full
    omega
  · intro time hmem
    rcases List.mem_append.mp hmem with hmem | hmem
    · exact h.past time hmem
    · cases List.mem_singleton.mp hmem

end

/-! ### One event -/

/-- The history after an event. -/
def extended (clock : ℕ → ℚ) (history : List Verdict) (es : List Event) : List Verdict :=
  history ++ es.filterMap (verdictOf clock)

section

variable {T : Turn} {cap : ℤ} {history : List Verdict} {q q' : QuotaState} {e : Event}

lemma extended_none {clock : ℕ → ℚ} (h : verdictOf clock e = none) :
    extended clock history [e] = history := by
  simp [extended, h]

lemma extended_some {clock : ℕ → ℚ} {v : Verdict} (h : verdictOf clock e = some v) :
    extended clock history [e] = history ++ [v] := by
  simp [extended, h]

/-- A denial names a window that is over its cap. -/
lemma judge_deny {ratio : Lib.Floats.PyFloat} {checks : List (WindowKey × ℤ × ℤ)}
    {o : QuotaOutcome} {b b' : Option WindowKey} (ho : o ≠ .deny)
    (h : judge ratio checks o b = .ok (.deny, b')) :
    ∃ c ∈ checks, c.2.2 < c.2.1 ∧ b' = some c.1 := by
  induction checks generalizing o b with
  | nil =>
    cases h
    exact absurd rfl ho
  | cons c rest ih =>
    obtain ⟨window, prospective, cap⟩ := c
    rw [judge_cons] at h
    split at h
    · cases h
      exact ⟨(window, prospective, cap), by simp, ‹_›, rfl⟩
    · split at h
      · cases h
      · split at h
        · obtain ⟨c, hc, hover⟩ := ih (by simp) h
          exact ⟨c, by simp [hc], hover⟩
        · obtain ⟨c, hc, hover⟩ := ih ho h
          exact ⟨c, by simp [hc], hover⟩

/-- A commit leaves the request counts alone. -/
lemma exact_committed (hmono : Monotone T.world.monotonic)
    (h : Exact cap T.tenant.tenantId history q.store (T.world.monotonic q.ticks))
    (d : QuotaDecision) (u : Usage) :
    Exact cap T.tenant.tenantId history
      (finalState ((commit T.world.monotonic T.tenant d u).run q)).store
      (T.world.monotonic (finalState ((commit T.world.monotonic T.tenant d u).run q)).ticks) := by
  rw [commit_run]
  split_ifs
  · exact h
  · have hlater := h.later (hmono (Nat.le_add_right q.ticks 2))
    refine { hlater with counts := fun minute hm => ?_ }
    rw [← hlater.counts minute hm]
    simp only [finalState_ok, countIn_settle, ne_eq, not_true_eq_false, and_false, if_false]

/-- A reservation of the tenant adds its verdict to the history. -/
lemma exact_reserved (hmono : Monotone T.world.monotonic)
    (h : Exact T.tenant.quota.requestsPerMin T.tenant.tenantId history q.store
      (T.world.monotonic q.ticks)) (p : ModelProvider) (estimate : ℤ) :
    let r := (reserve T.world.monotonic T.tenant estimate p.name).run q
    Exact T.tenant.quota.requestsPerMin T.tenant.tenantId
      (extended T.world.monotonic history [.reserved p estimate q (answer r)])
      (finalState r).store (T.world.monotonic (finalState r).ticks) := by
  intro r
  have hlater := h.later (hmono (Nat.le_add_right q.ticks 3))
  have hrun := reserve_run T.world.monotonic q T.tenant estimate p.name
  change r = _ at hrun
  cases hjudge : judge T.tenant.quota.softLimitRatio
      (checks T.world.monotonic q.store q.ticks T.tenant estimate) .allow none with
  | error e =>
    rw [hjudge] at hrun
    rw [hrun, extended_none rfl]
    exact hlater
  | ok v =>
    obtain ⟨o, b⟩ := v
    rw [hjudge] at hrun
    by_cases ho : o = .deny
    · subst ho
      rw [hrun]
      by_cases hb : b = some .requestsPerMin
      · -- the request window is the first one checked
        subst hb
        obtain ⟨c, hc, hover, hname⟩ := judge_deny (by simp) hjudge
        obtain ⟨w, -, rfl⟩ := List.mem_map.mp hc
        cases hname
        rw [extended_some rfl]
        exact (h.refused hover).later (hmono (Nat.le_add_right q.ticks 3))
      · rw [extended_none (by simp [verdictOf, QuotaDecision.granted, hb])]
        exact hlater
    · have hfits := withinCaps_checksOf.mp (judge_ok_of_ne_deny hjudge ho) .requestsPerMin
      have hrun : r = .ok ⟨o, estimate, b, some p.name⟩ _ := reserve_run_granted _ hjudge ho
      rw [hrun, extended_some (v := .counted (T.world.monotonic (q.ticks + 3)))
        (by simp [verdictOf, QuotaDecision.granted, ho])]
      refine (h.counted (hmono (Nat.le_add_right q.ticks 3)) hfits fun minute => ?_).later
        (hmono (by simp only [finalState_ok]; omega))
      simp only [finalState_ok, countIn_charge, if_true, chargeOffset, chargeOf]
      rfl

lemma exact_step (hmono : Monotone T.world.monotonic)
    (h : Exact T.tenant.quota.requestsPerMin T.tenant.tenantId history q.store
      (T.world.monotonic q.ticks)) (hstep : QuotaStep T q e q') :
    Exact T.tenant.quota.requestsPerMin T.tenant.tenantId
      (extended T.world.monotonic history [e]) q'.store (T.world.monotonic q'.ticks) := by
  cases hstep with
  | inert he =>
    rw [extended_none (by cases e <;> first | rfl | cases he)]
    exact h
  | reserved p estimate => exact exact_reserved hmono h p estimate
  | committed d u =>
    rw [extended_none rfl]
    exact exact_committed hmono h d u

lemma exact_run {es : List Event} (hmono : Monotone T.world.monotonic)
    (h : Exact T.tenant.quota.requestsPerMin T.tenant.tenantId history q.store
      (T.world.monotonic q.ticks)) (hsteps : Steps (QuotaStep T) q es q') :
    Exact T.tenant.quota.requestsPerMin T.tenant.tenantId
      (extended T.world.monotonic history es) q'.store (T.world.monotonic q'.ticks) := by
  refine hsteps.invariant
    (I := fun es q => Exact T.tenant.quota.requestsPerMin T.tenant.tenantId
      (extended T.world.monotonic history es) q.store (T.world.monotonic q.ticks)) ?_ ?_
  · simpa [extended] using h
  · intro es q e q' hq hstep
    have hnext := exact_step hmono hq hstep
    unfold extended at hnext ⊢
    rwa [List.filterMap_append, ← List.append_assoc]

end

/-! ### A run of the server -/

/-- What the reservations of a tenant made of its requests, over a run of requests. -/
def history (c : Collaborators) (uid : TenantId) : InMemoryQuotaStore → List Arrival → List Verdict
  | _, [] => []
  | st, a :: rest =>
    (if a.tenant c.loads = some uid then
      (finalState (served (a.collaborators c) a.appCheckToken a.authorizationHeader a.rawBody
        { store := st })).log.filterMap (verdictOf a.clock)
    else []) ++ history c uid (step c st a).2 rest

section

variable {c : Collaborators} {uid : TenantId} {before : List Verdict} {st : InMemoryQuotaStore}
variable {a : Arrival}

/-- A dispatch for the tenant, whenever the clock is read during it. -/
lemma exact_invoke {tenant : TenantContext} (request : CompletionRequest)
    (hmono : Monotone c.world.monotonic)
    (h : Exact tenant.quota.requestsPerMin tenant.tenantId before st (c.world.monotonic 0)) :
    let t := finalState ((invoke c request tenant).run { quota := { store := st } })
    Exact tenant.quota.requestsPerMin tenant.tenantId
      (extended c.world.monotonic before t.log) t.quota.store
      (c.world.monotonic t.quota.ticks) := by
  intro t
  obtain ⟨es, hlog, hsteps⟩ := accounts_dispatch
    (T := turnOf c.world c.gatewayFactory.settings request tenant)
    c.gatewayFactory request none { quota := { store := st } }
  have ht : t = finalState ((c.gatewayFactory.dispatch c.world request tenant none).run
      { quota := { store := st } }) := finalState_invoke request tenant
  have hlog : t.log = es := by
    rw [ht]
    exact hlog
  rw [hlog]
  have hfinal := exact_run (T := turnOf c.world c.gatewayFactory.settings request tenant)
    (q := { store := st }) hmono h hsteps
  rw [ht]
  exact hfinal

/-- A request of the tenant. -/
lemma exact_own (hfactory : ∀ tid, (c.tenantFactory tid).tenantId = tid)
    (hmine : a.tenant c.loads = some uid) (hmono : Monotone a.clock)
    (h : Exact (c.tenantFactory uid).quota.requestsPerMin uid before st (a.clock 0)) :
    let t := finalState (served (a.collaborators c) a.appCheckToken a.authorizationHeader
      a.rawBody { store := st })
    Exact (c.tenantFactory uid).quota.requestsPerMin uid (extended a.clock before t.log)
      t.quota.store (a.clock t.quota.ticks) := by
  intro t
  obtain ⟨prompt, declared, hrun⟩ := runDispatch_of_some hmine
  have hstart : Exact (c.tenantFactory uid).quota.requestsPerMin (c.tenantFactory uid).tenantId
      before st (a.clock 0) := (hfactory uid).symm ▸ h
  have hfinal := exact_invoke (c := a.collaborators c) (userRequest prompt declared) hmono hstart
  have ht : t = finalState ((invoke (a.collaborators c) (userRequest prompt declared)
      (c.tenantFactory uid)).run { quota := { store := st } }) := by
    unfold t served
    rw [hrun]
  rw [ht]
  rw [hfactory uid] at hfinal
  exact hfinal

/-- A request of another caller. -/
lemma exact_others (hfactory : ∀ tid, (c.tenantFactory tid).tenantId = tid)
    (hother : a.tenant c.loads ≠ some uid) {cap : ℤ} {now : ℚ}
    (h : Exact cap uid before st now) : Exact cap uid before (step c st a).2 now where
  capped := h.capped
  counts minute hm := by
    have hsame : SameCounters uid (step c st a).2 st :=
      counters_of_others hfactory hother fun _ => rfl
    rw [hsame.countIn]
    exact h.counts minute hm
  refusals := h.refusals
  past := h.past

/-- The induction is on the requests still to come; the instant is before all their clocks. -/
lemma exact_history (hfactory : ∀ tid, (c.tenantFactory tid).tenantId = tid)
    {arrivals : List Arrival} (hclock : ∀ a ∈ arrivals, Monotone a.clock)
    (horder : arrivals.Pairwise fun a b => ∀ m n, a.clock m ≤ b.clock n) {now : ℚ}
    (hnow : ∀ a ∈ arrivals, ∀ n, now ≤ a.clock n)
    (h : Exact (c.tenantFactory uid).quota.requestsPerMin uid before st now) :
    ∃ st' now', Exact (c.tenantFactory uid).quota.requestsPerMin uid
      (before ++ history c uid st arrivals) st' now' := by
  induction arrivals generalizing before st now with
  | nil => exact ⟨st, now, by rwa [history, List.append_nil]⟩
  | cons a rest ih =>
    obtain ⟨hfirst, hrest⟩ := List.pairwise_cons.mp horder
    have hclock' : ∀ b ∈ rest, Monotone b.clock := fun b hb => hclock b (by simp [hb])
    unfold history
    by_cases hmine : a.tenant c.loads = some uid
    · have hown := exact_own hfactory hmine (hclock a (by simp)) (h.later (hnow a (by simp) 0))
      rw [if_pos hmine, ← List.append_assoc]
      exact ih hclock' hrest (fun b hb n => hfirst b hb _ n) hown
    · rw [if_neg hmine, List.nil_append]
      exact ih hclock' hrest (fun b hb => hnow b (by simp [hb])) (exact_others hfactory hmine h)

end

/-- **The request cap is kept and used up.** Over every run of requests of any callers, one after
the other, from a store without requests of the tenant: in no minute are more of the tenant's
reservations counted than its cap allows, and one is turned away for its number of requests only
when the cap is reached in the minute it comes in. -/
theorem requests_capped (c : Collaborators) (uid : TenantId) (st : InMemoryQuotaStore)
    (arrivals : List Arrival) (hfactory : ∀ tid, (c.tenantFactory tid).tenantId = tid)
    (hfresh : ∀ minute, st.countIn minute uid .requestsPerMin = 0)
    (hclock : ∀ a ∈ arrivals, Monotone a.clock)
    (horder : arrivals.Pairwise fun a b => ∀ m n, a.clock m ≤ b.clock n) :
    (∀ minute, (countedIn (history c uid st arrivals) minute : ℤ) ≤
      max 0 (c.tenantFactory uid).quota.requestsPerMin) ∧
    ∀ pre time post, history c uid st arrivals = pre ++ .refused time :: post →
      (c.tenantFactory uid).quota.requestsPerMin ≤
        countedIn pre (period .requestsPerMin time) := by
  have hstart : ∀ now, Exact (c.tenantFactory uid).quota.requestsPerMin uid [] st now := fun now =>
    ⟨fun _ => le_max_left 0 _, fun minute _ => hfresh minute, along_nil, fun _ h => by cases h⟩
  have hexact : ∃ st' now', Exact (c.tenantFactory uid).quota.requestsPerMin uid
      ([] ++ history c uid st arrivals) st' now' := by
    cases arrivals with
    | nil => exact ⟨st, 0, hstart 0⟩
    | cons a rest =>
      refine exact_history hfactory hclock horder (fun b hb n => ?_) (hstart (a.clock 0))
      rcases List.mem_cons.mp hb with rfl | hb
      · exact hclock b (by simp) (Nat.zero_le n)
      · exact (List.pairwise_cons.mp horder).1 b hb 0 n
  obtain ⟨st', now', h⟩ := hexact
  rw [List.nil_append] at h
  exact ⟨h.capped, fun pre time post hpre => h.refusals pre _ post hpre⟩

namespace Sample

open Pipeline.Sample Identity.Sample

/-- The default server, with one request a minute for everyone. -/
def server : Collaborators :=
  { TenantIsolation.Sample.server with
    tenantFactory := fun tid =>
      { Wiring.buildTenant tid with
        quota := { Wiring.defaultQuota with requestsPerMin := 1 } } }

/-- Requests at three times, the last one in the next minute. -/
def traffic : List Arrival :=
  [0, 10, 70].map fun time =>
    { TenantIsolation.Sample.arrival "user-1" with clock := fun _ => time }

end Sample

/-- The second request is turned away, and the third one is counted again. -/
theorem second_refused :
    (∀ minute, (countedIn (history Sample.server (py "user-1") {} Sample.traffic) minute : ℤ) ≤
      1) ∧
    history Sample.server (py "user-1") {} Sample.traffic =
      [.counted 0, .refused 10, .counted 70] :=
  ⟨(requests_capped Sample.server (py "user-1") {} Sample.traffic (fun _ => rfl) (fun _ => rfl)
    (by simp [Sample.traffic, monotone_const]) (by simp [Sample.traffic]; norm_num)).1,
    by decide +kernel⟩

end ModelDispatcher.RateCap
