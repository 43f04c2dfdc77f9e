import ModelDispatcher.Mediation

/-!
What a turn charges a tenant: the counters after an execution against the usage of the
response it returned.

A pass that reserves and does not serve leaves its reservation charged. The counters match the
usage exactly when these stranded reservations add up to nothing.
-/

namespace ModelDispatcher.Charges

open Lib.Text Lib.Logged Lib.Runs DataTypes Exceptions Config Providers Quota QuotaManager
open InMemoryQuotaStore Security Machines Handlers Chain Turns Refinement Mediation

variable {T : Turn}

/-! ### The balance of a log -/

/-- What an event adds to the token counters. -/
def tokensOf : Event → ℤ
  | .reserved _ _ _ (.ok d) => d.reservedTokens
  | .committed _ d u => u.totalTokens - d.reservedTokens
  | _ => 0

def chargeIn (es : List Event) : ℤ := (es.map tokensOf).sum

@[simp] lemma chargeIn_nil : chargeIn [] = 0 := rfl
@[simp] lemma chargeIn_cons (e : Event) (es : List Event) :
    chargeIn (e :: es) = tokensOf e + chargeIn es := by simp [chargeIn]
@[simp] lemma chargeIn_append (es fs : List Event) :
    chargeIn (es ++ fs) = chargeIn es + chargeIn fs := by simp [chargeIn]

lemma tokensOf_of_inert {e : Event} (h : Event.inert e) : tokensOf e = 0 := by
  cases e <;> simp_all [Event.inert, tokensOf]

lemma chargeIn_of_idle {es : List Event} (h : Idle es) : chargeIn es = 0 := by
  induction es with
  | nil => rfl
  | cons e es ih =>
    rw [chargeIn_cons, tokensOf_of_inert (h e (by simp)).1, ih fun e' he' => h e' (by simp [he'])]
    rfl

/-- The clock stays in one period of every window between two readings. -/
def NoRollover (clock : ℕ → ℚ) (m n : ℕ) : Prop :=
  ∀ k, m ≤ k → k < n → ∀ w, period w (clock k) = period w (clock m)

/-- A tenant's count of a window, as read at some reading of the clock. -/
def countAt (clock : ℕ → ℚ) (m : ℕ) (t : TenantId) (q : QuotaState) (w : WindowKey) : ℤ :=
  q.store.read (clock m) t w

lemma ticks_le_of_step {q q' : QuotaState} {e : Event} (h : QuotaStep T q e q') :
    q.ticks ≤ q'.ticks := by
  cases h with
  | inert => exact le_rfl
  | reserved p estimate =>
    have hcases := reserve_cases T.world.monotonic q T.tenant estimate p.name
    generalize (reserve T.world.monotonic T.tenant estimate p.name).run q = r at hcases ⊢
    cases hcases <;> simp
  | committed d u =>
    rw [commit_run]
    split_ifs <;> simp

/-- One event moves the token counters by what it charges. -/
lemma countAt_step {q q' : QuotaState} {e : Event} {m : ℕ} (h : QuotaStep T q e q')
    (hm : m ≤ q.ticks) (hroll : NoRollover T.world.monotonic m q'.ticks) {w : WindowKey}
    (hw : w ≠ .requestsPerMin) :
    countAt T.world.monotonic m T.tenant.tenantId q' w =
      countAt T.world.monotonic m T.tenant.tenantId q w + tokensOf e := by
  unfold countAt InMemoryQuotaStore.read
  cases h with
  | inert h => rw [tokensOf_of_inert h, add_zero]
  | reserved p estimate =>
    have hcases := reserve_cases T.world.monotonic q T.tenant estimate p.name
    generalize (reserve T.world.monotonic T.tenant estimate p.name).run q = r at hcases hroll ⊢
    cases hcases with
    | denied b => simp [tokensOf]
    | raised h => simp [tokensOf]
    | granted o b ho hfits =>
      have hoff : chargeOffset w < 6 := by cases w <;> simp [chargeOffset]
      have hp := hroll (q.ticks + chargeOffset w) (by omega) (by simp only [finalState_ok]; omega) w
      have hcharge : chargeOf estimate w = estimate := by cases w <;> trivial
      simp only [finalState_ok, answer_ok, tokensOf, countIn_charge, hp, if_true, hcharge]
  | committed d u =>
    rw [commit_run] at hroll ⊢
    split_ifs at hroll ⊢ with hzero
    · simp [tokensOf, hzero]
    · have hoff : settleOffset w < 2 := by cases w <;> simp [settleOffset]
      have hp := hroll (q.ticks + settleOffset w) (by omega) (by simp only [finalState_ok]; omega) w
      simp only [finalState_ok, tokensOf, countIn_settle, hp, hw, ne_eq, not_false_eq_true,
        and_self, if_true]

/-- A run of events moves the token counters by what they charge. -/
lemma countAt_run {q q' : QuotaState} {es : List Event} (h : Steps (QuotaStep T) q es q')
    (hroll : NoRollover T.world.monotonic q.ticks q'.ticks) {w : WindowKey}
    (hw : w ≠ .requestsPerMin) :
    q.ticks ≤ q'.ticks ∧
    countAt T.world.monotonic q.ticks T.tenant.tenantId q' w =
      countAt T.world.monotonic q.ticks T.tenant.tenantId q w + chargeIn es := by
  induction h with
  | refl => simp
  | @snoc es q₁ e q₂ _ hstep ih =>
    have hle := ticks_le_of_step hstep
    obtain ⟨hle', hcount⟩ := ih fun k hk hk' => hroll k hk (by omega)
    refine ⟨by omega, ?_⟩
    rw [countAt_step hstep hle' hroll hw, hcount, chargeIn_append, chargeIn_cons, chargeIn_nil]
    ring

/-! ### Stranded reservations -/

/-- What an event reserves. -/
def reservedOf : Event → ℤ
  | .reserved _ _ _ (.ok d) => d.reservedTokens
  | _ => 0

/-- The tokens a pass reserved, unless one of its calls returned a response. -/
def lost (body : List Event) : ℤ :=
  if body.any isReturn then 0 else (body.map reservedOf).sum

/-- The reservations of the candidates that did not serve. -/
def stranded (log : List Event) : ℤ := ((passes log).map lost).sum

/-- What a turn should cost. -/
def usageOf : Ended → ℤ
  | .served response => response.usage.totalTokens
  | _ => 0

/-- A pass that does not serve leaves what it reserved charged. -/
lemma chargeIn_of_unserved {es : List Event} (h : Unserved es) : chargeIn es = lost es := by
  have hany : es.any isReturn = false := by simpa using fun e he => (h e he).2
  rw [lost, hany, chargeIn, List.map_congr_left fun e he => ?_]
  · rfl
  · have hcommit := (h e he).1
    cases e with
    | reserved p n q r => cases r <;> rfl
    | committed => cases hcommit
    | _ => rfl

/-- A pass costs what it should, and what it strands. -/
lemma chargeIn_pass {p : ModelProvider} {body : List Event} {out : Ended}
    (h : PassLog T p body out) : chargeIn body = lost body + usageOf out := by
  have hcommits := commits_of_passLog h
  cases out with
  | served response =>
    obtain ⟨creds, q, d, mid, call, record, rfl, -, -, hmid⟩ := hcommits
    have hlost : lost (admitted T p creds q d ++ mid ++ [.called call (.returned response),
        .recorded record, .committed T.tenant d response.usage]) = 0 := by
      simp [lost, isReturn]
    rw [hlost, chargeIn_append, chargeIn_append, chargeIn_of_idle hmid]
    simp [admitted, tokensOf, usageOf]
  | failed => simp [chargeIn_of_unserved hcommits, usageOf]
  | raised e => simp [chargeIn_of_unserved hcommits, usageOf]

/-- A turn costs what it should, and what its passes strand. -/
lemma chargeIn_turn {candidates : List ModelProvider} {es : List Event} {out : Ended}
    (h : TurnLog T candidates es out) : chargeIn es = stranded es + usageOf out := by
  induction h with
  | exhausted => rfl
  | next h hrest ih =>
    have hpass := chargeIn_pass h
    rw [stranded, passes_next h hrest]
    simp only [stranded] at ih
    simp only [chargeIn_append, chargeIn_cons, List.map_cons, List.sum_cons, ih, hpass, usageOf,
      tokensOf]
    ring
  | ended h =>
    have hpass := chargeIn_pass h
    rw [stranded, passes_ended h]
    simp [hpass, tokensOf]

/-- A token counter has moved by the usage of the response, or is back where it was. -/
def ChargeMatches (w : World) (c : InvocationContext) (q : QuotaState)
    (r : EStateM.Result PyException Machine CompletionResponse) (window : WindowKey) : Prop :=
  countAt w.monotonic q.ticks c.tenant.tenantId (finalState r).quota window =
    countAt w.monotonic q.ticks c.tenant.tenantId q window +
      match answer r with
      | .ok response => response.usage.totalTokens
      | .error _ => 0

/-- **When the charge equals the usage.** If no window rolls over during an execution, both
token counters move by the usage of the response, or not at all when it raises, exactly when
the candidates that were granted a reservation and did not serve reserved nothing in all. -/
theorem charge_matches_iff_nothing_stranded (w : World) (settings : GatewaySettings)
    (c : InvocationContext) (q : QuotaState)
    (hroll : NoRollover w.monotonic q.ticks (finalState (executed w settings c q)).quota.ticks) :
    (ChargeMatches w c q (executed w settings c q) .tokensPerMin ∧
      ChargeMatches w c q (executed w settings c q) .tokensPerDay) ↔
    stranded (finalState (executed w settings c q)).log = 0 := by
  obtain ⟨out, hturn, hends, htraced⟩ := executed_turn w settings c q
  have hcharge := chargeIn_turn hturn
  have hcount : ∀ window, window ≠ .requestsPerMin →
      countAt w.monotonic q.ticks c.tenant.tenantId (finalState (executed w settings c q)).quota
        window = countAt w.monotonic q.ticks c.tenant.tenantId q window +
          chargeIn (finalState (executed w settings c q)).log :=
    fun window hw => (countAt_run htraced.quota hroll hw).2
  have husage : (match answer (executed w settings c q) with
      | .ok response => response.usage.totalTokens
      | .error _ => 0) = usageOf out := by
    generalize executed w settings c q = r at hends
    cases hends <;> rfl
  unfold ChargeMatches
  rw [husage]
  rw [hcount _ (by simp), hcount _ (by simp), hcharge]
  omega

/-- A rate-limited candidate, then one that serves: the turn is charged the reservation of the
first besides the usage of the second. -/
theorem failover_strands_reservation :
    ¬ ∀ (w : World) (settings : GatewaySettings) (c : InvocationContext) (q : QuotaState),
      c.candidates ≠ [] →
      NoRollover w.monotonic q.ticks (finalState (executed w settings c q)).quota.ticks →
      ChargeMatches w c q (executed w settings c q) .tokensPerMin ∧
        ChargeMatches w c q (executed w settings c q) .tokensPerDay := by
  intro h
  have hmin := (h (Sample.world "429" 5) {} ⟨Sample.request, Sample.tenant,
    [Sample.provider "p" .free, Sample.provider "q" .free]⟩ {} (by simp)
    fun _ _ _ _ => rfl).1
  revert hmin
  unfold ChargeMatches
  decide +kernel

/-- One candidate that serves is charged its usage. -/
theorem charge_matches_when_first_serves :
    ChargeMatches (Sample.world "" 0)
        ⟨Sample.request, Sample.tenant, [Sample.provider "p" .free]⟩ {}
        (executed (Sample.world "" 0) {}
          ⟨Sample.request, Sample.tenant, [Sample.provider "p" .free]⟩ {}) .tokensPerMin ∧
      ChargeMatches (Sample.world "" 0)
        ⟨Sample.request, Sample.tenant, [Sample.provider "p" .free]⟩ {}
        (executed (Sample.world "" 0) {}
          ⟨Sample.request, Sample.tenant, [Sample.provider "p" .free]⟩ {}) .tokensPerDay :=
  (charge_matches_iff_nothing_stranded (Sample.world "" 0) {} _ {} fun _ _ _ _ => rfl).mpr
    (by decide +kernel)

end ModelDispatcher.Charges
