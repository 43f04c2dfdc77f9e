import ModelDispatcher.Backoff
import ModelDispatcher.Lib.Logged

/-!
How often the retry interceptor of the TypeScript client calls what is behind it, after which
answers, and how long it sleeps in between, wherever it stands in a chain.
-/

namespace ModelDispatcher.Retrying

open Lib.Js Lib.Binary64 Lib.Logged Lib.Promises Backoff GatewayClient

/-! ### The calls of one request -/

abbrev Outcome := EStateM.Result (Halt Thrown) (List Event) Response

/-- A call of what is behind the interceptor: what had happened before, and how it ends. -/
structure Call where
  before : List Event
  outcome : Outcome

def Call.response (call : Call) : Option Response :=
  match call.outcome with
  | .ok response _ => some response
  | .error _ _ => none

/-- What has happened when a call is over. -/
def Call.after (call : Call) : List Event := finalState call.outcome

def retryable (policy : RetryPolicy) (response : Response) : Bool :=
  policy.retryableStatuses.contains response.status

/-- After each call of some, with some retries before, and before the one after it. -/
def Chained (R : ℕ → Call → Call → Prop) : ℕ → List Call → Prop
  | n, call :: call' :: calls => R n call call' ∧ Chained R (n + 1) (call' :: calls)
  | _, _ => True

section

variable (runtime : Runtime) (options : RetryOptions) (policy : RetryPolicy)
variable (config : GatewayRequestConfig) (next : Send)

/-- The delay after a call, with some retries before. -/
def delay (n : ℕ) (after : List Event) : Double :=
  backoffDelayMs policy (min n (2 ^ 53)) ((options.random.getD runtime.random) after)

/-- The timer of that delay. -/
def timer (n : ℕ) (after : List Event) : Settled Thrown Unit :=
  (options.scheduler.getD runtime.setTimeout) after (delay runtime options policy n after)

/-- What there is between a call and the one after it, with some retries before: the first one
brought a status to retry, and the timer of the delay went off. -/
def Reissued (n : ℕ) (call call' : Call) : Prop :=
  ∃ response after, call.outcome = .ok response after ∧ policy.retries (min n (2 ^ 53)) response ∧
    timer runtime options policy n after = .fulfilled () ∧
    call'.before = after ++ [.slept (delay runtime options policy n after) (.fulfilled ())]

/-- The outcome of the last call, which is no response that is still to be retried. -/
def Finished (n : ℕ) (call : Call) (r : Outcome) : Prop :=
  r = call.outcome ∧ ∀ response ∈ call.response, ¬ policy.retries (min n (2 ^ 53)) response

/-- The timer of the delay after the last call rejects, or stays pending. -/
def Stuck (n : ℕ) (call : Call) (r : Outcome) : Prop :=
  ∃ response after halt, call.outcome = .ok response after ∧
    policy.retries (min n (2 ^ 53)) response ∧
    (timer runtime options policy n after).halt = some halt ∧
    r = .error halt (after ++
      [.slept (delay runtime options policy n after) (timer runtime options policy n after)])

/-- The last call is to be retried, and there is no more fuel. -/
def GoesOn (n : ℕ) (call : Call) (r : Outcome) : Prop :=
  ∃ response after, call.outcome = .ok response after ∧ policy.retries (min n (2 ^ 53)) response ∧
    r = .error .running after

/-- The calls of a run with some fuel from a log on, with some retries before. -/
structure Law (fuel n : ℕ) (log : List Event) (calls : List Call) (r : Outcome) : Prop where
  made : ∀ call ∈ calls, call.outcome = (next config).run call.before
  first : calls.head?.map (·.before) = some log
  chained : Chained (Reissued runtime options policy) n calls
  last : ∃ earlier call, calls = earlier ++ [call] ∧
    (Finished policy (n + earlier.length) call r ∨
      Stuck runtime options policy (n + earlier.length) call r ∨
      GoesOn policy (n + earlier.length) call r ∧ earlier.length = fuel)

/-- The calls that the loop makes. -/
def trace : ℕ → ℕ → List Event → List Call
  | 0, _, log => [⟨log, (next config).run log⟩]
  | fuel + 1, n, log => ⟨log, (next config).run log⟩ ::
    match (next config).run log with
    | .error _ _ => []
    | .ok response after =>
      if policy.retries (min n (2 ^ 53)) response then
        match timer runtime options policy n after with
        | .fulfilled u =>
          trace fuel (n + 1)
            (after ++ [.slept (delay runtime options policy n after) (.fulfilled u)])
        | _ => []
      else []

variable {runtime options policy config next}

lemma head_trace (fuel n : ℕ) (log : List Event) :
    ∃ calls, trace runtime options policy config next fuel n log =
      ⟨log, (next config).run log⟩ :: calls := by
  cases fuel with
  | zero => exact ⟨[], rfl⟩
  | succ fuel => exact ⟨_, rfl⟩

/-- With more fuel the loop goes on from where it was. -/
lemma trace_begins {fuel fuel' : ℕ} (hle : fuel ≤ fuel') (n : ℕ) (log : List Event) :
    trace runtime options policy config next fuel n log <+:
      trace runtime options policy config next fuel' n log := by
  induction fuel generalizing fuel' n log with
  | zero =>
    obtain ⟨calls, hcalls⟩ := @head_trace runtime _ _ _ _ fuel' n log
    rw [hcalls]
    exact ⟨calls, rfl⟩
  | succ fuel ih =>
    obtain ⟨fuel', rfl⟩ := Nat.exists_eq_add_of_le' (Nat.one_le_of_lt hle)
    unfold trace
    refine (List.prefix_cons_inj _).mpr ?_
    split
    · exact List.prefix_rfl
    · split_ifs
      · split
        · exact ih (by omega) _ _
        · exact List.prefix_rfl
      · exact List.prefix_rfl

/-- A run that ends with its first call, or goes on without fuel. -/
lemma law_single {fuel n : ℕ} {log : List Event} {outcome r : Outcome}
    (hmade : (next config).run log = outcome)
    (hlast : Finished policy n ⟨log, outcome⟩ r ∨
      Stuck runtime options policy n ⟨log, outcome⟩ r ∨
        GoesOn policy n ⟨log, outcome⟩ r ∧ 0 = fuel) :
    Law runtime options policy config next fuel n log [⟨log, outcome⟩] r where
  made := by simpa using hmade.symm
  first := rfl
  chained := trivial
  last := ⟨[], _, rfl, hlast⟩

/-- A run that ends with a response that is not retried. -/
lemma law_done {fuel n : ℕ} {log after : List Event} {response : Response}
    (hmade : (next config).run log = .ok response after)
    (hretry : ¬ policy.retries (min n (2 ^ 53)) response) :
    Law runtime options policy config next fuel n log [⟨log, .ok response after⟩]
      (.ok response after) := by
  refine law_single hmade (.inl ⟨rfl, fun response' h => ?_⟩)
  cases h
  exact hretry

/-- A run that ends with the timer after its first call. -/
lemma law_stuck {fuel n : ℕ} {log after : List Event} {response : Response} {halt : Halt Thrown}
    (hmade : (next config).run log = .ok response after)
    (hretry : policy.retries (min n (2 ^ 53)) response)
    (hhalt : (timer runtime options policy n after).halt = some halt) :
    Law runtime options policy config next fuel n log [⟨log, .ok response after⟩]
      (.error halt (after ++ [.slept (delay runtime options policy n after)
        (timer runtime options policy n after)])) :=
  law_single hmade (.inr (.inl ⟨response, after, halt, rfl, hretry, hhalt, rfl⟩))

/-- A call in front of the run that reissues it. -/
lemma Law.cons {fuel n : ℕ} {log after : List Event} {outcome : Outcome} {calls : List Call}
    {r : Outcome} (h : Law runtime options policy config next fuel (n + 1) after calls r)
    (hmade : (next config).run log = outcome)
    (hreissued : ∀ call' : Call, call'.before = after →
      Reissued runtime options policy n ⟨log, outcome⟩ call') :
    Law runtime options policy config next (fuel + 1) n log (⟨log, outcome⟩ :: calls) r := by
  obtain ⟨earlier, call, hcalls, hlast⟩ := h.last
  refine ⟨List.forall_mem_cons.mpr ⟨hmade.symm, h.made⟩, rfl, ?_, ?_⟩
  · cases calls with
    | nil => cases h.first
    | cons call' calls => exact ⟨hreissued call' (Option.some.inj h.first), h.chained⟩
  · refine ⟨⟨log, outcome⟩ :: earlier, call, by rw [hcalls]; rfl, ?_⟩
    rw [List.length_cons, ← Nat.add_assoc, Nat.add_right_comm n]
    exact hlast.imp_right (Or.imp_right fun ⟨hgoes, hfuel⟩ => ⟨hgoes, by omega⟩)

end

/-! ### The loop -/

section

variable (runtime : Runtime) (options : RetryOptions) (policy : RetryPolicy)
variable (config : GatewayRequestConfig) (next : Send)

/-- A call, and the loop after it. -/
def tries (fuel attempt : ℕ) : Client Response := do
  let response ← next config
  retryLoop runtime options policy config next fuel attempt response

/-- The counter is what adding one to a double gives: from `2 ^ 53` on, the double itself. -/
lemma add_one_eq {n : ℕ} (h : n ≤ 2 ^ 53) : (ofRat n).add (ofRat 1) = ofRat (increment n) := by
  have hone : ofRat 1 = .fin (Finite.ofInt 1 (by decide)) :=
    ofRat_natCast 1 (by decide) (by norm_num)
  have hpos : (Finite.ofInt n h).neg = false := by simp [Finite.ofInt]
  have hunits : (((Finite.ofInt n h).units + (Finite.ofInt 1 (by decide)).units : ℕ) : ℚ) =
      (n + 1 : ℕ) * scale := by
    simp only [Finite.ofInt, Int.natAbs_natCast, Int.natAbs_one]
    push_cast
    ring
  rw [ofRat_natCast n h rfl, hone, Double.add_fin hpos rfl,
    ofRat_eq_rounded (Nat.cast_nonneg _)]
  unfold increment
  split_ifs with hlt
  · simp only [hunits]
  · obtain rfl : n = 2 ^ 53 := by omega
    simp only [hunits]
    unfold rounded
    simp only [roundUnits_two_pow_add_one]

lemma increment_min (n : ℕ) : increment (min n (2 ^ 53)) = min (n + 1) (2 ^ 53) := by
  unfold increment
  split_ifs <;> omega

/-- The loop obeys the law, by induction on the fuel. -/
lemma law_trace (fuel : ℕ) : ∀ (n : ℕ) (log : List Event),
    Law runtime options policy config next fuel n log
      (trace runtime options policy config next fuel n log)
      ((tries runtime options policy config next fuel (min n (2 ^ 53))).run log) := by
  induction fuel with
  | zero =>
    intro n log
    rw [tries, EStateM.run_bind, trace]
    cases hcall : (next config).run log with
    | error halt after => exact law_single hcall (.inl ⟨rfl, nofun⟩)
    | ok response after =>
      dsimp only
      rw [retryLoop]
      split_ifs with hretry
      · exact law_single hcall (.inr (.inr ⟨⟨response, after, rfl, hretry, rfl⟩, rfl⟩))
      · exact law_done hcall hretry
  | succ fuel ih =>
    intro n log
    rw [tries, EStateM.run_bind, trace]
    cases hcall : (next config).run log with
    | error halt after => exact law_single hcall (.inl ⟨rfl, nofun⟩)
    | ok response after =>
      dsimp only
      rw [retryLoop]
      split_ifs with hretry
      · have hsleep : (options.sleep runtime policy (min n (2 ^ 53))).run after =
            (await (timer runtime options policy n after) : Client Unit).run
              (after ++ [.slept (delay runtime options policy n after)
                (timer runtime options policy n after)]) := rfl
        rw [EStateM.run_bind, hsleep]
        have hstuck := fun halt => @law_stuck runtime options policy config next fuel.succ n log
          after response halt hcall hretry
        cases htimer : timer runtime options policy n after with
        | fulfilled u =>
          have hrest := ih (n + 1)
            (after ++ [.slept (delay runtime options policy n after) (.fulfilled u)])
          rw [← increment_min] at hrest
          exact hrest.cons hcall fun call' hbefore =>
            ⟨response, after, rfl, hretry, htimer, hbefore⟩
        | rejected e =>
          rw [htimer] at hstuck
          exact hstuck _ rfl
        | pending =>
          rw [htimer] at hstuck
          exact hstuck _ rfl
      · exact law_done hcall hretry

end

/-! ### How many calls there are -/

section

variable {runtime : Runtime} {options : RetryOptions} {policy : RetryPolicy}
variable {config : GatewayRequestConfig} {next : Send}

/-- The length of the longest prefix to retry, of any responses that those of the calls begin. -/
def met (policy : RetryPolicy) (calls : List Call) (more : List Response) : ℕ :=
  ((calls.filterMap Call.response ++ more).takeWhile (retryable policy)).length

/-- So many calls are one more than the lesser of the retries and a number. -/
def Counted (maxRetries : Double) (k calls : ℕ) : Prop :=
  match maxRetries with
  | .fin m => (calls : ℚ) = 1 + min m.val k
  | .inf false => calls = 1 + k
  | _ => False

/-- The number of a counter: a whole number that adding one reaches. -/
def IsCount (maxRetries : Double) : Prop :=
  ∃ x : Finite, maxRetries = .fin x ∧ ∃ m : ℕ, m ≤ 2 ^ 53 ∧ x.val = m

lemma isCount_fin {m : Finite} : IsCount (.fin m) ↔ ∃ k : ℕ, k ≤ 2 ^ 53 ∧ m.val = k := by
  constructor
  · rintro ⟨x, hx, h⟩
    cases hx
    exact h
  · exact fun h => ⟨m, rfl, h⟩

/-- What is retried has a status to retry, and leaves a retry for it. -/
structure Earlier (policy : RetryPolicy) (n : ℕ) (earlier : List Call) : Prop where
  retried : ∀ call ∈ earlier, ∃ response, call.response = some response ∧ retryable policy response
  left : ∀ m, earlier.length = m + 1 → (ofRat (min (n + m) (2 ^ 53) : ℕ)).lt policy.maxRetries

lemma earlier_of_chained (earlier : List Call) : ∀ {n : ℕ} {call : Call},
    Chained (Reissued runtime options policy) n (earlier ++ [call]) → Earlier policy n earlier := by
  induction earlier with
  | nil => exact fun _ => ⟨nofun, nofun⟩
  | cons first earlier ih =>
    intro n call h
    obtain ⟨call', rest, hrest⟩ : ∃ call' rest, earlier ++ [call] = call' :: rest := by
      cases earlier <;> exact ⟨_, _, rfl⟩
    rw [List.cons_append, hrest] at h
    obtain ⟨⟨response, after, houtcome, hretries, -, -⟩, hchained⟩ := h
    rw [← hrest] at hchained
    obtain ⟨hretried, hleft⟩ := ih hchained
    have hboth := Bool.and_eq_true_iff.mp hretries
    refine ⟨List.forall_mem_cons.mpr ⟨⟨response, ?_, hboth.1⟩, hretried⟩, fun m hm => ?_⟩
    · rw [Call.response, houtcome]
    · rw [List.length_cons, Nat.add_right_cancel_iff] at hm
      cases m with
      | zero => exact hboth.2
      | succ m =>
        rw [Nat.add_comm m, ← Nat.add_assoc]
        exact hleft m hm

lemma met_append {n : ℕ} {earlier : List Call} (h : Earlier policy n earlier) (call : Call)
    (more : List Response) :
    met policy (earlier ++ [call]) more = earlier.length + met policy [call] more := by
  have hlength : (earlier.filterMap Call.response).length = earlier.length := by
    rw [List.filterMap_length_eq_length]
    exact fun call hcall => let ⟨_, hresponse, _⟩ := h.retried call hcall; by simp [hresponse]
  have hall : ∀ response ∈ earlier.filterMap Call.response, retryable policy response := by
    intro response hmem
    obtain ⟨call, hcall, hresponse⟩ := List.mem_filterMap.mp hmem
    obtain ⟨response', hresponse', hretryable⟩ := h.retried call hcall
    cases hresponse.symm.trans hresponse'
    exact hretryable
  rw [met, List.filterMap_append, List.append_assoc, List.takeWhile_append_of_pos hall,
    List.length_append, hlength, met]

lemma met_of_retryable {call : Call} {response : Response} (h : call.response = some response)
    (hretry : retryable policy response) (more : List Response) :
    met policy [call] more = 1 + (more.takeWhile (retryable policy)).length := by
  rw [met, List.filterMap_cons_some h, List.filterMap_nil, List.singleton_append,
    List.takeWhile_cons_of_pos hretry, List.length_cons, Nat.add_comm]

lemma met_of_not_retryable {call : Call} {response : Response} (h : call.response = some response)
    (hretry : ¬ retryable policy response) (more : List Response) :
    met policy [call] more = 0 := by
  rw [met, List.filterMap_cons_some h, List.filterMap_nil, List.singleton_append,
    List.takeWhile_cons_of_neg hretry, List.length_nil]

section

variable {v : ℚ} {j : ℕ} (h0 : 0 ≤ v)
  (hleft : ∀ m, j = m + 1 → ((min m (2 ^ 53) : ℕ) : ℚ) < v)
include h0 hleft

/-- A count is not exceeded. -/
lemma le_of_isCount {m : ℕ} (hm : m ≤ 2 ^ 53) (hv : v = m) : (j : ℚ) ≤ v := by
  subst hv
  cases j with
  | zero => exact_mod_cast h0
  | succ i =>
    have hlt : min i (2 ^ 53) < m := by exact_mod_cast hleft i rfl
    have hle : i + 1 ≤ m := by omega
    exact_mod_cast hle

/-- When no retry is left after so many. -/
lemma exhausted_iff (hlast : v ≤ (min j (2 ^ 53) : ℕ)) :
    (∀ t : ℕ, ((j + 1 : ℕ) : ℚ) = 1 + min v (j + (1 + t) : ℕ)) ↔
      ∃ m : ℕ, m ≤ 2 ^ 53 ∧ v = m := by
  have hj : v ≤ j := hlast.trans (by exact_mod_cast min_le_left j (2 ^ 53))
  have hmin : ∀ t : ℕ, min v ((j + (1 + t) : ℕ) : ℚ) = v := fun t =>
    min_eq_left (hj.trans (by exact_mod_cast Nat.le_add_right j (1 + t)))
  constructor
  · intro h
    have hv : v = j := by
      have hzero := h 0
      rw [hmin] at hzero
      push_cast at hzero
      linarith
    refine ⟨j, ?_, hv⟩
    rw [hv] at hlast
    have hle : j ≤ min j (2 ^ 53) := by exact_mod_cast hlast
    exact hle.trans (min_le_right _ _)
  · rintro ⟨m, hm, hv⟩ t
    rw [hmin, le_antisymm hj (le_of_isCount h0 hleft hm hv)]
    push_cast
    ring

/-- When the responses to retry have come to an end. -/
lemma ended_iff : ((j + 1 : ℕ) : ℚ) = 1 + min v j ↔
    (∃ m : ℕ, m ≤ 2 ^ 53 ∧ v = m) ∨ ¬ v < j := by
  have hiff : ((j + 1 : ℕ) : ℚ) = 1 + min v j ↔ (j : ℚ) ≤ v := by
    rw [← min_eq_right_iff]
    push_cast
    constructor <;> intro h <;> linarith
  rw [hiff, not_lt]
  exact ⟨.inr, fun h => h.elim (fun ⟨m, hm, hv⟩ => le_of_isCount h0 hleft hm hv) id⟩

end

/-- A run that comes back has the right number of calls exactly when the retries are a count, or are
not exceeded. -/
lemma counted_iff {earlier : List Call} {call : Call} {response : Response}
    (hmax : (ofRat 0).le policy.maxRetries) (hearlier : Earlier policy 0 earlier)
    (hresponse : call.response = some response)
    (hlast : ¬ policy.retries (min earlier.length (2 ^ 53)) response) :
    (∀ more,
      Counted policy.maxRetries (met policy (earlier ++ [call]) more) (earlier.length + 1)) ↔
      IsCount policy.maxRetries ∨
        ¬ policy.maxRetries.ltRat (met policy (earlier ++ [call]) []) := by
  simp only [met_append hearlier]
  have hbound : ∀ n, min n (2 ^ 53) ≤ 2 ^ 53 := fun n => min_le_right n _
  rcases hm : policy.maxRetries with _ | neg | m
  · rw [hm] at hmax
    exact absurd hmax Double.not_le_nan
  · rw [hm, Double.nonneg_inf] at hmax
    subst hmax
    have hretry : ¬ retryable policy response := by
      intro hretry
      refine hlast (Bool.and_eq_true_iff.mpr ⟨hretry, ?_⟩)
      rw [hm]
      exact (Double.natCast_lt_inf (hbound _)).mpr rfl
    simp only [met_of_not_retryable hresponse hretry, Nat.add_zero]
    exact iff_of_true (fun _ => Nat.add_comm _ _) (.inr Bool.false_ne_true)
  · have h0 : 0 ≤ m.val := by
      rwa [hm, Double.nonneg_fin, ← Finite.val_nonneg] at hmax
    have hleft : ∀ i, earlier.length = i + 1 → ((min i (2 ^ 53) : ℕ) : ℚ) < m.val := by
      intro i hi
      have hlt := hearlier.left i hi
      rwa [Nat.zero_add, hm, Double.natCast_lt_fin (hbound i)] at hlt
    rw [isCount_fin]
    have hltRat : ∀ k : ℕ, (Double.fin m).ltRat k ↔ m.val < k := fun k => decide_eq_true_iff
    by_cases hretry : retryable policy response
    · have hexhausted : m.val ≤ (min earlier.length (2 ^ 53) : ℕ) := by
        refine not_lt.mp fun hlt => hlast (Bool.and_eq_true_iff.mpr ⟨hretry, ?_⟩)
        rw [hm]
        exact (Double.natCast_lt_fin (hbound _)).mpr hlt
      have hmore : m.val < ((earlier.length + (1 + 0) : ℕ) : ℚ) := by
        have hle : min earlier.length (2 ^ 53) < earlier.length + (1 + 0) := by omega
        exact hexhausted.trans_lt (by exact_mod_cast hle)
      simp only [met_of_retryable hresponse hretry, List.takeWhile_nil, List.length_nil]
      rw [hltRat, or_iff_left (not_not.mpr hmore), ← exhausted_iff h0 hleft hexhausted]
      refine ⟨fun h t => ?_, fun h more => h _⟩
      have hall := h (List.replicate t response)
      rwa [List.takeWhile_replicate, if_pos hretry, List.length_replicate] at hall
    · simp only [met_of_not_retryable hresponse hretry, Nat.add_zero]
      rw [hltRat, forall_const]
      exact ended_iff h0 hleft

end

/-! ### The law -/

section

variable (runtime : Runtime) (options : RetryOptions) (policy : RetryPolicy)

/-- What else is asked of the calls and the outcomes of a run, for every amount of fuel: the number
of calls where the run comes back, and where it never ends; and the delay before each reissue. -/
structure Kept (calls : ℕ → List Call) (r : ℕ → Outcome) : Prop where
  count : ∀ fuel response log, r fuel = .ok response log → ∀ more,
    Counted policy.maxRetries (met policy (calls fuel) more) (calls fuel).length
  endless : (∀ n, ∃ fuel, n < (calls fuel).length) → ∀ n : ℕ, ¬ policy.maxRetries.ltRat n
  delays : ∀ fuel, Chained (fun n _ call' => ∀ ms timer,
    call'.before.getLast? = some (.slept ms timer) → InBounds policy n ms) 0 (calls fuel)

/-- A call throws, or the timer after it fails. -/
def Breaks (calls : ℕ → List Call) (r : ℕ → Outcome) : Prop :=
  ∃ fuel earlier call, calls fuel = earlier ++ [call] ∧
    (call.response = none ∨ Stuck runtime options policy earlier.length call (r fuel))

/-- The retries are a count, or something breaks the run, or there are no more responses to retry
than retries; and each delay fits. -/
structure Fits (calls : ℕ → List Call) (r : ℕ → Outcome) : Prop where
  count : IsCount policy.maxRetries ∨ Breaks runtime options policy calls r ∨
    ∀ fuel, ¬ policy.maxRetries.ltRat (met policy (calls fuel) [])
  delays : ∀ fuel, Chained (fun n call _ =>
    DelayFits policy n ((options.random.getD runtime.random) call.after)) 0 (calls fuel)

end

section

variable {runtime : Runtime} {options : RetryOptions} {policy : RetryPolicy}
variable {config : GatewayRequestConfig} {next : Send} {log : List Event}

lemma chained_iff {P Q R : ℕ → Call → Call → Prop}
    (h : ∀ n call call', R n call call' → (P n call call' ↔ Q n call call')) :
    ∀ {calls : List Call} {n : ℕ}, Chained R n calls → (Chained P n calls ↔ Chained Q n calls)
  | [], _, _ => Iff.rfl
  | [_], _, _ => Iff.rfl
  | _ :: _ :: _, _, hchained => and_congr (h _ _ _ hchained.1) (chained_iff h hchained.2)

lemma chained_middle {R : ℕ → Call → Call → Prop} {call call' : Call} {rest : List Call}
    (earlier : List Call) : ∀ {n : ℕ}, Chained R n (earlier ++ call :: call' :: rest) →
      R (n + earlier.length) call call' := by
  induction earlier with
  | nil => exact fun h => h.1
  | cons first earlier ih =>
    intro n h
    rw [List.length_cons, Nat.add_comm earlier.length, ← Nat.add_assoc]
    refine ih ?_
    cases earlier <;> exact h.2

lemma not_reissued {n : ℕ} {call call' : Call} {r : Outcome}
    (h : Finished policy n call r ∨ Stuck runtime options policy n call r) :
    ¬ Reissued runtime options policy n call call' := by
  rintro ⟨response, after, houtcome, hretries, htimer, -⟩
  have hresponse : call.response = some response := by rw [Call.response, houtcome]
  rcases h with ⟨-, hend⟩ | ⟨response', after', halt, houtcome', -, hhalt, -⟩
  · exact hend response hresponse hretries
  · cases houtcome.symm.trans houtcome'
    rw [htimer] at hhalt
    cases hhalt

/-- A run that has ended makes no more calls. -/
lemma calls_of_ended {calls calls' : List Call} {fuel : ℕ} {r r' : Outcome}
    (h' : Law runtime options policy config next fuel 0 log calls' r') (hbegins : calls <+: calls')
    {earlier : List Call} {call : Call} (hcalls : calls = earlier ++ [call])
    (hend : Finished policy earlier.length call r ∨
      Stuck runtime options policy earlier.length call r) : calls' = calls := by
  obtain ⟨rest, rfl⟩ := hbegins
  cases rest with
  | nil => exact List.append_nil _
  | cons call' rest =>
    have hchained := h'.chained
    rw [hcalls, List.append_assoc] at hchained
    have hreissued := chained_middle earlier hchained
    rw [Nat.zero_add] at hreissued
    exact absurd hreissued (not_reissued hend)

/-- What the calls and the outcomes of a run are, for every amount of fuel. -/
structure Runs (runtime : Runtime) (options : RetryOptions) (policy : RetryPolicy)
    (config : GatewayRequestConfig) (next : Send) (log : List Event) (calls : ℕ → List Call)
    (r : ℕ → Outcome) : Prop where
  law : ∀ fuel, Law runtime options policy config next fuel 0 log (calls fuel) (r fuel)
  begins : ∀ fuel fuel', fuel ≤ fuel' → calls fuel <+: calls fuel'

section

variable {calls : ℕ → List Call} {r : ℕ → Outcome}

lemma Runs.ends (h : Runs runtime options policy config next log calls r) (fuel : ℕ) :
    ∃ earlier call, calls fuel = earlier ++ [call] ∧ Earlier policy 0 earlier ∧
      (Finished policy earlier.length call (r fuel) ∨
        Stuck runtime options policy earlier.length call (r fuel) ∨
        GoesOn policy earlier.length call (r fuel) ∧ earlier.length = fuel) := by
  obtain ⟨earlier, call, hcalls, hlast⟩ := (h.law fuel).last
  rw [Nat.zero_add] at hlast
  exact ⟨earlier, call, hcalls, earlier_of_chained earlier (hcalls ▸ (h.law fuel).chained), hlast⟩

/-- What has ended is the same for every other fuel that it has ended with. -/
lemma Runs.same (h : Runs runtime options policy config next log calls r) {fuel fuel' : ℕ}
    {earlier earlier' : List Call} {call call' : Call}
    (hcalls : calls fuel = earlier ++ [call]) (hcalls' : calls fuel' = earlier' ++ [call'])
    (hend : Finished policy earlier.length call (r fuel) ∨
      Stuck runtime options policy earlier.length call (r fuel))
    (hend' : Finished policy earlier'.length call' (r fuel') ∨
      Stuck runtime options policy earlier'.length call' (r fuel')) :
    earlier = earlier' ∧ call = call' := by
  have hsame : earlier ++ [call] = earlier' ++ [call'] := by
    rw [← hcalls, ← hcalls']
    rcases Nat.le_total fuel fuel' with hle | hle
    · exact (calls_of_ended (h.law fuel') (h.begins _ _ hle) hcalls hend).symm
    · exact calls_of_ended (h.law fuel) (h.begins _ _ hle) hcalls' hend'
  exact ⟨(List.append_inj' hsame rfl).1, List.singleton_inj.mp (List.append_inj' hsame rfl).2⟩

/-- Where a run comes back, its last response is not to be retried any more. -/
lemma Runs.returned (h : Runs runtime options policy config next log calls r) {fuel : ℕ}
    {response : Response} {t : List Event} (hr : r fuel = .ok response t) :
    ∃ earlier call, calls fuel = earlier ++ [call] ∧ Earlier policy 0 earlier ∧
      call.response = some response ∧ ¬ policy.retries (min earlier.length (2 ^ 53)) response ∧
      Finished policy earlier.length call (r fuel) := by
  obtain ⟨earlier, call, hcalls, hearlier, hlast⟩ := h.ends fuel
  rcases hlast with hfinished | ⟨_, _, _, _, _, _, hstuck⟩ | ⟨⟨_, _, _, _, hgoes⟩, -⟩
  · have hresponse : call.response = some response := by
      rw [Call.response, ← hfinished.1, hr]
    exact ⟨earlier, call, hcalls, hearlier, hresponse, hfinished.2 response hresponse, hfinished⟩
  · cases hr.symm.trans hstuck
  · cases hr.symm.trans hgoes

/-- Where a call throws or its timer fails, the run has ended. -/
lemma Runs.broken (h : Runs runtime options policy config next log calls r)
    (hbreaks : Breaks runtime options policy calls r) : ∃ fuel earlier call,
      calls fuel = earlier ++ [call] ∧
      (Finished policy earlier.length call (r fuel) ∨
        Stuck runtime options policy earlier.length call (r fuel)) ∧
      ∀ response, call.response = some response →
        policy.retries (min earlier.length (2 ^ 53)) response := by
  obtain ⟨fuel, earlier, call, hcalls, hbreak⟩ := hbreaks
  obtain ⟨earlier', call', hcalls', -, hlast⟩ := h.ends fuel
  have hsame := hcalls.symm.trans hcalls'
  obtain rfl : earlier = earlier' := (List.append_inj' hsame rfl).1
  obtain rfl : call = call' := List.singleton_inj.mp (List.append_inj' hsame rfl).2
  refine ⟨fuel, earlier, call, hcalls, ?_⟩
  rcases hbreak with hnone | hstuck
  · rcases hlast with hfinished | hstuck | ⟨⟨response, after, houtcome, -⟩, -⟩
    · exact ⟨.inl hfinished, fun response hresponse => nomatch hnone.symm.trans hresponse⟩
    · exact ⟨.inr hstuck, fun response hresponse => nomatch hnone.symm.trans hresponse⟩
    · rw [Call.response, houtcome] at hnone
      cases hnone
  · refine ⟨.inr hstuck, fun response hresponse => ?_⟩
    obtain ⟨response', after, halt, houtcome, hretries, -⟩ := hstuck
    rw [Call.response, houtcome] at hresponse
    cases hresponse
    exact hretries

lemma not_breaks_of_returned (h : Runs runtime options policy config next log calls r) {fuel : ℕ}
    {response : Response} {t : List Event} (hr : r fuel = .ok response t) :
    ¬ Breaks runtime options policy calls r := by
  intro hbreaks
  obtain ⟨earlier, call, hcalls, -, hresponse, hnot, hfinished⟩ := h.returned hr
  obtain ⟨fuel', earlier', call', hcalls', hend', hretries⟩ := h.broken hbreaks
  obtain ⟨rfl, rfl⟩ := h.same hcalls hcalls' (.inl hfinished) hend'
  exact hnot (hretries response hresponse)

lemma met_mono {calls calls' : List Call} (h : calls <+: calls') :
    met policy calls [] ≤ met policy calls' [] := by
  obtain ⟨rest, rfl⟩ := h
  unfold met
  rw [List.append_nil, List.append_nil, List.filterMap_append, List.takeWhile_append]
  split_ifs with hall
  · rw [List.length_append, hall]
    exact Nat.le_add_right _ _
  · exact Nat.le_refl _

/-- After a run that has come back there is nothing more to meet. -/
lemma Runs.met_le (h : Runs runtime options policy config next log calls r) {fuel : ℕ}
    {response : Response} {t : List Event} (hr : r fuel = .ok response t) (fuel' : ℕ) :
    met policy (calls fuel') [] ≤ met policy (calls fuel) [] := by
  rcases Nat.le_total fuel' fuel with hle | hle
  · exact met_mono (h.begins _ _ hle)
  · obtain ⟨earlier, call, hcalls, -, -, -, hfinished⟩ := h.returned hr
    rw [calls_of_ended (h.law fuel') (h.begins _ _ hle) hcalls (.inl hfinished)]

/-- A run that neither comes back nor breaks goes on without end. -/
lemma Runs.goes_on (h : Runs runtime options policy config next log calls r)
    (hbreaks : ¬ Breaks runtime options policy calls r)
    (hreturned : ∀ fuel response t, r fuel ≠ .ok response t) (fuel : ℕ) :
    (calls fuel).length = fuel + 1 := by
  obtain ⟨earlier, call, hcalls, -, hlast⟩ := h.ends fuel
  rcases hlast with hfinished | hstuck | ⟨-, hlength⟩
  · refine absurd ⟨fuel, earlier, call, hcalls, .inl ?_⟩ hbreaks
    cases houtcome : call.outcome with
    | ok response t => exact absurd (hfinished.1.trans houtcome) (hreturned fuel response t)
    | error halt t => rw [Call.response, houtcome]
  · exact absurd ⟨fuel, earlier, call, hcalls, .inr hstuck⟩ hbreaks
  · rw [hcalls, List.length_append, hlength, List.length_singleton]

lemma ltRat_mono {x : Double} {a b : ℚ} (hab : a ≤ b) (h : x.ltRat a) : x.ltRat b := by
  cases x with
  | nan => cases h
  | inf neg => exact h
  | fin x => exact decide_eq_true ((of_decide_eq_true h).trans_le hab)

/-- A run without end has no count of retries, and nothing breaks it. -/
lemma Runs.endless (h : Runs runtime options policy config next log calls r)
    (hendless : ∀ n, ∃ fuel, n < (calls fuel).length) :
    ¬ IsCount policy.maxRetries ∧ ¬ Breaks runtime options policy calls r := by
  constructor
  · rintro ⟨x, hx, m, hm, hval⟩
    obtain ⟨fuel, hfuel⟩ := hendless (m + 1)
    obtain ⟨earlier, call, hcalls, hearlier, -⟩ := h.ends fuel
    rw [hcalls, List.length_append, List.length_singleton] at hfuel
    obtain ⟨k, hk⟩ := Nat.exists_eq_add_of_le' (show 1 ≤ earlier.length by omega)
    have hlt := hearlier.left k hk
    rw [hx, Double.natCast_lt_fin (min_le_right _ _), hval, Nat.cast_lt] at hlt
    omega
  · intro hbreaks
    obtain ⟨fuel, earlier, call, hcalls, hend, -⟩ := h.broken hbreaks
    obtain ⟨fuel', hfuel'⟩ := hendless (calls fuel).length
    rcases Nat.le_total fuel fuel' with hle | hle
    · rw [calls_of_ended (h.law fuel') (h.begins _ _ hle) hcalls hend] at hfuel'
      exact Nat.lt_irrefl _ hfuel'
    · exact absurd (h.begins _ _ hle).length_le (Nat.not_le_of_lt hfuel')

lemma Runs.count_iff (h : Runs runtime options policy config next log calls r)
    (hmax : (ofRat 0).le policy.maxRetries) :
    ((∀ fuel response log, r fuel = .ok response log → ∀ more,
        Counted policy.maxRetries (met policy (calls fuel) more) (calls fuel).length) ∧
      ((∀ n, ∃ fuel, n < (calls fuel).length) → ∀ n : ℕ, ¬ policy.maxRetries.ltRat n)) ↔
    (IsCount policy.maxRetries ∨ Breaks runtime options policy calls r ∨
      ∀ fuel, ¬ policy.maxRetries.ltRat (met policy (calls fuel) [])) := by
  have hcounted : ∀ fuel response t, r fuel = .ok response t →
      ((∀ more, Counted policy.maxRetries (met policy (calls fuel) more) (calls fuel).length) ↔
        IsCount policy.maxRetries ∨ ¬ policy.maxRetries.ltRat (met policy (calls fuel) [])) := by
    intro fuel response t hr
    obtain ⟨earlier, call, hcalls, hearlier, hresponse, hnot, -⟩ := h.returned hr
    rw [hcalls, List.length_append, List.length_singleton]
    exact counted_iff hmax hearlier hresponse hnot
  constructor
  · rintro ⟨hcount, hendless⟩
    by_cases hreturned : ∃ fuel response t, r fuel = .ok response t
    · obtain ⟨fuel, response, t, hr⟩ := hreturned
      refine ((hcounted fuel response t hr).mp (hcount fuel response t hr)).imp_right fun hmet => ?_
      refine .inr fun fuel' hlt => hmet (ltRat_mono ?_ hlt)
      exact_mod_cast h.met_le hr fuel'
    · rw [or_iff_not_imp_left, or_iff_not_imp_left]
      intro _ hbreaks fuel
      refine hendless (fun n => ⟨n, ?_⟩) _
      rw [h.goes_on hbreaks (fun fuel response t hr => hreturned ⟨fuel, response, t, hr⟩) n]
      exact Nat.lt_succ_self n
  · intro hfits
    constructor
    · intro fuel response t hr
      refine (hcounted fuel response t hr).mpr (hfits.imp_right fun hrest => ?_)
      rcases hrest with hbreaks | hmet
      · exact absurd hbreaks (not_breaks_of_returned h hr)
      · exact hmet fuel
    · intro hendless n hlt
      obtain ⟨hnot, hbreaks⟩ := h.endless hendless
      obtain ⟨fuel, hfuel⟩ := hendless n
      refine ((hfits.resolve_left hnot).resolve_left hbreaks) fuel (ltRat_mono ?_ hlt)
      obtain ⟨earlier, call, hcalls, hearlier, -⟩ := h.ends fuel
      rw [hcalls, List.length_append, List.length_singleton] at hfuel
      rw [hcalls, met_append hearlier]
      exact_mod_cast (show n ≤ earlier.length + _ by omega)

lemma Runs.delays_iff (h : Runs runtime options policy config next log calls r)
    (hrandom : ∀ log, IsFraction ((options.random.getD runtime.random) log)) (fuel : ℕ) :
    Chained (fun n _ call' => ∀ ms timer, call'.before.getLast? = some (.slept ms timer) →
        InBounds policy n ms) 0 (calls fuel) ↔
      Chained (fun n call _ =>
        DelayFits policy n ((options.random.getD runtime.random) call.after)) 0 (calls fuel) := by
  refine chained_iff (fun n call call' hreissued => ?_) (h.law fuel).chained
  obtain ⟨response, after, houtcome, -, -, hbefore⟩ := hreissued
  have hafter : call.after = after := by rw [Call.after, houtcome]; rfl
  rw [hbefore, hafter, ← inBounds_iff (hrandom after) n]
  constructor
  · exact fun hall => hall _ _ List.getLast?_concat
  · intro hbounds ms timer hlast
    rw [List.getLast?_concat] at hlast
    cases hlast
    exact hbounds

/-- What is asked of a run holds exactly where the run fits. -/
lemma Runs.kept_iff (h : Runs runtime options policy config next log calls r)
    (hrandom : ∀ log, IsFraction ((options.random.getD runtime.random) log))
    (hmax : (ofRat 0).le policy.maxRetries) :
    Kept policy calls r ↔ Fits runtime options policy calls r := by
  have hcount := h.count_iff hmax
  have hdelays := forall_congr' (h.delays_iff hrandom)
  constructor
  · exact fun hkept => ⟨hcount.mp ⟨hkept.count, hkept.endless⟩, hdelays.mp hkept.delays⟩
  · intro hfits
    obtain ⟨hcounts, hendless⟩ := hcount.mpr hfits.count
    exact ⟨hcounts, hendless, hdelays.mpr hfits.delays⟩

end

end

/-! ### In a chain -/

lemma compose_append (front inner : List Interceptor) (terminal : Send) :
    compose (front ++ inner) terminal = compose front (compose inner terminal) := by
  unfold compose
  exact List.foldr_append

/-- **The retry law.** Wherever the interceptor stands in a chain, every request that reaches it is
sent on in calls of which each but the first reissues one with a status to retry, and the last one
decides the outcome. Their number and the delays are as they should be exactly where the run
fits. -/
theorem retry_law (runtime : Runtime) (options : RetryOptions)
    (hrandom : ∀ log, IsFraction ((options.random.getD runtime.random) log))
    (hmax : (ofRat 0).le (options.policy.getD defaultRetryPolicy).maxRetries)
    (front inner : List Interceptor) (terminal : Send) :
    ∃ send : ℕ → Send,
      (∀ fuel, compose (front ++ retryInterceptor runtime options fuel :: inner) terminal =
        compose front (send fuel)) ∧
      ∀ config log, ∃ calls : ℕ → List Call,
        Runs runtime options (options.policy.getD defaultRetryPolicy) config
          (compose inner terminal) log calls (fun fuel => (send fuel config).run log) ∧
        (Kept (options.policy.getD defaultRetryPolicy) calls
            (fun fuel => (send fuel config).run log) ↔
          Fits runtime options (options.policy.getD defaultRetryPolicy) calls
            (fun fuel => (send fuel config).run log)) := by
  refine ⟨fun fuel => compose (retryInterceptor runtime options fuel :: inner) terminal,
    fun fuel => compose_append front _ terminal, fun config log => ?_⟩
  have hruns : Runs runtime options (options.policy.getD defaultRetryPolicy) config
      (compose inner terminal) log
      (fun fuel => trace runtime options _ config (compose inner terminal) fuel 0 log)
      (fun fuel => (compose (retryInterceptor runtime options fuel :: inner) terminal config).run
        log) :=
    ⟨fun fuel => law_trace runtime options _ config (compose inner terminal) fuel 0 log,
      fun fuel fuel' hle => trace_begins hle 0 log⟩
  exact ⟨_, hruns, hruns.kept_iff hrandom hmax⟩

/-! ### The default policy -/

lemma isCount_natCast {q : ℚ} (n : ℕ) (hn : n ≤ 2 ^ 53) (hq : q = n) : IsCount (ofRat q) :=
  ⟨_, ofRat_natCast n hn hq, n, hn, Finite.val_ofInt n hn⟩

/-- Before its three retries are used up, the power of the default policy is small enough. -/
lemma delayFits_default {n : ℕ} {response : Response} (random : Double)
    (h : defaultRetryPolicy.retries (min n (2 ^ 53)) response) :
    DelayFits defaultRetryPolicy n random := by
  have hlt : (ofRat (min n (2 ^ 53) : ℕ)).lt (ofRat 3) := (Bool.and_eq_true_iff.mp h).2
  have hthree : ofRat 3 = .fin (Finite.ofInt 3 (by decide)) :=
    ofRat_natCast 3 (by decide) (by norm_num)
  rw [hthree, Double.natCast_lt_fin (min_le_right _ _), Finite.val_ofInt] at hlt
  have hn : n ≤ 2 := by
    have hmin : min n (2 ^ 53) < 3 := by exact_mod_cast hlt
    omega
  refine fun _ => ⟨Double.ofRat_ne_nan _, Double.ofRat_ne_nan _, .inl ?_⟩
  have hbase : defaultRetryPolicy.baseDelayMs = .fin (Finite.ofInt 250 (by decide)) :=
    ofRat_natCast 250 (by decide) (by norm_num)
  rw [hbase]
  rintro (hlarge | hlarge)
  · omega
  · have hpower : (2 : ℚ) ^ n ≤ 2 ^ 2 := pow_le_pow_right₀ one_le_two hn
    have hbound : (2 : ℚ) ^ 10 ≤ 2 ^ 1024 := pow_le_pow_right₀ one_le_two (by decide)
    rw [Finite.val_ofInt] at hlarge
    generalize (2 : ℚ) ^ 1024 = top at hbound hlarge
    norm_num at hpower hbound hlarge
    linarith only [hpower, hbound, hlarge]

lemma fits_default {runtime : Runtime} {options : RetryOptions} {config : GatewayRequestConfig}
    {next : Send} {log : List Event} {calls : ℕ → List Call} {r : ℕ → Outcome}
    (h : Runs runtime options defaultRetryPolicy config next log calls r) :
    Fits runtime options defaultRetryPolicy calls r where
  count := .inl (isCount_natCast 3 (by decide) (by norm_num))
  delays := by
    intro fuel
    refine (chained_iff (fun n call call' hreissued => iff_of_true hreissued ?_)
      (h.law fuel).chained).mp (h.law fuel).chained
    obtain ⟨response, -, -, hretries, -⟩ := hreissued
    exact delayFits_default _ hretries

namespace Sample

/-- A server that is down, and a source of randomness that always gives zero. -/
def runtime : Runtime where
  fetch := fun _ _ => ⟨false, .fulfilled ⟨503⟩⟩
  setTimeout := fun _ _ => .fulfilled ()
  random := fun _ => ofRat 0
  text := fun _ => .pending
  parse := fun _ => none

def config : GatewayRequestConfig := ⟨defaultEndpoint, js "POST", ∅, 1000⟩

def send : Send := terminal runtime.fetch fun _ => .ok none

lemma isFraction (log : List Event) : IsFraction (runtime.random log) := by
  refine ⟨Double.nonneg_natCast (n := 0) (by decide), ?_⟩
  rw [runtime, ofRat_natCast 0 (by decide) (by norm_num), ofRat_natCast 1 (by decide) (by norm_num),
    Double.lt_fin, Finite.val_ofInt, Finite.val_ofInt]
  norm_num

end Sample

/-- A server that is down is asked four times. -/
example : (match (compose [retryInterceptor Sample.runtime {} 3] Sample.send
      Sample.config).run [] with
  | .ok response log => (response.status, log.length)
  | .error _ log => (0, log.length)) = (503, 11) := by decide +kernel

theorem default_law : ∃ send : ℕ → Send,
    (∀ fuel, compose ([] ++ retryInterceptor Sample.runtime {} fuel :: [timeoutInterceptor])
      Sample.send = compose [] (send fuel)) ∧
    ∀ config log, ∃ calls : ℕ → List Call,
      Runs Sample.runtime {} defaultRetryPolicy config (compose [timeoutInterceptor] Sample.send)
        log calls (fun fuel => (send fuel config).run log) ∧
      Kept defaultRetryPolicy calls fun fuel => (send fuel config).run log := by
  have hmax : (ofRat 0).le defaultRetryPolicy.maxRetries :=
    Double.nonneg_natCast (n := 3) (by decide)
  obtain ⟨send, hsend, hlaw⟩ := retry_law Sample.runtime {} Sample.isFraction hmax []
    [timeoutInterceptor] Sample.send
  refine ⟨send, hsend, fun config log => ?_⟩
  obtain ⟨calls, hruns, hiff⟩ := hlaw config log
  exact ⟨calls, hruns, hiff.mpr (fits_default hruns)⟩

/-! ### A power that is too large -/

namespace Sample

/-- Many retries without a pause. -/
def patient : RetryPolicy where
  maxRetries := ofRat 1025
  baseDelayMs := ofRat 0
  maxDelayMs := ofRat 4000
  jitter := false
  retryableStatuses := [503]

def options : RetryOptions := { policy := some patient }

def down : Send := fun _ => pure ⟨503⟩

lemma retries_patient {n : ℕ} (hn : n < 1025) : patient.retries (min n (2 ^ 53)) ⟨503⟩ := by
  refine Bool.and_eq_true_iff.mpr ⟨rfl, ?_⟩
  have hmax : patient.maxRetries = .fin (Finite.ofInt 1025 (by decide)) :=
    ofRat_natCast 1025 (by decide) (by norm_num)
  rw [hmax, Double.natCast_lt_fin (min_le_right _ _), Finite.val_ofInt]
  exact_mod_cast (show min n (2 ^ 53) < 1025 by omega)

/-- The server that is down is asked on and on. -/
lemma length_trace (fuel : ℕ) : ∀ (n : ℕ) (log : List Event), n + fuel ≤ 1025 →
    (trace runtime options patient config down fuel n log).length = fuel + 1 := by
  induction fuel with
  | zero => exact fun _ _ _ => rfl
  | succ fuel ih =>
    intro n log hn
    have hstep : trace runtime options patient config down (fuel + 1) n log =
        ⟨log, .ok ⟨503⟩ log⟩ :: if patient.retries (min n (2 ^ 53)) ⟨503⟩ then
          trace runtime options patient config down fuel (n + 1)
            (log ++ [.slept (delay runtime options patient n log) (.fulfilled ())]) else [] := rfl
    rw [hstep, if_pos (retries_patient (by omega)), List.length_cons, ih _ _ (by omega)]

/-- Zero times the power is no number. -/
lemma not_delayFits (random : Double) : ¬ DelayFits patient 1024 random := by
  intro h
  have hbase : patient.baseDelayMs = .fin (Finite.ofInt 0 (by decide)) :=
    ofRat_natCast 0 (by decide) (by norm_num)
  obtain ⟨-, -, hfits | hnegative | ⟨hpositive, -⟩⟩ := h nofun
  · rw [hbase] at hfits
    exact hfits (.inl le_rfl)
  · rw [hbase, Double.negative_fin, Finite.int_ofInt] at hnegative
    omega
  · rw [hbase, ofRat_natCast 0 (by decide) (by norm_num), Double.lt_fin] at hpositive
    exact lt_irrefl _ hpositive

end Sample

/-- After so many retries the delay is NaN, which is within no bounds. -/
theorem patient_breaks_law : ¬ ∀ (runtime : Runtime) (options : RetryOptions),
    (∀ log, IsFraction ((options.random.getD runtime.random) log)) →
    (ofRat 0).le (options.policy.getD defaultRetryPolicy).maxRetries →
    ∀ (inner : List Interceptor) (terminal : Send) (config : GatewayRequestConfig)
      (log : List Event) (calls : ℕ → List Call),
      Runs runtime options (options.policy.getD defaultRetryPolicy) config (compose inner terminal)
        log calls (fun fuel =>
          (compose (retryInterceptor runtime options fuel :: inner) terminal config).run log) →
      Kept (options.policy.getD defaultRetryPolicy) calls fun fuel =>
        (compose (retryInterceptor runtime options fuel :: inner) terminal config).run log := by
  intro h
  have hmax : (ofRat 0).le (Sample.options.policy.getD defaultRetryPolicy).maxRetries :=
    Double.nonneg_natCast (n := 1025) (by decide)
  let calls := fun fuel =>
    trace Sample.runtime Sample.options Sample.patient Sample.config Sample.down fuel 0 []
  have hruns : Runs Sample.runtime Sample.options Sample.patient Sample.config Sample.down [] calls
      fun fuel => (compose [retryInterceptor Sample.runtime Sample.options fuel] Sample.down
        Sample.config).run [] :=
    ⟨fun fuel => law_trace _ _ _ _ _ fuel 0 [], fun fuel fuel' hle => trace_begins hle 0 []⟩
  have hkept := h Sample.runtime Sample.options Sample.isFraction hmax [] Sample.down Sample.config
    [] calls hruns
  have hdelays := (hruns.delays_iff Sample.isFraction 1025).mp (hkept.delays 1025)
  have hlength : (calls 1025).length = 1026 := Sample.length_trace 1025 0 [] (by decide)
  obtain ⟨call, call', hlast⟩ : ∃ call call', (calls 1025).drop 1024 = [call, call'] :=
    List.length_eq_two.mp (by rw [List.length_drop, hlength])
  rw [← List.take_append_drop 1024 (calls 1025), hlast] at hdelays
  have hfits := chained_middle _ hdelays
  rw [List.length_take, hlength] at hfits
  exact Sample.not_delayFits _ hfits

end ModelDispatcher.Retrying
