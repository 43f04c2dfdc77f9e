import Mathlib.Data.List.Perm.Subperm
import ModelDispatcher.Refinement

/-!
The attempts of an execution: every provider call, labelled by the candidate, the key and the
attempt it is made for, against the records the context keeps.
-/

namespace ModelDispatcher.AttemptTrace

open Lib.Text Lib.Logged DataTypes Exceptions Config Providers Quota Security Machines Handlers
open ModelInvocationHandler Chain Turns Refinement

variable {T : Turn}

/-! ### How calls turn out -/

section

variable {α : Type} {result : α → CallResult}

/-- All calls failed, but for the last one when the part served. -/
def FailsUntil (result : α → CallResult) (cs : List α) : Ended → Prop
  | .served _ => ∃ init last, cs = init ++ [last] ∧ (∀ x ∈ init, (result x).failed) ∧
      (result last).failed = false
  | _ => ∀ x ∈ cs, (result x).failed

lemma FailsUntil.prepend {cs ds : List α} {out : Ended} (hds : ∀ x ∈ ds, (result x).failed)
    (h : FailsUntil result cs out) : FailsUntil result (ds ++ cs) out := by
  have hall : ∀ {es : List α}, (∀ x ∈ es, (result x).failed) →
      ∀ x ∈ ds ++ es, (result x).failed :=
    fun hes x hx => (List.mem_append.mp hx).elim (hds x) (hes x)
  cases out with
  | served response =>
    obtain ⟨init, last, rfl, hinit, hlast⟩ := h
    exact ⟨ds ++ init, last, by simp, hall hinit, hlast⟩
  | failed => exact hall h
  | raised e => exact hall h

lemma FailsUntil.map {β : Type} {result' : β → CallResult} {f : α → β} {cs : List α}
    {out : Ended} (hf : ∀ x, result' (f x) = result x) (h : FailsUntil result cs out) :
    FailsUntil result' (cs.map f) out := by
  cases out with
  | served response =>
    obtain ⟨init, last, rfl, hinit, hlast⟩ := h
    exact ⟨init.map f, f last, by simp, by simpa [hf] using hinit, by simpa [hf] using hlast⟩
  | failed => simpa [FailsUntil, hf] using h
  | raised e => simpa [FailsUntil, hf] using h

/-- A call that another one follows has failed. -/
lemma FailsUntil.failed_of_before {r : α → α → Prop} (hr : ∀ x y, r x y → ¬ r y x) {cs : List α}
    {out : Ended} (h : FailsUntil result cs out) (hincreasing : cs.Pairwise r) {x y : α}
    (hx : x ∈ cs) (hy : y ∈ cs) (hxy : r x y) : (result x).failed := by
  cases out with
  | served response =>
    obtain ⟨init, last, rfl, hinit, -⟩ := h
    rcases List.mem_append.mp hx with hx | hx
    · exact hinit x hx
    · rw [List.mem_singleton.mp hx] at hxy
      rcases List.mem_append.mp hy with hy | hy
      · have := (List.pairwise_append.mp hincreasing).2.2 y hy last (by simp)
        exact absurd hxy (hr _ _ this)
      · rw [List.mem_singleton.mp hy] at hxy
        exact absurd hxy (hr _ _ hxy)
  | failed => exact h x hx
  | raised e => exact h x hx

end

/-! ### One key -/

lemma callsIn_afterFailure {p : ModelProvider} {exc : VendorError} {attempt : ℕ}
    {es : List Event} {out : AttemptEnded} (h : AfterFailure T p exc attempt es out) :
    callsIn es = [] :=
  callsIn_eq_nil (h.forall (by simp) (by simp))

/-- An attempt makes one call; it fails unless the attempt serves. -/
lemma callsIn_attemptLog {k : Key} {attempt : ℕ} {es : List Event} {out : AttemptEnded}
    (h : AttemptLog T k attempt es out) : ∃ result, callsIn es = [(callOf T k attempt, result)] ∧
      (out = .again → result.failed) ∧
      ∀ o, out = .ended o → FailsUntil Prod.snd [(callOf T k attempt, result)] o := by
  cases h with
  | @served response =>
    refine ⟨_, rfl, by simp, fun o ho => ?_⟩
    cases ho
    exact ⟨[], _, rfl, by simp, rfl⟩
  | library =>
    refine ⟨_, rfl, by simp, fun o ho => ?_⟩
    cases ho
    exact fun x hx => by rw [List.mem_singleton.mp hx]; rfl
  | @failed exc es _ _ h =>
    refine ⟨.raised exc, ?_, fun _ => rfl, fun o ho => ?_⟩
    · rw [callsIn_called, callsIn_recorded, callsIn_afterFailure h]
    · subst ho
      rcases h.not_served with rfl | ⟨e, rfl⟩
      · exact fun x hx => by rw [List.mem_singleton.mp hx]; rfl
      · exact fun x hx => by rw [List.mem_singleton.mp hx]; rfl

/-- The calls on one key, from an attempt number on. -/
structure KeyTrace (T : Turn) (k : Key) (n attempt : ℕ) (cs : List (Call × CallResult))
    (out : Ended) : Prop where
  call : ∀ x ∈ cs, x.1 = callOf T k x.1.attempt ∧ attempt ≤ x.1.attempt ∧
    x.1.attempt < attempt + n
  increasing : cs.Pairwise fun x y => x.1.attempt < y.1.attempt
  outcomes : FailsUntil Prod.snd cs out
  nonempty : 0 < n → cs ≠ []

lemma keyTrace {k : Key} {n attempt : ℕ} {es : List Event} {out : Ended}
    (h : KeyLog T k n attempt es out) : KeyTrace T k n attempt (callsIn es) out := by
  induction h with
  | spent => exact ⟨by simp, by simp, by simp [FailsUntil], by simp⟩
  | @again n attempt es fs out h _ ih =>
    obtain ⟨result, hcs, hagain, -⟩ := callsIn_attemptLog h
    rw [callsIn_append, hcs]
    refine ⟨fun x hx => ?_, ?_, ih.outcomes.prepend (by simpa using hagain rfl), by simp⟩
    · rcases List.mem_append.mp hx with hx | hx
      · rw [List.mem_singleton.mp hx]
        exact ⟨rfl, le_rfl, by simp [callOf]⟩
      · obtain ⟨hcall, hlo, hhi⟩ := ih.call x hx
        exact ⟨hcall, by omega, by omega⟩
    · refine List.pairwise_append.mpr ⟨by simp, ih.increasing, fun x hx y hy => ?_⟩
      rw [List.mem_singleton.mp hx]
      exact (ih.call y hy).2.1
  | @ended n attempt es out h =>
    obtain ⟨result, hcs, -, hover⟩ := callsIn_attemptLog h
    rw [hcs]
    refine ⟨fun x hx => ?_, by simp, hover out rfl, by simp⟩
    rw [List.mem_singleton.mp hx]
    exact ⟨rfl, le_rfl, by simp [callOf]⟩

/-! ### The keys of a candidate -/

/-- The calls on the keys left of a candidate, from an index on. -/
structure KeysTrace (T : Turn) (p : ModelProvider) (keys : List (Option Credential)) (index : ℕ)
    (cs : List (Call × CallResult)) (out : Ended) : Prop where
  call : ∀ x ∈ cs, x.1.provider = p ∧ index ≤ x.1.index ∧
    keys[x.1.index - index]? = some x.1.credential ∧
    1 ≤ x.1.attempt ∧ x.1.attempt ≤ T.handler.maxAttempts.toNat
  increasing : cs.Pairwise fun x y =>
    x.1.index < y.1.index ∨ x.1.index = y.1.index ∧ x.1.attempt < y.1.attempt
  outcomes : FailsUntil Prod.snd cs out
  noSkip : ∀ x ∈ cs, ∀ j, index ≤ j → j < x.1.index → ∃ y ∈ cs, y.1.index = j
  complete : out = .failed → ∀ j, index ≤ j → j < index + keys.length → ∃ y ∈ cs, y.1.index = j
  bounded : cs.length ≤ keys.length * T.handler.maxAttempts.toNat

lemma KeyTrace.length_le {k : Key} {n attempt : ℕ} {cs : List (Call × CallResult)} {out : Ended}
    (h : KeyTrace T k n attempt cs out) : cs.length ≤ n := by
  have hrange : ∀ a ∈ cs.map (·.1.attempt), attempt ≤ a ∧ a < attempt + n := by
    intro a ha
    obtain ⟨x, hx, rfl⟩ := List.mem_map.mp ha
    exact (h.call x hx).2
  have hnodup : (cs.map (·.1.attempt)).Nodup :=
    (List.pairwise_map.mpr h.increasing).imp fun hlt => by omega
  have hsub : cs.map (·.1.attempt) ⊆ List.range' attempt n := by
    intro a ha
    simpa [List.mem_range'_1] using hrange a ha
  simpa using (List.subperm_of_subset hnodup hsub).length_le

section

variable {p : ModelProvider} {d : QuotaDecision} {credential : Option Credential}
variable {rest : List (Option Credential)} {index : ℕ} {cs ds : List (Call × CallResult)}
variable {out : Ended}

/-- The calls of one key as calls of the keys that start with it. -/
lemma keysTrace_head
    (h : KeyTrace T ⟨p, credential, index, d⟩ T.handler.maxAttempts.toNat 1 cs out) :
    ∀ x ∈ cs, x.1.provider = p ∧ x.1.index = index ∧
      (credential :: rest)[x.1.index - index]? = some x.1.credential ∧
      1 ≤ x.1.attempt ∧ x.1.attempt ≤ T.handler.maxAttempts.toNat := by
  intro x hx
  obtain ⟨hcall, hlo, hhi⟩ := h.call x hx
  have hp : x.1.provider = p := by rw [hcall]; rfl
  have hi : x.1.index = index := by rw [hcall]; rfl
  have hc : x.1.credential = credential := by rw [hcall]; rfl
  exact ⟨hp, hi, by simp [hi, hc], hlo, by omega⟩

/-- The last key tried. -/
lemma KeyTrace.last
    (h : KeyTrace T ⟨p, credential, index, d⟩ T.handler.maxAttempts.toNat 1 cs out)
    (hout : out ≠ .failed) : KeysTrace T p (credential :: rest) index cs out := by
  have hhead := @keysTrace_head _ _ _ _ rest _ _ _ h
  have hlength := h.length_le
  refine ⟨fun x hx => ?_, ?_, h.outcomes, fun x hx j hlo hhi => ?_, fun ho => absurd ho hout, ?_⟩
  · obtain ⟨hp, hi, hrest⟩ := hhead x hx
    exact ⟨hp, hi.ge, hrest⟩
  · refine h.increasing.imp_of_mem fun {x z} hx hz hlt => .inr ⟨?_, hlt⟩
    rw [(hhead x hx).2.1, (hhead z hz).2.1]
  · have hi := (hhead x hx).2.1
    omega
  · rw [List.length_cons, Nat.add_mul, one_mul]
    omega

/-- A key that failed, before the keys after it. -/
lemma KeysTrace.cons (hrest : KeysTrace T p rest (index + 1) ds out) (hne : cs ≠ [])
    (h : KeyTrace T ⟨p, credential, index, d⟩ T.handler.maxAttempts.toNat 1 cs .failed) :
    KeysTrace T p (credential :: rest) index (cs ++ ds) out := by
  have hhead := @keysTrace_head _ _ _ _ rest _ _ _ h
  obtain ⟨y, hy⟩ := List.exists_mem_of_ne_nil cs hne
  have htried : ∃ y ∈ cs ++ ds, y.1.index = index :=
    ⟨y, List.mem_append_left _ hy, (hhead y hy).2.1⟩
  refine ⟨fun x hx => ?_, ?_, hrest.outcomes.prepend h.outcomes, fun x hx j hlo hhi => ?_,
    fun hout j hlo hhi => ?_, ?_⟩
  · rcases List.mem_append.mp hx with hx | hx
    · obtain ⟨hp, hi, hkey⟩ := hhead x hx
      exact ⟨hp, hi.ge, hkey⟩
    · obtain ⟨hp, hi, hc, hattempt⟩ := hrest.call x hx
      have hsub : x.1.index - index = x.1.index - (index + 1) + 1 := by omega
      refine ⟨hp, by omega, ?_, hattempt⟩
      rw [hsub, List.getElem?_cons_succ]
      exact hc
  · refine List.pairwise_append.mpr ⟨?_, hrest.increasing, fun x hx z hz => ?_⟩
    · refine h.increasing.imp_of_mem fun {x z} hx hz hlt => .inr ⟨?_, hlt⟩
      rw [(hhead x hx).2.1, (hhead z hz).2.1]
    · have hxi := (hhead x hx).2.1
      have hzi := (hrest.call z hz).2.1
      exact .inl (by omega)
  · -- the key itself was tried, and the ones after it skip nothing
    rcases Nat.eq_or_lt_of_le hlo with rfl | hlt
    · exact htried
    · rcases List.mem_append.mp hx with hx | hx
      · have hi := (hhead x hx).2.1
        omega
      · obtain ⟨z, hz, hzj⟩ := hrest.noSkip x hx j hlt hhi
        exact ⟨z, List.mem_append_right _ hz, hzj⟩
  · rcases Nat.eq_or_lt_of_le hlo with rfl | hlt
    · exact htried
    · rw [List.length_cons] at hhi
      obtain ⟨z, hz, hzj⟩ := hrest.complete hout j hlt (by omega)
      exact ⟨z, List.mem_append_right _ hz, hzj⟩
  · have hkey := h.length_le
    have hkeys := hrest.bounded
    rw [List.length_append, List.length_cons, Nat.add_mul, one_mul]
    omega

end

lemma keysTrace (hm : 0 < T.handler.maxAttempts.toNat) {p : ModelProvider} {d : QuotaDecision}
    {keys : List (Option Credential)} {index : ℕ} {es : List Event} {out : Ended}
    (h : KeysLog T p d keys index es out) : KeysTrace T p keys index (callsIn es) out := by
  induction h with
  | exhausted index =>
    exact ⟨by simp, by simp, by simp [FailsUntil], by simp, by simp, by simp⟩
  | next h _ ih =>
    have hkey := keyTrace h
    rw [callsIn_append]
    exact ih.cons (hkey.nonempty hm) hkey
  | ended h hout => exact (keyTrace h).last hout

/-! ### Labels -/

/-- Which candidate, which of its keys and which attempt a call is for. -/
structure Label where
  candidate : ℕ
  key : ℕ
  attempt : ℕ

/-- The lexicographic order. -/
instance : LT Label where
  lt a b := a.candidate < b.candidate ∨ a.candidate = b.candidate ∧
    (a.key < b.key ∨ a.key = b.key ∧ a.attempt < b.attempt)

lemma Label.lt_def (a b : Label) : a < b ↔ a.candidate < b.candidate ∨
    a.candidate = b.candidate ∧ (a.key < b.key ∨ a.key = b.key ∧ a.attempt < b.attempt) :=
  Iff.rfl

lemma Label.lt_asymm (a b : Label) (h : a < b) : ¬ b < a := by
  rw [Label.lt_def] at *
  omega

structure Attempt where
  label : Label
  call : Call
  result : CallResult

/-- The calls of a pass, labelled. -/
def labelPass (i : ℕ) (body : List Event) : List Attempt :=
  (callsIn body).map fun x => ⟨⟨i, x.1.index, x.1.attempt⟩, x.1, x.2⟩

def attemptsFrom : ℕ → List (List Event) → List Attempt
  | _, [] => []
  | i, body :: rest => labelPass i body ++ attemptsFrom (i + 1) rest

/-- The calls of a log, labelled; the candidate is the number of the pass. -/
def attemptsOf (log : List Event) : List Attempt := attemptsFrom 0 (passes log)

lemma mem_labelPass {i : ℕ} {body : List Event} {x : Attempt} :
    x ∈ labelPass i body ↔ (x.call, x.result) ∈ callsIn body ∧
      x.label = ⟨i, x.call.index, x.call.attempt⟩ := by
  constructor
  · intro h
    obtain ⟨y, hy, rfl⟩ := List.mem_map.mp h
    exact ⟨hy, rfl⟩
  · obtain ⟨label, call, result⟩ := x
    rintro ⟨hmem, hlabel⟩
    dsimp only at hmem hlabel
    subst hlabel
    exact List.mem_map.mpr ⟨_, hmem, rfl⟩

lemma candidate_ge_of_mem {i : ℕ} {bodies : List (List Event)} {x : Attempt}
    (h : x ∈ attemptsFrom i bodies) : i ≤ x.label.candidate := by
  induction bodies generalizing i with
  | nil => simp [attemptsFrom] at h
  | cons body rest ih =>
    rcases List.mem_append.mp h with h | h
    · simp [(mem_labelPass.mp h).2]
    · exact (Nat.le_succ i).trans (ih h)

/-- Labelling loses no call of a turn. -/
lemma map_attemptsFrom (i : ℕ) (bodies : List (List Event)) :
    (attemptsFrom i bodies).map (fun x => (x.call, x.result)) =
      callsIn (bodies.flatMap (.passStarted :: ·)) := by
  induction bodies generalizing i with
  | nil => rfl
  | cons body rest ih =>
    rw [attemptsFrom, List.map_append, ih, List.flatMap_cons, callsIn_append]
    congr 1
    simp only [labelPass, List.map_map]
    exact List.map_id _

/-! ### A pass and a turn -/

/-- The keys a pass tries: those the tenant's credentials for the provider hold. -/
def keysFor (tenant : TenantContext) (p : ModelProvider) : List (Option Credential) :=
  match CredentialResolver.resolveCandidates tenant p with
  | .ok creds => keysOf creds
  | .error _ => []

/-- The quota dropped the candidate of a pass. -/
def QuotaDropped (body : List Event) : Prop :=
  ∃ p estimate q d, .reserved p estimate q (.ok d) ∈ body ∧ ¬ QuotaDecision.granted d

/-- The calls of a pass. -/
structure PassTrace (T : Turn) (p : ModelProvider) (body : List Event) (out : Ended) : Prop where
  call : ∀ x ∈ callsIn body, x.1.provider = p ∧
    (keysFor T.tenant p)[x.1.index]? = some x.1.credential ∧
    1 ≤ x.1.attempt ∧ x.1.attempt ≤ T.handler.maxAttempts.toNat
  increasing : (callsIn body).Pairwise fun x y =>
    x.1.index < y.1.index ∨ x.1.index = y.1.index ∧ x.1.attempt < y.1.attempt
  outcomes : FailsUntil Prod.snd (callsIn body) out
  noSkip : ∀ x ∈ callsIn body, ∀ j < x.1.index, ∃ y ∈ callsIn body, y.1.index = j
  complete : out = .failed → QuotaDropped body ∨
    ∀ j < (keysFor T.tenant p).length, ∃ y ∈ callsIn body, y.1.index = j
  bounded : (callsIn body).length ≤ (keysFor T.tenant p).length * T.handler.maxAttempts.toNat

lemma passTrace_of_no_calls {p : ModelProvider} {body : List Event} {out : Ended}
    (h : callsIn body = []) (hserved : ∀ response, out ≠ .served response)
    (hdropped : out = .failed → QuotaDropped body) : PassTrace T p body out := by
  refine ⟨by simp [h], by simp [h], ?_, by simp [h], fun ho => .inl (hdropped ho), by simp [h]⟩
  cases out with
  | served response => exact absurd rfl (hserved response)
  | failed => simp [h, FailsUntil]
  | raised e => simp [h, FailsUntil]

lemma passTrace (hm : 0 < T.handler.maxAttempts.toNat) {p : ModelProvider} {body : List Event}
    {out : Ended} (h : PassLog T p body out) : PassTrace T p body out := by
  cases h with
  | rejected => exact passTrace_of_no_calls rfl (by simp) (by simp)
  | unresolved => exact passTrace_of_no_calls rfl (by simp) (by simp)
  | unjudged => exact passTrace_of_no_calls rfl (by simp) (by simp)
  | @deniedNext creds q d hv hc h hd =>
    exact passTrace_of_no_calls rfl (by simp) fun _ =>
      ⟨p, p.estimateTokens T.request, q, d, by simp [admitted], hd⟩
  | deniedStop hv hc h hd e => exact passTrace_of_no_calls rfl (by simp) (by simp)
  | @invoked creds q d es _ hv hc h hd hkeys =>
    have htrace := keysTrace hm hkeys
    have hfor : keysFor T.tenant p = keysOf creds := by rw [keysFor, hc]
    have hcalls : callsIn (admitted T p creds q d ++ es) = callsIn es := rfl
    refine ⟨?_, ?_, ?_, ?_, fun hout => .inr ?_, ?_⟩ <;> rw [hcalls]
    · intro x hx
      obtain ⟨hp, -, hcred, hattempt⟩ := htrace.call x hx
      exact ⟨hp, by rw [hfor]; exact hcred, hattempt⟩
    · exact htrace.increasing
    · exact htrace.outcomes
    · exact fun x hx j hj => htrace.noSkip x hx j (Nat.zero_le j) hj
    · intro j hj
      exact htrace.complete hout j (Nat.zero_le j) (by rw [hfor] at hj; omega)
    · rw [hfor]
      exact htrace.bounded

/-- The candidate of a pass was given up: the quota dropped it, or each of its keys was tried,
and every call for it failed. -/
def GivenUp (tenant : TenantContext) (candidates : List ModelProvider) (body : List Event)
    (attempts : List Attempt) (i n : ℕ) : Prop :=
  (∀ y ∈ attempts, y.label.candidate = i + n → y.result.failed) ∧
  (QuotaDropped body ∨ ∃ p, candidates[n]? = some p ∧
    ∀ j < (keysFor tenant p).length, ∃ y ∈ attempts, y.label.candidate = i + n ∧ y.label.key = j)

structure TurnTrace (T : Turn) (candidates : List ModelProvider) (i : ℕ)
    (bodies : List (List Event)) (out : Ended) : Prop where
  call : ∀ x ∈ attemptsFrom i bodies,
    candidates[x.label.candidate - i]? = some x.call.provider ∧
    (keysFor T.tenant x.call.provider)[x.label.key]? = some x.call.credential ∧
    1 ≤ x.label.attempt ∧ x.label.attempt ≤ T.handler.maxAttempts.toNat
  increasing : (attemptsFrom i bodies).Pairwise fun x y => x.label < y.label
  outcomes : FailsUntil Attempt.result (attemptsFrom i bodies) out
  noSkip : ∀ x ∈ attemptsFrom i bodies, ∀ j < x.label.key,
    ∃ y ∈ attemptsFrom i bodies, y.label.candidate = x.label.candidate ∧ y.label.key = j
  advance : ∀ n body, n + 1 < bodies.length → bodies[n]? = some body →
    GivenUp T.tenant candidates body (attemptsFrom i bodies) i n
  bounded : (attemptsFrom i bodies).length ≤
    (candidates.map fun p => (keysFor T.tenant p).length * T.handler.maxAttempts.toNat).sum

/-- The calls of one pass, as calls of a turn. -/
lemma labelPass_call {p : ModelProvider} {i : ℕ} {body : List Event} {out : Ended}
    (h : PassTrace T p body out) {x : Attempt} (hx : x ∈ labelPass i body) :
    x.label.candidate = i ∧ x.call.provider = p ∧
      (keysFor T.tenant x.call.provider)[x.label.key]? = some x.call.credential ∧
      1 ≤ x.label.attempt ∧ x.label.attempt ≤ T.handler.maxAttempts.toNat := by
  obtain ⟨hmem, hlabel⟩ := mem_labelPass.mp hx
  obtain ⟨rfl, hcred, hattempt⟩ := h.call _ hmem
  rw [hlabel]
  exact ⟨rfl, rfl, hcred, hattempt⟩

lemma labelPass_increasing {p : ModelProvider} {i : ℕ} {body : List Event} {out : Ended}
    (h : PassTrace T p body out) : (labelPass i body).Pairwise fun x y => x.label < y.label := by
  refine List.pairwise_map.mpr (h.increasing.imp fun hlt => ?_)
  exact .inr ⟨rfl, hlt⟩

lemma labelPass_noSkip {p : ModelProvider} {i : ℕ} {body : List Event} {out : Ended}
    (h : PassTrace T p body out) {x : Attempt} (hx : x ∈ labelPass i body) {j : ℕ}
    (hj : j < x.label.key) :
    ∃ y ∈ labelPass i body, y.label.candidate = x.label.candidate ∧ y.label.key = j := by
  obtain ⟨hmem, hlabel⟩ := mem_labelPass.mp hx
  rw [hlabel] at hj ⊢
  obtain ⟨y, hy, rfl⟩ := h.noSkip _ hmem j hj
  exact ⟨⟨⟨i, y.1.index, y.1.attempt⟩, y.1, y.2⟩, mem_labelPass.mpr ⟨hy, rfl⟩, rfl, rfl⟩

/-- A failed pass gave its candidate up, whatever the later passes do. -/
lemma PassTrace.givenUp {p : ModelProvider} {rest : List ModelProvider} {i : ℕ}
    {body : List Event} {later : List Attempt} (h : PassTrace T p body .failed)
    (hlater : ∀ y ∈ later, i + 1 ≤ y.label.candidate) :
    GivenUp T.tenant (p :: rest) body (labelPass i body ++ later) i 0 := by
  refine ⟨fun y hy hyi => ?_, ?_⟩
  · rcases List.mem_append.mp hy with hy | hy
    · exact h.outcomes _ (mem_labelPass.mp hy).1
    · have := hlater y hy
      omega
  · refine (h.complete rfl).imp_right fun hall => ⟨p, rfl, fun j hj => ?_⟩
    obtain ⟨y, hy, rfl⟩ := hall j hj
    exact ⟨⟨⟨i, y.1.index, y.1.attempt⟩, y.1, y.2⟩,
      List.mem_append_left _ (mem_labelPass.mpr ⟨hy, rfl⟩), rfl, rfl⟩

/-- What was given up stays so when failed calls of an earlier candidate are put before. -/
lemma GivenUp.prepend {tenant : TenantContext} {candidates : List ModelProvider}
    {body : List Event} {first attempts : List Attempt} {i n : ℕ}
    (h : GivenUp tenant candidates body attempts (i + 1) n)
    (hfirst : ∀ x ∈ first, x.result.failed) (p : ModelProvider) :
    GivenUp tenant (p :: candidates) body (first ++ attempts) i (n + 1) := by
  obtain ⟨hfail, htried⟩ := h
  refine ⟨fun y hy hyi => ?_, htried.imp_right ?_⟩
  · rcases List.mem_append.mp hy with hy | hy
    · exact hfirst y hy
    · exact hfail y hy (by omega)
  · rintro ⟨q, hq, hall⟩
    refine ⟨q, by simpa using hq, fun j hj => ?_⟩
    obtain ⟨y, hy, hyi, hyj⟩ := hall j hj
    exact ⟨y, List.mem_append_right _ hy, by omega, hyj⟩

section

variable {p : ModelProvider} {rest : List ModelProvider} {i : ℕ} {body : List Event}
variable {bodies : List (List Event)} {out : Ended}

/-- The last pass of a turn. -/
lemma PassTrace.last (h : PassTrace T p body out) : TurnTrace T (p :: rest) i [body] out := by
  have hsingle : attemptsFrom i [body] = labelPass i body := by simp [attemptsFrom]
  refine ⟨?_, ?_, ?_, ?_, fun n b hn => by simp at hn, ?_⟩ <;> rw [hsingle]
  · intro x hx
    obtain ⟨hi, rfl, hcall⟩ := labelPass_call h hx
    exact ⟨by simp [hi], hcall⟩
  · exact labelPass_increasing h
  · exact h.outcomes.map fun x => rfl
  · exact fun x hx j hj => labelPass_noSkip h hx hj
  · have hbounded := h.bounded
    rw [labelPass, List.length_map, List.map_cons, List.sum_cons]
    omega

/-- A pass that failed, before the rest of the turn. -/
lemma TurnTrace.cons (hrest : TurnTrace T rest (i + 1) bodies out)
    (h : PassTrace T p body .failed) : TurnTrace T (p :: rest) i (body :: bodies) out := by
  have hfailed : ∀ x ∈ labelPass i body, x.result.failed := by
    intro x hx
    exact h.outcomes _ (mem_labelPass.mp hx).1
  refine ⟨fun x hx => ?_, ?_, hrest.outcomes.prepend hfailed, fun x hx j hj => ?_,
    fun n b hn hb => ?_, ?_⟩
  · rcases List.mem_append.mp hx with hx | hx
    · obtain ⟨hi, rfl, hcall⟩ := labelPass_call h hx
      exact ⟨by simp [hi], hcall⟩
    · obtain ⟨hp, hcall⟩ := hrest.call x hx
      have hge := candidate_ge_of_mem hx
      have hsub : x.label.candidate - i = x.label.candidate - (i + 1) + 1 := by omega
      refine ⟨?_, hcall⟩
      rw [hsub, List.getElem?_cons_succ]
      exact hp
  · refine List.pairwise_append.mpr ⟨labelPass_increasing h, hrest.increasing,
      fun x hx y hy => .inl ?_⟩
    have hxi := (labelPass_call h hx).1
    have hyi := candidate_ge_of_mem hy
    omega
  · rcases List.mem_append.mp hx with hx | hx
    · obtain ⟨y, hy, hxy⟩ := labelPass_noSkip h hx hj
      exact ⟨y, List.mem_append_left _ hy, hxy⟩
    · obtain ⟨y, hy, hxy⟩ := hrest.noSkip x hx j hj
      exact ⟨y, List.mem_append_right _ hy, hxy⟩
  · -- the first pass was given up; the others are the rest of the turn's
    cases n with
    | zero =>
      cases hb
      exact h.givenUp fun y hy => candidate_ge_of_mem hy
    | succ n =>
      have hlater := hrest.advance n b (by simpa using hn) (by simpa using hb)
      exact hlater.prepend hfailed p
  · have hfirst := h.bounded
    have hlater := hrest.bounded
    rw [attemptsFrom, List.length_append, labelPass, List.length_map, List.map_cons,
      List.sum_cons]
    omega

end

lemma turnTrace (hm : 0 < T.handler.maxAttempts.toNat) {candidates : List ModelProvider}
    {es : List Event} {out : Ended} (h : TurnLog T candidates es out) (i : ℕ) :
    TurnTrace T candidates i (passes es) out := by
  induction h generalizing i with
  | exhausted =>
    exact ⟨by simp [passes, attemptsFrom], by simp [passes, attemptsFrom],
      by simp [passes, attemptsFrom, FailsUntil], by simp [passes, attemptsFrom],
      by simp [passes], by simp [passes, attemptsFrom]⟩
  | next h hrest ih =>
    rw [passes_next h hrest]
    exact (ih (i + 1)).cons (passTrace hm h)
  | ended h =>
    rw [passes_ended h]
    exact (passTrace hm h).last

/-! ### Records -/

/-- The record of a call. -/
def recordOf (x : Call × CallResult) : AttemptRecord :=
  match x.2 with
  | .raised exc =>
    { providerName := x.1.provider.name, errorClass := some (x.1.provider.classifyError exc),
      detail := some exc.text, credentialRef := x.1.credential.map (·.secretRef) }
  | _ => { providerName := x.1.provider.name, credentialRef := x.1.credential.map (·.secretRef) }

/-- The record says whether the call failed. -/
def Faithful (x : Call × CallResult) : Prop := (recordOf x).errorClass = none ↔ x.2.failed = false

/-- Without exceptions of the library's own, every call of a turn is recorded, in order. -/
lemma recordsIn_turnLog
    (hlib : ∀ log p request key e, T.world.complete log p request key ≠ .raisedLibrary e)
    {candidates : List ModelProvider} {es : List Event} {out : Ended}
    (h : TurnLog T candidates es out) :
    recordsIn es = (callsIn es).map recordOf ∧ ∀ x ∈ callsIn es, Faithful x := by
  refine h.closed (R := fun es => recordsIn es = (callsIn es).map recordOf ∧
    ∀ x ∈ callsIn es, Faithful x) ⟨rfl, by simp⟩ ?_ ?_ ?_
  · intro es fs hes hfs
    rw [recordsIn_append, callsIn_append, List.map_append, hes.1, hfs.1]
    exact ⟨rfl, fun x hx => (List.mem_append.mp hx).elim (hes.2 x) (hfs.2 x)⟩
  · intro k a es out hlog
    cases hlog with
    | served => exact ⟨rfl, by simp [callsIn, Faithful, recordOf, CallResult.failed]⟩
    | library hres =>
      obtain ⟨log, hres⟩ := hres
      exact absurd hres (hlib _ _ _ _ _)
    | @failed exc es _ _ h =>
      have hrecords : recordsIn es = [] :=
        List.filterMap_eq_nil_iff.mpr (h.forall rfl fun _ => rfl)
      rw [callsIn_called, callsIn_recorded, callsIn_afterFailure h, recordsIn_called,
        recordsIn_recorded, hrecords]
      exact ⟨rfl, by simp [Faithful, recordOf, CallResult.failed]⟩
  · intro e he
    cases e <;> simp_all [Event.isCheck, recordsIn, callsIn]

/-- Every record but the last carries an error class, and the last one carries none exactly when
the part served. -/
lemma errorClass_of_failsUntil {cs : List (Call × CallResult)} {out : Ended}
    (hfaithful : ∀ x ∈ cs, Faithful x) (hfails : FailsUntil Prod.snd cs out) :
    (∀ r ∈ (cs.map recordOf).dropLast, r.errorClass ≠ none) ∧
    ((∃ r, (cs.map recordOf).getLast? = some r ∧ r.errorClass = none) ↔
      ∃ response, out = .served response) := by
  have hclass : ∀ x ∈ cs, x.2.failed → (recordOf x).errorClass ≠ none := by
    intro x hx hfailed hnone
    rw [(hfaithful x hx).mp hnone] at hfailed
    cases hfailed
  have hall : (∀ x ∈ cs, x.2.failed) → ∀ r ∈ cs.map recordOf, r.errorClass ≠ none := by
    intro hcs r hr
    obtain ⟨x, hx, rfl⟩ := List.mem_map.mp hr
    exact hclass x hx (hcs x hx)
  have hnone : (∀ x ∈ cs, x.2.failed) → (∀ response, out ≠ .served response) →
      (∀ r ∈ (cs.map recordOf).dropLast, r.errorClass ≠ none) ∧
      ((∃ r, (cs.map recordOf).getLast? = some r ∧ r.errorClass = none) ↔
        ∃ response, out = .served response) := by
    intro hcs hout
    refine ⟨fun r hr => hall hcs r ((List.dropLast_sublist _).subset hr), ?_, ?_⟩
    · rintro ⟨r, hr, hr'⟩
      exact absurd hr' (hall hcs r (List.mem_of_getLast? hr))
    · rintro ⟨response, hr⟩
      exact absurd hr (hout response)
  cases out with
  | served response =>
    obtain ⟨init, last, rfl, hinit, hlast⟩ := hfails
    refine ⟨fun r hr => ?_, fun _ => ⟨response, rfl⟩, fun _ => ⟨recordOf last, ?_, ?_⟩⟩
    · simp only [List.map_append, List.map_cons, List.map_nil, List.dropLast_concat] at hr
      obtain ⟨x, hx, rfl⟩ := List.mem_map.mp hr
      exact hclass x (by simp [hx]) (hinit x hx)
    · simp
    · exact (hfaithful last (by simp)).mpr hlast
  | failed => exact hnone hfails (by simp)
  | raised e => exact hnone hfails (by simp)

/-- **The attempt-trace law.** Every call of an execution is labelled. The labels increase, and
stay within the candidates, the keys and the attempts there are. No key is passed over, and a
call on a later key of a candidate finds every call on an earlier one failed. A candidate is
left for the next only when the quota dropped it or each of its keys was tried, all in vain.
The context holds one record for each call, in order; all but the last carry an error class,
and the last one carries none exactly when the execution returns a response. -/
theorem attempt_trace (w : World) (settings : GatewaySettings) (c : InvocationContext)
    (q : QuotaState) (hm : 1 ≤ settings.retryMaxAttempts)
    (hlib : ∀ log p request key e, w.complete log p request key ≠ .raisedLibrary e) :
    let log := (finalState (executed w settings c q)).log
    let attempts := attemptsOf log
    let records := (finalState (executed w settings c q)).scratch.attempts
    attempts.map (fun x => (x.call, x.result)) = callsIn log ∧
    attempts.Pairwise (fun x y => x.label < y.label) ∧
    (∀ x ∈ attempts, c.candidates[x.label.candidate]? = some x.call.provider ∧
      (keysFor c.tenant x.call.provider)[x.label.key]? = some x.call.credential ∧
      1 ≤ x.label.attempt ∧ x.label.attempt ≤ settings.retryMaxAttempts) ∧
    (∀ x ∈ attempts, ∀ j, x.label.key = j + 1 →
      (∃ y ∈ attempts, y.label.candidate = x.label.candidate ∧ y.label.key = j) ∧
      ∀ y ∈ attempts, y.label.candidate = x.label.candidate → y.label.key = j →
        y.result.failed) ∧
    (∀ i body, i + 1 < (passes log).length → (passes log)[i]? = some body →
      GivenUp c.tenant c.candidates body attempts 0 i) ∧
    attempts.length ≤ (c.candidates.map fun p =>
      (keysFor c.tenant p).length * settings.retryMaxAttempts.toNat).sum ∧
    records = (callsIn log).map recordOf ∧
    (∀ r ∈ records.dropLast, r.errorClass ≠ none) ∧
    ((∃ r, records.getLast? = some r ∧ r.errorClass = none) ↔
      ∃ response, answer (executed w settings c q) = .ok response) := by
  intro log attempts records
  obtain ⟨out, hturn, hends, htraced⟩ := executed_turn w settings c q
  have htrace := turnTrace (show 0 < settings.retryMaxAttempts.toNat by omega) hturn 0
  have hcalls : attempts.map (fun x => (x.call, x.result)) = callsIn log :=
    (map_attemptsFrom 0 _).trans (congrArg callsIn hturn.flatMap_passes)
  have hfails : FailsUntil Prod.snd (callsIn log) out := by
    rw [← hcalls]
    exact htrace.outcomes.map fun x => rfl
  obtain ⟨hrecords, hfaithful⟩ := recordsIn_turnLog hlib hturn
  have hrecords : records = (callsIn log).map recordOf := by
    rw [← hrecords]
    simpa using htraced.records
  obtain ⟨hdrop, hlast⟩ := errorClass_of_failsUntil hfaithful hfails
  refine ⟨hcalls, htrace.increasing, fun x hx => ?_, fun x hx j hj => ⟨?_, fun y hy hxy hyj => ?_⟩,
    htrace.advance, htrace.bounded, hrecords, by rw [hrecords]; exact hdrop, ?_⟩
  · obtain ⟨hp, hkey, hlo, hhi⟩ := htrace.call x hx
    exact ⟨hp, hkey, hlo, by
      have : x.label.attempt ≤ settings.retryMaxAttempts.toNat := hhi
      omega⟩
  · exact htrace.noSkip x hx j (by omega)
  · exact htrace.outcomes.failed_of_before (r := fun x y : Attempt => x.label < y.label)
      (fun x y => Label.lt_asymm x.label y.label) htrace.increasing hy hx
      (.inr ⟨hxy, .inl (by omega)⟩)
  · rw [hrecords, hlast]
    generalize executed w settings c q = r at hends ⊢
    cases hends with
    | served response t => simp
    | raised e t => simp

lemma isOk_iff {ε α : Type} {x : Except ε α} : x.isOk = true ↔ ∃ a, x = .ok a := by
  cases x <;> simp [Except.isOk, Except.toBool]

/-- One transient failure, then a response: the last record carries no error. -/
theorem attempt_trace_one_retry :
    ∃ r, (finalState (executed (Sample.world "blip" 5) {} ⟨Sample.request, Sample.tenant,
        [Sample.provider "p" .free]⟩ {})).scratch.attempts.getLast? = some r ∧
      r.errorClass = none := by
  obtain ⟨-, -, -, -, -, -, -, -, hlast⟩ := attempt_trace (Sample.world "blip" 5) {}
    ⟨Sample.request, Sample.tenant, [Sample.provider "p" .free]⟩ {} (by decide)
    (by intro log p request key e; unfold Sample.world; dsimp only; split <;> simp)
  exact hlast.mpr (isOk_iff.mp (by decide +kernel))

end ModelDispatcher.AttemptTrace
