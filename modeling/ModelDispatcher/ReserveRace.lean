import Mathlib.Algebra.BigOperators.Group.Finset.Basic
import Mathlib.Algebra.Order.BigOperators.Group.Finset
import Mathlib.Data.Fintype.Basic
import ModelDispatcher.Lib.Runs
import ModelDispatcher.Quota

/-!
Concurrent reservations of one tenant inside one period of every window.

Each reservation is a client of the store: it sends its three reads, takes its verdict, and
sends its increments if that is a grant. The store applies one message at a time; the
messages of different clients interleave in any order.
-/

namespace ModelDispatcher.ReserveRace

open Lib.Text Lib.Binary64 Lib.Runs DataTypes Exceptions Config Quota QuotaManager
open InMemoryQuotaStore

/-- Where a reservation stands: the windows it still has to read, or to charge. -/
inductive Phase
  | reading (seen : WindowKey → ℤ) (left : List WindowKey)
  | charging (d : QuotaDecision) (left : List WindowKey)
  | denied (d : QuotaDecision)
  | raised (e : BuiltinError)

def Phase.start : Phase := .reading (fun _ => 0) windows

/-- The reservation has returned, or will return, a verdict that lets the call proceed. -/
def Phase.granted : Phase → Bool
  | .charging _ _ => true
  | _ => false

@[simp] lemma Phase.granted_reading (seen : WindowKey → ℤ) (left : List WindowKey) :
    (Phase.reading seen left).granted = false := rfl
@[simp] lemma Phase.granted_charging (d : QuotaDecision) (left : List WindowKey) :
    (Phase.charging d left).granted = true := rfl

inductive Label (ι : Type)
  | read (i : ι) (w : WindowKey)
  | grant (i : ι)
  | refuse (i : ι)
  | incr (i : ι) (w : WindowKey)
  deriving DecidableEq

structure Race (ι : Type) where
  store : InMemoryQuotaStore
  phase : ι → Phase

def Race.start {ι : Type} (store : InMemoryQuotaStore) : Race ι := ⟨store, fun _ => .start⟩

section

variable {ι : Type} [DecidableEq ι]
variable (tenant : TenantContext) (estimate : ι → ℤ) (name : ι → PyStr) (P : WindowKey → ℤ)

/-- One client moves on. -/
def Race.move (s : Race ι) (i : ι) (ph : Phase) : Race ι :=
  { s with phase := Function.update s.phase i ph }

@[simp] lemma Race.move_store (s : Race ι) (i : ι) (ph : Phase) : (s.move i ph).store = s.store :=
  rfl
@[simp] lemma Race.move_phase_self (s : Race ι) (i : ι) (ph : Phase) :
    (s.move i ph).phase i = ph := Function.update_self ..
lemma Race.move_phase_of_ne (s : Race ι) {i j : ι} (h : j ≠ i) (ph : Phase) :
    (s.move i ph).phase j = s.phase j := Function.update_of_ne h ..
@[simp] lemma Race.move_move (s : Race ι) (i : ι) (ph ph' : Phase) :
    (s.move i ph).move i ph' = s.move i ph' := by simp [Race.move]
@[simp] lemma Race.move_mk (s : Race ι) (st : InMemoryQuotaStore) (i : ι) (ph ph' : Phase) :
    (Race.move ⟨st, (s.move i ph).phase⟩ i ph') = Race.move ⟨st, s.phase⟩ i ph' := by
  simp [Race.move]

/-- One message of one client, or its verdict; every clock reading is in the period `P`. -/
inductive Step (s : Race ι) : Label ι → Race ι → Prop
  | read {i : ι} {seen : WindowKey → ℤ} {w : WindowKey} {left : List WindowKey} {now : ℚ}
      (hphase : s.phase i = .reading seen (w :: left)) (hnow : period w now = P w) :
      Step s (.read i w) (s.move i
        (.reading (Function.update seen w (s.store.read now tenant.tenantId w)) left))
  | grant {i : ι} {seen : WindowKey → ℤ} {o : QuotaOutcome} {b : Option WindowKey}
      (hphase : s.phase i = .reading seen [])
      (hverdict : judge tenant.quota.softLimitRatio (checksOf tenant.quota seen (estimate i))
        .allow none = .ok (o, b)) (ho : o ≠ .deny) :
      Step s (.grant i) (s.move i (.charging ⟨o, estimate i, b, some (name i)⟩ windows))
  | deny {i : ι} {seen : WindowKey → ℤ} {b : Option WindowKey}
      (hphase : s.phase i = .reading seen [])
      (hverdict : judge tenant.quota.softLimitRatio (checksOf tenant.quota seen (estimate i))
        .allow none = .ok (.deny, b)) :
      Step s (.refuse i) (s.move i (.denied ⟨.deny, 0, b, some (name i)⟩))
  | raise {i : ι} {seen : WindowKey → ℤ} {e : BuiltinError}
      (hphase : s.phase i = .reading seen [])
      (hverdict : judge tenant.quota.softLimitRatio (checksOf tenant.quota seen (estimate i))
        .allow none = .error e) :
      Step s (.refuse i) (s.move i (.raised e))
  | incr {i : ι} {d : QuotaDecision} {w : WindowKey} {left : List WindowKey} {now : ℚ}
      (hphase : s.phase i = .charging d (w :: left)) (hnow : period w now = P w) :
      Step s (.incr i w) (Race.move
        ⟨s.store.incr now tenant.tenantId w (chargeOf (estimate i) w), s.phase⟩ i
        (.charging d left))

/-! ### One client alone is `reserve` -/

variable {P}

/-- The three reads of a client, undisturbed. -/
lemma steps_read {s : Race ι} {i : ι} (hi : s.phase i = .start) {now : WindowKey → ℚ}
    (hnow : ∀ w, period w (now w) = P w) :
    Steps (Step tenant estimate name P) s
      [.read i .requestsPerMin, .read i .tokensPerMin, .read i .tokensPerDay]
      (s.move i (.reading (fun w => s.store.read (now w) tenant.tenantId w) [])) := by
  have h1 : Step tenant estimate name P s (.read i .requestsPerMin) _ :=
    .read hi (hnow .requestsPerMin)
  have h2 := (Steps.single h1).snoc (.read (Race.move_phase_self ..) (hnow .tokensPerMin))
  have h3 := h2.snoc (.read (Race.move_phase_self ..) (hnow .tokensPerDay))
  have hseen : (fun w => s.store.read (now w) tenant.tenantId w) =
      Function.update (Function.update (Function.update (fun _ => 0) .requestsPerMin
        (s.store.read (now .requestsPerMin) tenant.tenantId .requestsPerMin)) .tokensPerMin
        (s.store.read (now .tokensPerMin) tenant.tenantId .tokensPerMin)) .tokensPerDay
        (s.store.read (now .tokensPerDay) tenant.tenantId .tokensPerDay) := by
    funext w; cases w <;> rfl
  rw [hseen]
  simpa using h3

/-- The three increments of a client, undisturbed. -/
lemma steps_incr {s : Race ι} {i : ι} {d : QuotaDecision} (hi : s.phase i = .charging d windows)
    {clock : ℕ → ℚ} {n : ℕ} (hnow : ∀ w, period w (clock (n + chargeOffset w)) = P w) :
    Steps (Step tenant estimate name P) s
      [.incr i .requestsPerMin, .incr i .tokensPerMin, .incr i .tokensPerDay]
      (Race.move ⟨charge clock s.store (n + 3) tenant.tenantId (estimate i), s.phase⟩ i
        (.charging d [])) := by
  have h1 : Step tenant estimate name P s (.incr i .requestsPerMin) _ :=
    .incr hi (hnow .requestsPerMin)
  have h2 := (Steps.single h1).snoc (.incr (Race.move_phase_self ..) (hnow .tokensPerMin))
  have h3 := h2.snoc (.incr (Race.move_phase_self ..) (hnow .tokensPerDay))
  simpa [charge, chargeOf, chargeOffset] using h3

variable {tenant estimate name}

/-- **The clients are the manager's.** A client that runs its messages without interruption
leaves the store and the verdict of `reserve`. -/
theorem solo_reserve {clock : ℕ → ℚ} {q q' : QuotaState} {d : QuotaDecision} {i : ι}
    {phase : ι → Phase} (hi : phase i = .start)
    (hnow : ∀ n, q.ticks ≤ n → ∀ w, period w (clock n) = P w)
    (hrun : (reserve clock tenant (estimate i) (name i)).run q = .ok d q') :
    ∃ ls, Steps (Step tenant estimate name P) ⟨q.store, phase⟩ ls
      (Race.move ⟨q'.store, phase⟩ i (if d.granted then .charging d [] else .denied d)) := by
  have hread := steps_read tenant estimate name (s := ⟨q.store, phase⟩) hi
    (fun w => hnow (q.ticks + readOffset w) (by omega) w)
  rw [reserve_run] at hrun
  cases hv : judge tenant.quota.softLimitRatio (checks clock q.store q.ticks tenant (estimate i))
      .allow none with
  | error e => rw [hv] at hrun; cases hrun
  | ok v =>
    obtain ⟨o, b⟩ := v
    rw [hv] at hrun
    by_cases ho : o = .deny
    · subst ho
      cases hrun
      have hdeny := hread.snoc (.deny (Race.move_phase_self ..) hv)
      rw [Race.move_move] at hdeny
      exact ⟨_, hdeny⟩
    · have hgrant := hread.snoc (.grant (Race.move_phase_self ..) hv ho)
      rw [Race.move_move] at hgrant
      have hall := hgrant.append (steps_incr tenant estimate name (Race.move_phase_self _ i _)
        fun w => hnow (q.ticks + chargeOffset w) (by omega) w)
      have hq : d = ⟨o, estimate i, b, some (name i)⟩ ∧
          q'.store = charge clock q.store (q.ticks + 3) tenant.tenantId (estimate i) := by
        cases o
        · cases hrun; exact ⟨rfl, rfl⟩
        · cases hrun; exact ⟨rfl, rfl⟩
        · exact absurd rfl ho
      obtain ⟨rfl, hstore⟩ := hq
      rw [Race.move_mk, Race.move_store] at hall
      have hd : QuotaDecision.granted ⟨o, estimate i, b, some (name i)⟩ := ho
      rw [hstore, if_pos hd]
      exact ⟨_, hall⟩

/-! ### What the store holds -/

variable (estimate)

/-- The charges of some clients on a window. -/
def chargesOf (is : Finset ι) (w : WindowKey) : ℤ := ∑ i ∈ is, chargeOf (estimate i) w

lemma chargesOf_insert {is : Finset ι} {i : ι} (h : i ∉ is) (w : WindowKey) :
    chargesOf estimate (insert i is) w = chargesOf estimate is w + chargeOf (estimate i) w := by
  rw [chargesOf, Finset.sum_insert h, add_comm]
  rfl

omit [DecidableEq ι] in
lemma chargesOf_mono (hestimate : ∀ i, 0 ≤ estimate i) {is js : Finset ι} (h : is ⊆ js)
    (w : WindowKey) : chargesOf estimate is w ≤ chargesOf estimate js w := by
  refine Finset.sum_le_sum_of_subset_of_nonneg h fun i _ _ => ?_
  have := hestimate i
  cases w <;> simp [chargeOf, this]

variable [Fintype ι]

/-- The clients whose increment of a window is among some messages. -/
def applied (tr : List (Label ι)) (w : WindowKey) : Finset ι :=
  Finset.univ.filter fun i => .incr i w ∈ tr

/-- The clients granted so far. -/
def Race.grants (s : Race ι) : Finset ι := Finset.univ.filter fun i => (s.phase i).granted

lemma applied_snoc_of_ne {tr : List (Label ι)} {l : Label ι} {w : WindowKey}
    (h : ∀ i, l ≠ .incr i w) : applied (tr ++ [l]) w = applied tr w := by
  ext i
  simp [applied, (h i).symm]

lemma applied_snoc_self {tr : List (Label ι)} (i : ι) (w : WindowKey) :
    applied (tr ++ [.incr i w]) w = insert i (applied tr w) := by
  ext j
  simp [applied, or_comm]

/-- A client's read of a window found the increments of the messages before it. -/
def Saw (base : WindowKey → ℤ) (tr : List (Label ι)) (i : ι) (w : WindowKey) (v : ℤ) : Prop :=
  ∃ pre post, tr = pre ++ .read i w :: post ∧ v = base w + chargesOf estimate (applied pre w) w

variable {estimate}

lemma Saw.snoc {base : WindowKey → ℤ} {tr : List (Label ι)} {i : ι} {w : WindowKey} {v : ℤ}
    (h : Saw estimate base tr i w v) (l : Label ι) : Saw estimate base (tr ++ [l]) i w v := by
  obtain ⟨pre, post, rfl, hv⟩ := h
  exact ⟨pre, post ++ [l], by simp, hv⟩

/-- The store, the values the clients hold and the grants, read off the messages so far. -/
structure Inv (tenant : TenantContext) (estimate : ι → ℤ) (P : WindowKey → ℤ)
    (base : WindowKey → ℤ) (tr : List (Label ι)) (s : Race ι) : Prop where
  store : ∀ w, s.store.countIn (P w) tenant.tenantId w =
    base w + chargesOf estimate (applied tr w) w
  reading : ∀ i seen left, s.phase i = .reading seen left →
    ∀ w, w ∉ left → Saw estimate base tr i w (seen w)
  charging : ∀ i d left, s.phase i = .charging d left →
    left.Nodup ∧ ∀ w ∈ left, .incr i w ∉ tr
  granted : ∀ i, (s.phase i).granted ↔ .grant i ∈ tr
  applied_granted : ∀ i w, .incr i w ∈ tr → .grant i ∈ tr

lemma inv_start (store : InMemoryQuotaStore) :
    Inv tenant estimate P (fun w => store.countIn (P w) tenant.tenantId w) []
      (Race.start store : Race ι) := by
  refine ⟨fun w => by simp [Race.start, chargesOf, applied], fun i seen left h w hw => ?_,
    fun i d left h => by simp [Race.start, Phase.start] at h, fun i => ?_, by simp⟩
  · simp only [Race.start, Phase.start, Phase.reading.injEq] at h
    rw [← h.2] at hw
    cases w <;> simp [windows] at hw
  · simp [Race.start, Phase.start]

/-- One client moves and the others stay: what is left to show is about that client. -/
lemma Inv.move {base : WindowKey → ℤ} {tr : List (Label ι)} {s : Race ι}
    (h : Inv tenant estimate P base tr s) {l : Label ι} {i : ι} {ph : Phase}
    {st : InMemoryQuotaStore} (hgrant : ∀ j, l = .grant j → j = i)
    (hincr : ∀ j w, l = .incr j w → j = i)
    (hstore : ∀ w, st.countIn (P w) tenant.tenantId w =
      base w + chargesOf estimate (applied (tr ++ [l]) w) w)
    (hreading : ∀ seen left, ph = .reading seen left →
      ∀ w, w ∉ left → Saw estimate base (tr ++ [l]) i w (seen w))
    (hcharging : ∀ d left, ph = .charging d left →
      left.Nodup ∧ ∀ w ∈ left, .incr i w ∉ tr ++ [l])
    (hgranted : ph.granted ↔ .grant i ∈ tr ++ [l])
    (happlied : ∀ w, .incr i w ∈ tr ++ [l] → .grant i ∈ tr ++ [l]) :
    Inv tenant estimate P base (tr ++ [l]) (Race.move ⟨st, s.phase⟩ i ph) := by
  have hne : ∀ j, j ≠ i → (Race.move ⟨st, s.phase⟩ i ph).phase j = s.phase j :=
    fun j hj => Race.move_phase_of_ne _ hj _
  have hother : ∀ j, j ≠ i → (.grant j ∈ tr ++ [l] ↔ .grant j ∈ tr) ∧
      ∀ w, (.incr j w ∈ tr ++ [l] ↔ .incr j w ∈ tr) := by
    intro j hj
    refine ⟨?_, fun w => ?_⟩
    · simp only [List.mem_append, List.mem_singleton, or_iff_left_iff_imp]
      exact fun hl => absurd (hgrant j hl.symm) hj
    · simp only [List.mem_append, List.mem_singleton, or_iff_left_iff_imp]
      exact fun hl => absurd (hincr j w hl.symm) hj
  refine ⟨hstore, fun j seen left hj => ?_, fun j d left hj => ?_, fun j => ?_, fun j w => ?_⟩
  · rcases eq_or_ne j i with rfl | hji
    · rw [Race.move_phase_self] at hj
      exact hreading seen left hj
    · rw [hne j hji] at hj
      exact fun w hw => (h.reading j seen left hj w hw).snoc l
  · rcases eq_or_ne j i with rfl | hji
    · rw [Race.move_phase_self] at hj
      exact hcharging d left hj
    · rw [hne j hji] at hj
      obtain ⟨hnodup, hleft⟩ := h.charging j d left hj
      exact ⟨hnodup, fun w hw => ((hother j hji).2 w).not.mpr (hleft w hw)⟩
  · rcases eq_or_ne j i with rfl | hji
    · rw [Race.move_phase_self]
      exact hgranted
    · rw [hne j hji, (hother j hji).1]
      exact h.granted j
  · rcases eq_or_ne j i with rfl | hji
    · exact happlied w
    · rw [(hother j hji).1, (hother j hji).2]
      exact h.applied_granted j w

/-- A client that is refused leaves the store and the grants as they are. -/
lemma Inv.refuse {base : WindowKey → ℤ} {tr : List (Label ι)} {s : Race ι}
    (h : Inv tenant estimate P base tr s) {i : ι} {seen : WindowKey → ℤ}
    (hphase : s.phase i = .reading seen []) {ph : Phase} (hr : ∀ f left, ph ≠ .reading f left)
    (hc : ∀ d left, ph ≠ .charging d left) (hg : ph.granted = false) :
    Inv tenant estimate P base (tr ++ [.refuse i]) (s.move i ph) := by
  have hng : .grant i ∉ tr := by rw [← h.granted i, hphase]; simp
  refine h.move (by simp) (by simp) (fun w => ?_) (fun f left hph => absurd hph (hr f left))
    (fun d left hph => absurd hph (hc d left)) (by simp [hg, hng]) (fun w hw => ?_)
  · rw [applied_snoc_of_ne (by simp)]
    exact h.store w
  · simp only [List.mem_append, List.mem_singleton, reduceCtorEq, or_false] at hw ⊢
    exact h.applied_granted i w hw

lemma inv_step {base : WindowKey → ℤ} {tr : List (Label ι)} {s t : Race ι} {l : Label ι}
    (h : Inv tenant estimate P base tr s) (hs : Step tenant estimate name P s l t) :
    Inv tenant estimate P base (tr ++ [l]) t := by
  cases hs with
  | @read i seen w left now hphase hnow =>
    have hng : .grant i ∉ tr := by rw [← h.granted i, hphase]; simp
    refine h.move (by simp) (by simp) (fun w' => ?_) (fun seen' left' hph w' hw' => ?_) (by simp)
      ?_ (fun w' hw' => ?_)
    · rw [applied_snoc_of_ne (by simp)]
      exact h.store w'
    · cases hph
      rcases eq_or_ne w' w with rfl | hne
      · refine ⟨tr, [], rfl, ?_⟩
        rw [Function.update_self, InMemoryQuotaStore.read, hnow]
        exact h.store w'
      · rw [Function.update_of_ne hne]
        exact (h.reading i seen _ hphase w' (by simp [hne, hw'])).snoc _
    · simp [hng]
    · simp only [List.mem_append, List.mem_singleton, reduceCtorEq, or_false] at hw' ⊢
      exact h.applied_granted i w' hw'
  | @grant i seen o b hphase hverdict ho =>
    have hng : .grant i ∉ tr := by rw [← h.granted i, hphase]; simp
    refine h.move (by simp) (by simp) (fun w => ?_) (by simp) (fun d left hph => ?_)
      (by simp) (by simp)
    · rw [applied_snoc_of_ne (by simp)]
      exact h.store w
    · cases hph
      refine ⟨by decide, fun w _ => ?_⟩
      simpa using fun hw => hng (h.applied_granted i w hw)
  | @deny i seen b hphase hverdict => exact h.refuse hphase (by simp) (by simp) rfl
  | @raise i seen e hphase hverdict => exact h.refuse hphase (by simp) (by simp) rfl
  | @incr i d w left now hphase hnow =>
    have hg : .grant i ∈ tr := by rw [← h.granted i, hphase]; rfl
    obtain ⟨hnodup, hleft⟩ := h.charging i d _ hphase
    refine h.move (by simp) (by simp +contextual) (fun w' => ?_) (by simp)
      (fun d' left' hph => ?_) (by simp [hg]) (by simp [hg])
    · rw [countIn_incr]
      rcases eq_or_ne w' w with rfl | hne
      · rw [if_pos ⟨rfl, rfl⟩, if_pos hnow, h.store, applied_snoc_self, chargesOf_insert]
        · ring
        · simpa [applied] using hleft w' (by simp)
      · rw [if_neg (by simp [hne]), h.store, applied_snoc_of_ne (by simp [hne.symm])]
    · cases hph
      rw [List.nodup_cons] at hnodup
      refine ⟨hnodup.2, fun w' hw' => ?_⟩
      have hne : w' ≠ w := by rintro rfl; exact hnodup.1 hw'
      simpa [hne] using hleft w' (by simp [hw'])

/-! ### Grants whose reads are fresh -/

lemma grants_move {s : Race ι} {i : ι} {ph : Phase} {st : InMemoryQuotaStore}
    (h : ph.granted = (s.phase i).granted) :
    (Race.move ⟨st, s.phase⟩ i ph).grants = s.grants := by
  ext j
  rcases eq_or_ne j i with rfl | hji
  · simp [Race.grants, h]
  · simp [Race.grants, Race.move_phase_of_ne _ hji]

lemma grants_move_granted {s : Race ι} {i : ι} {ph : Phase} (h : ph.granted) :
    (s.move i ph).grants = insert i s.grants := by
  ext j
  rcases eq_or_ne j i with rfl | hji
  · simp [Race.grants, h]
  · simp [Race.grants, Race.move_phase_of_ne _ hji, hji]

/-- When a client is granted, every earlier grant had charged a window before the client read
it. -/
def FreshGrants (tr : List (Label ι)) : Prop :=
  ∀ pre i post, tr = pre ++ .grant i :: post → ∀ j, .grant j ∈ pre →
    ∀ w pre' post', pre = pre' ++ .read i w :: post' → .incr j w ∈ pre'

omit [DecidableEq ι] [Fintype ι] in
lemma FreshGrants.of_snoc {tr : List (Label ι)} {l : Label ι} (h : FreshGrants (tr ++ [l])) :
    FreshGrants tr := by
  rintro pre i post rfl
  exact h pre i (post ++ [l]) (by simp)

/-- A client granted at a position read each window after every earlier grant had charged it. -/
def FreshAt (tr : List (Label ι)) (m : ℕ) (i : ι) : Prop :=
  ∀ j, .grant j ∈ tr.take m → ∀ w ∈ windows, ∀ n < m,
    tr[n]? = some (.read i w) → .incr j w ∈ tr.take n

instance (tr : List (Label ι)) (m : ℕ) (i : ι) : Decidable (FreshAt tr m i) :=
  inferInstanceAs (Decidable (∀ _, _))

omit [DecidableEq ι] [Fintype ι] in
lemma split_at {tr : List (Label ι)} {n : ℕ} {l : Label ι} (h : tr[n]? = some l) :
    tr = tr.take n ++ l :: tr.drop (n + 1) := by
  obtain ⟨hlt, rfl⟩ := List.getElem?_eq_some_iff.mp h
  rw [List.getElem_cons_drop, List.take_append_drop]

omit [DecidableEq ι] [Fintype ι] in
lemma freshGrants_iff {tr : List (Label ι)} :
    FreshGrants tr ↔ ∀ m < tr.length, ∀ i, tr[m]? = some (.grant i) → FreshAt tr m i := by
  constructor
  · intro h m _ i hi j hj w _ n hn hread
    have hpre : (tr.take m)[n]? = some (.read i w) := by rwa [List.getElem?_take_of_lt hn]
    have hmem := h _ i _ (split_at hi) j hj w _ _ (split_at hpre)
    rwa [List.take_take, min_eq_left hn.le] at hmem
  · rintro h pre i post rfl j hj w pre' post' hpre
    have hw : w ∈ windows := by cases w <;> decide
    have hread : (pre ++ .grant i :: post)[pre'.length]? = some (.read i w) := by simp [hpre]
    have hlt : pre'.length < pre.length := by simp [hpre]
    simpa [hpre] using h pre.length (by simp) i (by simp) j (by simpa using hj) w hw _ hlt hread

instance (tr : List (Label ι)) : Decidable (FreshGrants tr) :=
  decidable_of_iff _ freshGrants_iff.symm

/-- The grants so far fit the caps. -/
def Fits (tenant : TenantContext) (estimate : ι → ℤ) (base : WindowKey → ℤ) (s : Race ι) : Prop :=
  ∀ w, base w + chargesOf estimate s.grants w ≤ capOf tenant.quota w

/-- A fresh grant fits beside the earlier ones. -/
lemma fits_grant (hestimate : ∀ i, 0 ≤ estimate i) {base : WindowKey → ℤ}
    {tr : List (Label ι)} {s : Race ι} (h : Inv tenant estimate P base tr s) {i : ι}
    {seen : WindowKey → ℤ} (hphase : s.phase i = .reading seen [])
    (hfresh : FreshGrants (tr ++ [.grant i]))
    (hcaps : WithinCaps (checksOf tenant.quota seen (estimate i))) {ph : Phase}
    (hph : ph.granted) : Fits tenant estimate base (s.move i ph) := by
  intro w
  have hi : i ∉ s.grants := by simp [Race.grants, hphase]
  obtain ⟨pre, post, htr, hseen⟩ := h.reading i seen [] hphase w (by simp)
  -- the read of the window came after the increments of all earlier grants
  have hsub : s.grants ⊆ applied pre w := by
    intro j hj
    have hgj : .grant j ∈ tr := (h.granted j).mp (by simpa [Race.grants] using hj)
    simpa [applied] using hfresh tr i [] rfl j hgj w pre post htr
  have hle := chargesOf_mono estimate hestimate hsub w
  have hcap := withinCaps_checksOf.mp hcaps w
  rw [grants_move_granted hph, chargesOf_insert estimate hi]
  omega

lemma fits_step (hestimate : ∀ i, 0 ≤ estimate i) {base : WindowKey → ℤ}
    {tr : List (Label ι)} {s t : Race ι} {l : Label ι}
    (h : Inv tenant estimate P base tr s) (hfits : Fits tenant estimate base s)
    (hs : Step tenant estimate name P s l t) (hfresh : FreshGrants (tr ++ [l])) :
    Fits tenant estimate base t := by
  have hsame : ∀ {i : ι} {ph : Phase} {st : InMemoryQuotaStore},
      ph.granted = (s.phase i).granted → Fits tenant estimate base
        (Race.move ⟨st, s.phase⟩ i ph) := by
    intro i ph st hph w
    rw [grants_move hph]
    exact hfits w
  cases hs with
  | read hphase hnow => exact hsame (by rw [hphase]; rfl)
  | grant hphase hverdict ho =>
    exact fits_grant hestimate h hphase hfresh (judge_ok_of_ne_deny hverdict ho) rfl
  | deny hphase hverdict => exact hsame (by rw [hphase]; rfl)
  | raise hphase hverdict => exact hsame (by rw [hphase]; rfl)
  | incr hphase hnow => exact hsame (by rw [hphase]; rfl)

lemma fits_run (hestimate : ∀ i, 0 ≤ estimate i) {store : InMemoryQuotaStore}
    (hbase : ∀ w, store.countIn (P w) tenant.tenantId w ≤ capOf tenant.quota w)
    {tr : List (Label ι)} {s : Race ι}
    (hrun : Steps (Step tenant estimate name P) (Race.start store) tr s)
    (hfresh : FreshGrants tr) :
    Fits tenant estimate (fun w => store.countIn (P w) tenant.tenantId w) s := by
  set base : WindowKey → ℤ := fun w => store.countIn (P w) tenant.tenantId w
  have hrun' := hrun.invariant
    (I := fun tr s => Inv tenant estimate P base tr s ∧
      (FreshGrants tr → Fits tenant estimate base s))
    ⟨inv_start store, fun _ w => by
      simpa [chargesOf, Race.grants, Race.start, Phase.start] using hbase w⟩
    (fun hi hs => ⟨inv_step hi.1 hs, fun hf => fits_step hestimate hi.1 (hi.2 hf.of_snoc) hs hf⟩)
  exact hrun'.2 hfresh

/-- **No over-granting between fresh grants.** From counters within the caps, in every
interleaving in which each grant has read every earlier grant's increments, what was there and
what is granted stay within the caps. -/
theorem grants_fit_of_fresh (hestimate : ∀ i, 0 ≤ estimate i) {store : InMemoryQuotaStore}
    (hbase : ∀ w, store.countIn (P w) tenant.tenantId w ≤ capOf tenant.quota w)
    {tr : List (Label ι)} {s : Race ι}
    (hrun : Steps (Step tenant estimate name P) (Race.start store) tr s)
    (hfresh : FreshGrants tr) :
    store.countIn (P .tokensPerMin) tenant.tenantId .tokensPerMin + ∑ i ∈ s.grants, estimate i ≤
        tenant.quota.tokensPerMin ∧
      store.countIn (P .tokensPerDay) tenant.tenantId .tokensPerDay + ∑ i ∈ s.grants, estimate i ≤
        tenant.quota.tokensPerDay ∧
      store.countIn (P .requestsPerMin) tenant.tenantId .requestsPerMin + s.grants.card ≤
        tenant.quota.requestsPerMin := by
  have h := fits_run hestimate hbase hrun hfresh
  refine ⟨h .tokensPerMin, h .tokensPerDay, ?_⟩
  simpa [chargesOf, chargeOf, capOf] using h .requestsPerMin

end

/-! ### Two clients that read before either charges -/

def racingTenant : TenantContext := { tenantId := py "t", quota := ⟨10, 15, 1000, ofRat (9 / 10)⟩ }

/-- What a client reads from an empty store. -/
def seenEmpty (w : WindowKey) : ℤ := InMemoryQuotaStore.read {} 0 racingTenant.tenantId w

abbrev RacingStep := Step racingTenant (fun _ : Bool => 10) (fun _ => py "p") (fun _ => 0)

def grantOfTen : QuotaDecision := ⟨.allow, 10, none, some (py "p")⟩

lemma period_zero (w : WindowKey) : period w 0 = 0 := by cases w <;> decide +kernel

lemma racing_verdict :
    judge racingTenant.quota.softLimitRatio (checksOf racingTenant.quota seenEmpty 10)
      .allow none = .ok (.allow, none) := by decide +kernel

/-- A client that has read the empty store is granted its ten tokens. -/
lemma racing_grant {s : Race Bool} {i : Bool} (h : s.phase i = .reading seenEmpty []) :
    RacingStep s (.grant i) (s.move i (.charging grantOfTen windows)) :=
  .grant h racing_verdict (by simp)

/-- Both clients read, then both are granted. -/
def bothGranted : Race Bool :=
  ((((Race.start {}).move true (.reading seenEmpty [])).move false (.reading seenEmpty [])).move
    true (.charging grantOfTen windows)).move false (.charging grantOfTen windows)

lemma racing_run : ∃ tr, Steps RacingStep (Race.start {}) tr bothGranted := by
  have h1 := steps_read racingTenant (fun _ : Bool => 10) (fun _ => py "p")
    (s := Race.start {}) (i := true) rfl period_zero
  have h2 := h1.append (steps_read racingTenant (fun _ : Bool => 10) (fun _ => py "p")
    (i := false) rfl period_zero)
  have h3 := h2.snoc (racing_grant (i := true) rfl)
  exact ⟨_, h3.snoc (racing_grant (i := false) rfl)⟩

/-- Two reservations of ten tokens under a cap of fifteen: each reads before the other charges,
and both are granted. -/
theorem stale_reads_overgrant :
    ¬ ∀ (ι : Type) (_ : DecidableEq ι) (_ : Fintype ι) (tenant : TenantContext)
      (estimate : ι → ℤ) (name : ι → PyStr) (P : WindowKey → ℤ) (store : InMemoryQuotaStore),
      (∀ i, 0 ≤ estimate i) →
      (∀ w, store.countIn (P w) tenant.tenantId w ≤ capOf tenant.quota w) →
      ∀ (tr : List (Label ι)) (s : Race ι),
        Steps (Step tenant estimate name P) (Race.start store) tr s →
        store.countIn (P .tokensPerMin) tenant.tenantId .tokensPerMin +
          ∑ i ∈ s.grants, estimate i ≤ tenant.quota.tokensPerMin := by
  intro h
  obtain ⟨tr, hrun⟩ := racing_run
  have := h Bool inferInstance inferInstance racingTenant (fun _ => 10) (fun _ => py "p")
    (fun _ => 0) {} (by simp) (by intro w; cases w <;> decide) tr bothGranted hrun
  revert this
  decide

abbrev FreshStep := Step racingTenant (fun i => cond i 10 5) (fun _ => py "p") (fun _ => 0)

/-- Each window is read by the second client as soon as the first has charged it. -/
def interleaved : List (Label Bool) :=
  [.read true .requestsPerMin, .read true .tokensPerMin, .read true .tokensPerDay, .grant true,
    .incr true .requestsPerMin, .read false .requestsPerMin,
    .incr true .tokensPerMin, .read false .tokensPerMin,
    .incr true .tokensPerDay, .read false .tokensPerDay, .grant false,
    .incr false .requestsPerMin, .incr false .tokensPerMin, .incr false .tokensPerDay]

lemma freshGrants_interleaved : FreshGrants interleaved := by decide

/-- Both clients are granted what they ask for, the second one up to the cap. -/
lemma interleaved_run : ∃ s, Steps FreshStep (Race.start {}) interleaved s ∧
    s.grants = Finset.univ := by
  have hreads := steps_read racingTenant (fun i : Bool => cond i 10 5) (fun _ => py "p")
    (s := Race.start {}) (i := true) rfl period_zero
  have h := hreads.snoc (.grant (i := true) (o := .allow) rfl racing_verdict (by simp))
  have h := h.snoc (.incr (i := true) rfl (period_zero _))
  have h := h.snoc (.read (i := false) rfl (period_zero _))
  have h := h.snoc (.incr (i := true) rfl (period_zero _))
  have h := h.snoc (.read (i := false) rfl (period_zero _))
  have h := h.snoc (.incr (i := true) rfl (period_zero _))
  have h := h.snoc (.read (i := false) rfl (period_zero _))
  have h := h.snoc (.grant (i := false) (o := .softLimit) (b := some .tokensPerMin) rfl
    (by decide +kernel) (by simp))
  have h := h.snoc (.incr (i := false) rfl (period_zero _))
  have h := h.snoc (.incr (i := false) rfl (period_zero _))
  have h := h.snoc (.incr (i := false) rfl (period_zero _))
  exact ⟨_, h, by decide⟩

/-- Two clients whose messages interleave, ten and five tokens under a cap of fifteen. -/
theorem interleaved_grants_fit :
    ∃ s, Steps FreshStep (Race.start {}) interleaved s ∧ s.grants = Finset.univ ∧
      0 + ∑ i ∈ s.grants, (cond i 10 5 : ℤ) ≤ 15 := by
  obtain ⟨s, hrun, hgrants⟩ := interleaved_run
  have hfits := grants_fit_of_fresh (by decide) (by intro w; cases w <;> decide) hrun
    freshGrants_interleaved
  exact ⟨s, hrun, hgrants, hfits.1⟩

end ModelDispatcher.ReserveRace
