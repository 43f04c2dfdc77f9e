import Mathlib.Data.List.Perm.Basic
import ModelDispatcher.Alternatives

/-!
The order of pooled keys: for a vendor whose answer depends on the key alone, what the rotation
over the keys ends with, and when every order of them ends the same way.
-/

namespace ModelDispatcher.KeyOrder

open Lib.Text Lib.Floats Lib.Logged DataTypes Exceptions Config Providers Quota Security Machines
open Handlers ModelInvocationHandler Turns Rotation Waiting Alternatives

/-! ### Rotation over fates -/

/-- What becomes of a key while another provider is left. -/
inductive Fate
  /-- The key is done; the next one, or the next provider. -/
  | moves
  /-- The next key; without one, the dispatch stops. -/
  | refused
  /-- The run ends. -/
  | decides (out : Except PyException HandlerOutcome)
  deriving DecidableEq

/-- The end of a rotation over keys with these fates. -/
def rotate : List Fate → Except PyException HandlerOutcome
  | [] => .ok .fallback
  | .moves :: fs => rotate fs
  | [.refused] => .ok .stop
  | .refused :: fs => rotate fs
  | .decides out :: _ => out

/-- The keys that end the run end it the same way; and where none does, none is refused. -/
def Agreed (fs : List Fate) : Prop :=
  (∀ d e, .decides d ∈ fs → .decides e ∈ fs → d = e) ∧
    ((∀ d, .decides d ∉ fs) → .refused ∉ fs)

lemma rotate_refused {fs : List Fate} (hne : fs ≠ []) : rotate (.refused :: fs) = rotate fs := by
  cases fs with
  | nil => exact absurd rfl hne
  | cons f fs => rfl

/-- Keys that do not end the run leave it to the last one. -/
lemma rotate_append_singleton {fs : List Fate} (hfs : ∀ d, .decides d ∉ fs) (f : Fate) :
    rotate (fs ++ [f]) = rotate [f] := by
  induction fs with
  | nil => rfl
  | cons g fs ih =>
    have hrest := ih fun d hd => hfs d (by simp [hd])
    cases g with
    | moves => exact hrest
    | refused => exact (rotate_refused (by simp)).trans hrest
    | decides d => exact absurd (by simp) (hfs d)

lemma rotate_of_decides {fs : List Fate} {d : Except PyException HandlerOutcome}
    (hmem : .decides d ∈ fs) (hd : ∀ e, .decides e ∈ fs → e = d) : rotate fs = d := by
  induction fs with
  | nil => simp at hmem
  | cons f fs ih =>
    cases f with
    | decides e => exact hd e (by simp)
    | moves => exact ih (by simpa using hmem) fun e he => hd e (by simp [he])
    | refused =>
      have hrest : .decides d ∈ fs := by simpa using hmem
      rw [rotate_refused (List.ne_nil_of_mem hrest)]
      exact ih hrest fun e he => hd e (by simp [he])

lemma rotate_of_moves {fs : List Fate} (hfs : ∀ f ∈ fs, f = .moves) :
    rotate fs = .ok .fallback := by
  induction fs with
  | nil => rfl
  | cons f fs ih =>
    rw [hfs f (by simp)]
    exact ih fun g hg => hfs g (by simp [hg])

lemma Agreed.perm {fs gs : List Fate} (h : Agreed fs) (hperm : gs.Perm fs) : Agreed gs := by
  simpa only [Agreed, hperm.mem_iff] using h

/-- What keys that agree end with. -/
lemma Agreed.rotate_eq {fs : List Fate} (h : Agreed fs) :
    (∃ d, .decides d ∈ fs ∧ rotate fs = d) ∨
      (∀ d, .decides d ∉ fs) ∧ rotate fs = .ok .fallback := by
  by_cases hdecides : ∃ d, .decides d ∈ fs
  · obtain ⟨d, hd⟩ := hdecides
    exact .inl ⟨d, hd, rotate_of_decides hd fun e he => h.1 e d he hd⟩
  · have hnone := not_exists.mp hdecides
    refine .inr ⟨hnone, rotate_of_moves fun f hf => ?_⟩
    cases f with
    | moves => rfl
    | refused => exact absurd hf (h.2 hnone)
    | decides d => exact absurd hf (hnone d)

/-- Every order of the keys ends the same way exactly when the keys agree, unless all of them are
refused. -/
lemma rotate_perm_iff {fs : List Fate} (husable : ∃ f ∈ fs, f ≠ .refused) :
    (∀ gs : List Fate, gs.Perm fs → rotate gs = rotate fs) ↔ Agreed fs := by
  constructor
  · intro hall
    have hmove : ∀ {f : Fate}, f ∈ fs → ∃ gs, (f :: gs).Perm fs := by
      intro f hf
      obtain ⟨pre, post, rfl⟩ := List.append_of_mem hf
      exact ⟨pre ++ post, List.perm_middle.symm⟩
    refine ⟨fun d e hd he => ?_, fun hnone hrefused => ?_⟩
    · obtain ⟨gs, hgs⟩ := hmove hd
      obtain ⟨gs', hgs'⟩ := hmove he
      exact (hall _ hgs).trans (hall _ hgs').symm
    · -- the refused key last, or the other one
      obtain ⟨f, hf, hne⟩ := husable
      have hlast : ∀ {f : Fate}, f ∈ fs → rotate [f] = rotate fs := by
        intro f hf
        obtain ⟨gs, hgs⟩ := hmove hf
        have hperm := (List.perm_append_singleton f gs).trans hgs
        rw [← hall _ hperm, rotate_append_singleton]
        exact fun d hd => hnone d (hgs.mem_iff.mp (by simp [hd]))
      cases f with
      | moves => cases (hlast hf).trans (hlast hrefused).symm
      | refused => exact hne rfl
      | decides d => exact hnone d hf
  · intro hagreed gs hperm
    rcases hagreed.rotate_eq with ⟨d, hd, hout⟩ | ⟨hnone, hout⟩
    · rw [hout]
      exact rotate_of_decides (hperm.mem_iff.mpr hd)
        fun e he => hagreed.1 e d (hperm.mem_iff.mp he) hd
    · rcases (hagreed.perm hperm).rotate_eq with ⟨d, hd, -⟩ | ⟨-, hout'⟩
      · exact absurd (hperm.mem_iff.mp hd) (hnone d)
      · rw [hout, hout']

/-! ### The fate of a key -/

/-- The waits between so many retries of a failure, from an attempt number on. -/
def waits (h : ModelInvocationHandler) (p : ModelProvider) (exc : VendorError) :
    ℕ → ℕ → Except PyException Unit
  | 0, _ => .ok ()
  | n + 1, attempt => do
    let d ← (h.backoffDelay attempt p exc).mapError .builtin
    sleep d
    waits h p exc n (attempt + 1)

/-- What becomes of a key with a constant answer, with so many retries left. -/
def fateFrom (h : ModelInvocationHandler) (p : ModelProvider) (retries attempt : ℕ) :
    CallResult → Fate
  | .returned _ => .decides (.ok .success)
  | .raisedLibrary e => .decides (.error (.library e))
  | .raised exc =>
    match p.classifyError exc with
    | .rateLimit => .moves
    | .quota => .moves
    | .auth => .refused
    | .invalid => .decides (.ok .stop)
    | .content => .decides (.ok .stop)
    | .transient =>
      match waits h p exc retries attempt with
      | .ok () => .moves
      | .error e => .decides (.error e)

def fate (h : ModelInvocationHandler) (p : ModelProvider) (result : CallResult) : Fate :=
  if h.maxAttempts ≤ 0 then .moves else fateFrom h p (h.maxAttempts.toNat - 1) 1 result

/-- How a key with a fate ends, with more keys left or not. -/
def Leaves (more : Bool) (out : Except PyException (Option HandlerOutcome)) : Fate → Prop
  | .moves => out = .ok none ∨ more = false ∧ out = .ok (some .fallback)
  | .refused => out = .ok (if more then none else some .stop)
  | .decides d => out = d.map some

section

variable {h : ModelInvocationHandler} {w : World} {c : InvocationContext} {k : KeySlot}
variable {exc : VendorError} {attempt : ℕ}

lemma waits_succ (n : ℕ) : waits h k.provider exc (n + 1) attempt =
    (nap h k exc attempt >>= fun _ => waits h k.provider exc n (attempt + 1)) := by
  rw [nap, bind_assoc]
  rfl

lemma fateFrom_retried {n : ℕ} (hclass : k.provider.classifyError exc = .transient)
    (hnap : nap h k exc attempt = .ok ()) :
    fateFrom h k.provider (n + 1) attempt (.raised exc) =
      fateFrom h k.provider n (attempt + 1) (.raised exc) := by
  simp only [fateFrom, hclass, waits_succ, hnap]
  rfl

/-- A failure that is not retried is settled, while another provider is left. -/
lemma reaction_of_provider_left (hk : k.hasMoreProviders = true)
    (hlast : ¬ (k.provider.classifyError exc = .transient ∧ (attempt : ℤ) < h.maxAttempts)) :
    reaction h k exc attempt = settled k (k.provider.classifyError exc) := by
  have hretry : (isRetryable (k.provider.classifyError exc) && attempt < h.maxAttempts) = false :=
    Bool.eq_false_iff.mpr fun hr => hlast (by simpa [isRetryable] using hr)
  have hconsults : h.consultsHint k (k.provider.classifyError exc) attempt = false := by
    simp [consultsHint, hk]
  unfold reaction
  simp [hretry, hconsults]

lemma leaves_of_leave {out : Except PyException (Option HandlerOutcome)}
    (hleaves : LeavesKey (Reaction.leave.ending h k exc attempt) out) :
    Leaves k.hasMoreCredentials out .moves := by
  rw [Reaction.ending] at hleaves
  split_ifs at hleaves with hmore <;> cases hleaves
  · exact .inl rfl
  · exact .inr ⟨Bool.eq_false_iff.mpr hmore, rfl⟩

lemma leaves_of_settled {n : ℕ} {out : Except PyException (Option HandlerOutcome)}
    (hn : k.provider.classifyError exc = .transient → n = 0)
    (hleaves : LeavesKey
      ((settled k (k.provider.classifyError exc)).ending h k exc attempt) out) :
    Leaves k.hasMoreCredentials out (fateFrom h k.provider n attempt (.raised exc)) := by
  cases hclass : k.provider.classifyError exc with
  | rateLimit =>
    rw [hclass] at hleaves
    simpa only [fateFrom, hclass] using leaves_of_leave hleaves
  | quota =>
    rw [hclass] at hleaves
    simpa only [fateFrom, hclass] using leaves_of_leave hleaves
  | transient =>
    obtain rfl := hn hclass
    rw [hclass] at hleaves
    simpa only [fateFrom, hclass, waits] using leaves_of_leave hleaves
  | auth =>
    rw [hclass] at hleaves
    simp only [fateFrom, hclass, Leaves]
    cases hmore : k.hasMoreCredentials <;>
      simp only [settled, isFallbackWorthy, isRetryable, hmore, Reaction.ending] at hleaves <;>
      cases hleaves <;> rfl
  | invalid =>
    rw [hclass] at hleaves
    simp only [fateFrom, hclass]
    cases hleaves
    rfl
  | content =>
    rw [hclass] at hleaves
    simp only [fateFrom, hclass]
    cases hleaves
    rfl

/-- A failure that ends its key ends it by the key's fate. -/
lemma leaves_of_failed {n : ℕ} (hk : k.hasMoreProviders = true)
    (hn : (attempt : ℤ) + n = h.maxAttempts) {out : Except PyException (Option HandlerOutcome)}
    (hleaves : LeavesKey ((reaction h k exc attempt).ending h k exc attempt) out) :
    Leaves k.hasMoreCredentials out (fateFrom h k.provider n attempt (.raised exc)) := by
  by_cases hretry : k.provider.classifyError exc = .transient ∧ (attempt : ℤ) < h.maxAttempts
  · rw [(reaction_retry_iff_of_alternative (.inr hk)).mpr hretry, Reaction.ending] at hleaves
    obtain ⟨m, rfl⟩ : ∃ m, n = m + 1 := Nat.exists_eq_succ_of_ne_zero (by omega)
    cases hnap : nap h k exc attempt with
    | ok u =>
      rw [hnap] at hleaves
      cases hleaves
    | error e =>
      rw [hnap] at hleaves
      cases hleaves
      simp only [fateFrom, hretry.1, waits_succ, hnap]
      rfl
  · rw [reaction_of_provider_left hk hretry] at hleaves
    refine leaves_of_settled (fun hclass => ?_) hleaves
    have hlast : ¬ (attempt : ℤ) < h.maxAttempts := fun hlt => hretry ⟨hclass, hlt⟩
    omega

/-- The attempts with a key whose answer is constant end by its fate. -/
lemma leaves_of_slot {l : List Event} {n : ℕ} {as : List Attempt} {result : CallResult}
    {out : Except PyException (Option HandlerOutcome)}
    (hs : SlotRun h w c k l (n + 1) attempt as out) (hk : k.hasMoreProviders = true)
    (hanswer : ∀ l, answerTo w c k l = result) (hn : (attempt : ℤ) + n = h.maxAttempts) :
    Leaves k.hasMoreCredentials out (fateFrom h k.provider n attempt result) := by
  generalize hm : n + 1 = m at hs
  induction hs generalizing n with
  | spent => omega
  | again ha hrest ih =>
    obtain rfl := Nat.succ.inj hm
    rw [hanswer] at ha
    generalize hagain : Except.ok Attempted.again = v at ha
    cases ha with
    | failed exc =>
      -- one wait less to make
      obtain ⟨hretry, hnap⟩ := ending_again_iff.mp hagain.symm
      obtain ⟨hclass, hlt⟩ := (reaction_retry_iff_of_alternative (.inr hk)).mp hretry
      obtain ⟨n, rfl⟩ : ∃ m, n = m + 1 := Nat.exists_eq_succ_of_ne_zero (by omega)
      rw [fateFrom_retried hclass (nap_ok_iff.mpr hnap)]
      exact ih (by push_cast at *; omega) rfl
    | _ => cases hagain
  | ended ha hleaves =>
    obtain rfl := Nat.succ.inj hm
    rw [hanswer] at ha
    cases ha with
    | served =>
      cases hleaves
      rfl
    | library e =>
      cases hleaves
      rfl
    | failed exc => exact leaves_of_failed hk hn hleaves

end

/-! ### The rotation over a pool -/

section

variable {h : ModelInvocationHandler} {w : World} {c : InvocationContext} {p : ModelProvider}
variable {answerOf : Option PyStr → CallResult}

/-- The fate of a pooled key. -/
def fateOf (h : ModelInvocationHandler) (p : ModelProvider)
    (answerOf : Option PyStr → CallResult) (credential : Option Credential) : Fate :=
  fate h p (answerOf (credential.bind Credential.rawKey))

lemma leaves_of_key {k : KeySlot} {l : List Event} {as : List Attempt}
    {out : Except PyException (Option HandlerOutcome)}
    (hs : SlotRun h w c k l h.maxAttempts.toNat 1 as out) (hk : k.hasMoreProviders = true)
    (hanswer : ∀ l key, w.complete l k.provider c.request key = answerOf key) :
    Leaves k.hasMoreCredentials out (fateOf h k.provider answerOf k.credential) := by
  unfold fateOf fate
  split_ifs with hmax
  · rw [Int.toNat_of_nonpos hmax] at hs
    cases hs
    exact .inl rfl
  · obtain ⟨n, hn⟩ : ∃ n, h.maxAttempts.toNat = n + 1 :=
      Nat.exists_eq_succ_of_ne_zero (by omega)
    rw [hn] at hs ⊢
    exact leaves_of_slot hs hk (fun l => hanswer l _) (by omega)

/-- A run over keys whose answers are constant is the rotation over their fates. -/
lemma rotate_of_pool {l : List Event} {keys : List (Option Credential)} {index : ℕ}
    {as : List Attempt} {out : Except PyException HandlerOutcome}
    (hp : PoolRun h w c p true l keys index as out)
    (hanswer : ∀ l key, w.complete l p c.request key = answerOf key) :
    out = rotate (keys.map (fateOf h p answerOf)) := by
  induction hp with
  | exhausted => rfl
  | @next l credential rest index as bs out hslot hrest ih =>
    have hleaves := leaves_of_key hslot rfl hanswer
    rw [ih, List.map_cons]
    cases hfate : fateOf h p answerOf credential with
    | moves => rfl
    | refused =>
      rw [show fateOf h p answerOf credential = .refused from hfate] at hleaves
      cases rest with
      | nil => cases hleaves
      | cons => rfl
    | decides d =>
      rw [show fateOf h p answerOf credential = .decides d from hfate] at hleaves
      cases d <;> cases hleaves
  | @ended l credential rest index as v out hslot hleft =>
    have hleaves := leaves_of_key hslot rfl hanswer
    rw [List.map_cons]
    cases hfate : fateOf h p answerOf credential with
    | moves =>
      rw [show fateOf h p answerOf credential = .moves from hfate] at hleaves
      rcases hleaves with rfl | ⟨hnone, rfl⟩
      · cases hleft
      · obtain rfl : rest = [] := by simpa using hnone
        cases hleft
        rfl
    | refused =>
      rw [show fateOf h p answerOf credential = .refused from hfate] at hleaves
      cases rest with
      | nil =>
        obtain rfl : v = .ok (some .stop) := hleaves
        cases hleft
        rfl
      | cons =>
        obtain rfl : v = .ok none := hleaves
        cases hleft
    | decides d =>
      rw [show fateOf h p answerOf credential = .decides d from hfate] at hleaves
      obtain rfl : v = d.map some := hleaves
      cases d <;> (cases hleft; rfl)

end

/-! ### Permutations of a pool -/

/-- The state with these keys in the pool. -/
def pooled (s : Machine) (pool : List Credential) : Machine :=
  { s with scratch := { s.scratch with credentials := pool } }

/-- What the handler ends with on a pool of keys. -/
def outcome (h : ModelInvocationHandler) (w : World) (c : InvocationContext) (s : Machine)
    (pool : List Credential) : Except PyException HandlerOutcome :=
  answer (invoked h w c (pooled s pool))

/-- The call with the key is refused as unauthorised. -/
def Refused (p : ModelProvider) (result : CallResult) : Prop :=
  ∃ exc, result = .raised exc ∧ p.classifyError exc = .auth

/-- The call with the key succeeds, or fails on a limit, on a transient error or as refused. -/
def Plain (p : ModelProvider) (result : CallResult) : Prop :=
  (∃ response, result = .returned response) ∨ ∃ exc, result = .raised exc ∧
    p.classifyError exc ∈ [.rateLimit, .quota, .transient, .auth]

/-- A pool of keys of a vendor whose answer depends on the key alone; not all of them are refused,
and another provider is left. -/
structure Pool (w : World) (c : InvocationContext) (pool : List Credential) (p : ModelProvider)
    (answerOf : Option PyStr → CallResult) : Prop where
  candidates : ∃ q rest, c.candidates = p :: q :: rest
  keyed : ∀ l key, w.complete l p c.request key = answerOf key
  plain : ∀ credential ∈ pool, Plain p (answerOf credential.rawKey)
  usable : ∃ credential ∈ pool, ¬ Refused p (answerOf credential.rawKey)

/-- Every order of the keys ends the same way, and none of them aborts the dispatch. -/
def OrderFree (h : ModelInvocationHandler) (w : World) (c : InvocationContext) (s : Machine)
    (pool : List Credential) : Prop :=
  ∀ order : List Credential, order.Perm pool →
    outcome h w c s order = outcome h w c s pool ∧ outcome h w c s order ≠ .ok .stop

/-- The fates of the keys of a pool. -/
def fates (h : ModelInvocationHandler) (p : ModelProvider)
    (answerOf : Option PyStr → CallResult) (pool : List Credential) : List Fate :=
  pool.map fun credential => fateOf h p answerOf (some credential)

section

variable {h : ModelInvocationHandler} {w : World} {c : InvocationContext} {s : Machine}
variable {p : ModelProvider} {answerOf : Option PyStr → CallResult} {pool : List Credential}

lemma outcome_eq {q : ModelProvider} {rest : List ModelProvider}
    (hc : c.candidates = p :: q :: rest)
    (hkeyed : ∀ l key, w.complete l p c.request key = answerOf key) (hne : pool ≠ []) :
    outcome h w c s pool = rotate (fates h p answerOf pool) := by
  have hrun := (invoked_run h w c (pooled s pool) hc).1
  have hkeys : keys (pooled s pool) = pool.map some := if_neg hne
  have hout := rotate_of_pool hrun hkeyed
  rw [hkeys, List.map_map] at hout
  exact hout

/-- The fates of the keys of a pool: none of them stops the dispatch by itself. -/
lemma fateOf_of_plain {credential : Credential} (hplain : Plain p (answerOf credential.rawKey)) :
    fateOf h p answerOf (some credential) = .moves ∨
      fateOf h p answerOf (some credential) = .refused ∧
        Refused p (answerOf credential.rawKey) ∨
      ∃ d, fateOf h p answerOf (some credential) = .decides d ∧ d ≠ .ok .stop := by
  unfold fateOf fate
  rw [Option.bind_some]
  split_ifs
  · exact .inl rfl
  · rcases hplain with ⟨response, hr⟩ | ⟨exc, hr, hclass⟩
    · rw [hr]
      exact .inr (.inr ⟨_, rfl, by simp⟩)
    · rw [hr]
      simp only [List.mem_cons, List.not_mem_nil, or_false] at hclass
      rcases hclass with hclass | hclass | hclass | hclass
      · exact .inl (by simp only [fateFrom, hclass])
      · exact .inl (by simp only [fateFrom, hclass])
      · simp only [fateFrom, hclass]
        cases waits h p exc (h.maxAttempts.toNat - 1) 1 <;> simp
      · exact .inr (.inl ⟨by simp only [fateFrom, hclass], exc, rfl, hclass⟩)

lemma Pool.exists_not_refused (hpool : Pool w c pool p answerOf) :
    ∃ f ∈ fates h p answerOf pool, f ≠ .refused := by
  obtain ⟨credential, hmem, hnot⟩ := hpool.usable
  refine ⟨_, List.mem_map_of_mem hmem, ?_⟩
  rcases fateOf_of_plain (h := h) (hpool.plain credential hmem) with hf | ⟨-, hrefused⟩ | ⟨d, hf, -⟩
  · rw [hf]
    simp
  · exact absurd hrefused hnot
  · rw [hf]
    simp

lemma Pool.not_stop (hpool : Pool w c pool p answerOf) :
    .decides (.ok .stop) ∉ fates h p answerOf pool := by
  intro hmem
  obtain ⟨credential, hcred, hfate⟩ := List.mem_map.mp hmem
  rcases fateOf_of_plain (h := h) (hpool.plain credential hcred) with hf | ⟨hf, -⟩ | ⟨d, hf, hd⟩
  · cases hf.symm.trans hfate
  · cases hf.symm.trans hfate
  · cases hf.symm.trans hfate
    exact hd rfl

lemma Pool.outcome_eq (hpool : Pool w c pool p answerOf) {order : List Credential}
    (hperm : order.Perm pool) :
    outcome h w c s order = rotate (fates h p answerOf order) := by
  obtain ⟨q, rest, hc⟩ := hpool.candidates
  obtain ⟨credential, hmem, -⟩ := hpool.usable
  exact KeyOrder.outcome_eq hc hpool.keyed (List.ne_nil_of_mem (hperm.mem_iff.mpr hmem))

end

/-- **The order of pooled keys.** It does not matter exactly when the keys that end the run by
themselves end it the same way and, where there is none, no key is refused. -/
theorem orderFree_iff {h : ModelInvocationHandler} {w : World} {c : InvocationContext}
    {s : Machine} {p : ModelProvider} {answerOf : Option PyStr → CallResult}
    {pool : List Credential} (hpool : Pool w c pool p answerOf) :
    OrderFree h w c s pool ↔ Agreed (fates h p answerOf pool) := by
  rw [← rotate_perm_iff hpool.exists_not_refused]
  constructor
  · intro hfree gs hperm
    -- an order of the fates is that of some order of the keys
    obtain ⟨order, rfl, horder⟩ :=
      (congrFun₂ (List.eq_map_comp_perm fun credential => fateOf h p answerOf (some credential))
        gs pool).mpr hperm
    have hout := (hfree order horder).1
    rwa [hpool.outcome_eq horder, hpool.outcome_eq (.refl _)] at hout
  · intro hrotate order horder
    have hagreed := (rotate_perm_iff hpool.exists_not_refused).mp hrotate
    have hsame := hrotate _ (horder.map fun credential => fateOf h p answerOf (some credential))
    rw [hpool.outcome_eq horder, hpool.outcome_eq (.refl _)]
    refine ⟨hsame, ?_⟩
    rw [fates, hsame]
    rcases hagreed.rotate_eq with ⟨d, hd, hout⟩ | ⟨-, hout⟩
    · intro hstop
      rw [← hout, hstop] at hd
      exact hpool.not_stop hd
    · rw [hout]
      simp

namespace Sample

open Refinement.Sample

def vendor : ModelProvider :=
  { provider "p" .free with
    classifyError := fun e => if e.text = py "401" then .auth else .rateLimit }

/-- A vendor whose answer to a key is the status the key spells. -/
def statusOf (key : Option PyStr) : CallResult :=
  if key = some (py "200") then .returned response
  else .raised { typeName := py "Error", text := key.getD [] }

def byKey : World := ⟨fun _ => 0, fun _ _ _ key => statusOf key⟩

def context : InvocationContext := ⟨request, tenant, [vendor, provider "q" .free]⟩

def keysSpelling (statuses : List String) : List Credential :=
  CredentialResolver.keyed vendor .user (statuses.map py)

lemma pool {statuses : List String} (husable : ∃ t ∈ statuses, py t ≠ py "401") :
    Pool byKey context (keysSpelling statuses) vendor statusOf where
  candidates := ⟨_, [], rfl⟩
  keyed _ _ := rfl
  plain credential _ := by
    unfold Plain statusOf
    split_ifs
    · exact .inl ⟨_, rfl⟩
    · refine .inr ⟨_, rfl, ?_⟩
      by_cases h401 : credential.rawKey.getD [] = py "401" <;> simp [vendor, h401]
  usable := by
    obtain ⟨t, ht, hne⟩ := husable
    refine ⟨⟨vendor.name, .user, mask (py t), some (py t), false⟩, ?_, ?_⟩
    · exact List.mem_map.mpr ⟨py t, List.mem_map_of_mem ht, rfl⟩
    · rintro ⟨exc, hexc, hclass⟩
      unfold statusOf at hexc
      split_ifs at hexc
      cases hexc
      simp [vendor, hne] at hclass

end Sample

/-- A limited key before a revoked one aborts the dispatch; the other way round it falls back. -/
theorem limited_then_revoked : ¬ ∀ (h : ModelInvocationHandler) (w : World)
    (c : InvocationContext) (s : Machine) (p : ModelProvider)
    (answerOf : Option PyStr → CallResult) (pool : List Credential),
    2 ≤ pool.length → Pool w c pool p answerOf → OrderFree h w c s pool := by
  intro hall
  have hfree := hall {} Sample.byKey Sample.context {} Sample.vendor Sample.statusOf
    (Sample.keysSpelling ["401", "429"]) (by decide)
    (Sample.pool ⟨"429", by simp, by decide⟩)
  have hstop : outcome {} Sample.byKey Sample.context {} (Sample.keysSpelling ["429", "401"]) =
      .ok .stop := by
    decide
  exact (hfree (Sample.keysSpelling ["429", "401"]) (.swap _ _ _)).2 hstop

/-- With a key that serves, the order of the keys does not matter. -/
theorem served_in_any_order :
    OrderFree {} Sample.byKey Sample.context {} (Sample.keysSpelling ["401", "200", "429"]) := by
  have hfates : fates {} Sample.vendor Sample.statusOf
      (Sample.keysSpelling ["401", "200", "429"]) =
        [.refused, .decides (.ok .success), .moves] := by
    decide
  refine (orderFree_iff (Sample.pool ⟨"200", by simp, by decide⟩)).mpr ?_
  rw [hfates]
  simp [Agreed]

end ModelDispatcher.KeyOrder
