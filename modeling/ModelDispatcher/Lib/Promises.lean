import Mathlib.Data.Nat.Notation
import ModelDispatcher.Lib.Logged

/-!
Asynchronous programs over promises whose fate the outside decides.

A program awaits promises, logging what each of them did, and stops at the first one that
rejects or never settles unless a `try` catches the rejection. `Tells` says that the log alone
decides the end of a program: it returns when no event of the log has a verdict, and otherwise
the last event has one, which is how the program ends.

A program with loops runs on fuel, and stops as still running where that is used up; `Continues`
says that another program, with more fuel, goes on from there.
-/

namespace ModelDispatcher.Lib.Promises

open Logged

variable {error ev α β : Type}

/-- What a promise does. -/
inductive Settled (error α : Type)
  | fulfilled (a : α)
  | rejected (e : error)
  | pending

/-- Why a program does not go on: a rejection, a promise that never settles, or no more fuel. -/
inductive Halt (error : Type)
  | rejected (e : error)
  | pending
  | running

/-- Programs whose state is the log of what the outside did. -/
abbrev Async (error ev : Type) := EStateM (Halt error) (List ev)

def note (e : ev) : Async error ev Unit := modify (· ++ [e])

/-- `await promise`. -/
def await : Settled error α → Async error ev α
  | .fulfilled a => pure a
  | .rejected e => throw (.rejected e)
  | .pending => throw .pending

/-- `try { x } catch (e) { ... }`, up to the branch that handles the outcome. -/
def attempt (x : Async error ev α) : Async error ev (Except error α) := fun s =>
  match x s with
  | .ok a t => .ok (.ok a) t
  | .error (.rejected e) t => .ok (.error e) t
  | .error .pending t => .error .pending t
  | .error .running t => .error .running t

lemma get_bind (f : List ev → Async error ev β) (s : List ev) :
    (get >>= f : Async error ev β) s = f s s := rfl

lemma attempt_bind_ok {x : Async error ev α} {f : Except error α → Async error ev β} {a : α}
    {s t : List ev} (h : x s = .ok a t) : (attempt x >>= f) s = f (.ok a) t := by
  simp only [bind, EStateM.bind, attempt, h]

lemma attempt_bind_rejected {x : Async error ev α} {f : Except error α → Async error ev β}
    {e : error} {s t : List ev} (h : x s = .error (.rejected e) t) :
    (attempt x >>= f) s = f (.error e) t := by
  simp only [bind, EStateM.bind, attempt, h]

lemma attempt_bind_pending {x : Async error ev α} {f : Except error α → Async error ev β}
    {s t : List ev} (h : x s = .error .pending t) : (attempt x >>= f) s = .error .pending t := by
  simp only [bind, EStateM.bind, attempt, h]

/-- What a promise that did not fulfil stops the program with. -/
def Settled.halt : Settled error α → Option (Halt error)
  | .fulfilled _ => none
  | .rejected e => some (.rejected e)
  | .pending => some .pending

/-! ### Programs that end as their log says -/

variable (verdict : ev → Option (Halt error))

/-- A run that has used up its fuel. -/
def Running (r : EStateM.Result (Halt error) (List ev) α) : Prop := ∃ t, r = .error .running t

@[simp] lemma not_running_ok (a : α) (t : List ev) :
    ¬ Running (.ok a t : EStateM.Result (Halt error) (List ev) α) := nofun

@[simp] lemma running_error {h : Halt error} {t : List ev} :
    Running (.error h t : EStateM.Result (Halt error) (List ev) α) ↔ h = .running := by
  constructor
  · rintro ⟨t', h'⟩
    cases h'
    rfl
  · rintro rfl
    exact ⟨t, rfl⟩

lemma not_running_await (promise : Settled error α) (s : List ev) :
    ¬ Running ((await promise : Async error ev α).run s) := by
  cases promise <;> nofun

/-- What stopped a program that is not running on. -/
def stopped : Except (Halt error) α → Option (Halt error)
  | .ok _ | .error .running => none
  | .error h => some h

/-- The log of a program that returned, or is still running, has no verdict; the log of one that
stopped has its verdict at the end. -/
def Told (es : List ev) (r : EStateM.Result (Halt error) (List ev) α) : Prop :=
  match stopped (answer r) with
  | none => ∀ e ∈ es, verdict e = none
  | some h => ∃ pre e, es = pre ++ [e] ∧ (∀ e ∈ pre, verdict e = none) ∧ verdict e = some h

/-- From any state, what the program appends tells how it ends. -/
def Tells (x : Async error ev α) : Prop := ∀ s, Emits id x s (Told verdict)

variable {verdict}

lemma told_seq {es fs : List ev} {r : EStateM.Result (Halt error) (List ev) α}
    (hes : ∀ e ∈ es, verdict e = none) (h : Told verdict fs r) : Told verdict (es ++ fs) r := by
  unfold Told at h ⊢
  cases hr : stopped (answer r) with
  | none =>
    rw [hr] at h
    intro e he
    rcases List.mem_append.mp he with he | he
    · exact hes e he
    · exact h e he
  | some halt =>
    rw [hr] at h
    obtain ⟨pre, e, rfl, hpre, he⟩ := h
    refine ⟨es ++ pre, e, (List.append_assoc _ _ _).symm, fun e' he' => ?_, he⟩
    rcases List.mem_append.mp he' with he' | he'
    · exact hes e' he'
    · exact hpre e' he'

lemma tells_pure (a : α) : Tells verdict (pure a : Async error ev α) :=
  fun _ => emits_pure (by simp [Told, stopped])

lemma tells_running : Tells verdict (throw .running : Async error ev α) :=
  fun _ => emits_throw (by simp [Told, stopped])

lemma tells_bind {x : Async error ev α} {f : α → Async error ev β} (hx : Tells verdict x)
    (hf : ∀ a, Tells verdict (f a)) : Tells verdict (x >>= f) := by
  intro s
  refine emits_bind (hx s) ?_ fun es h t hes => by cases h <;> exact hes
  intro es a t hes
  exact (hf a t).mono fun fs r hfs => told_seq hes hfs

lemma tells_get {f : List ev → Async error ev β} (h : ∀ log, Tells verdict (f log)) :
    Tells verdict (get >>= f) :=
  fun s => emits_get (h s s)

lemma tells_note {e : ev} (h : verdict e = none) :
    Tells verdict (note e : Async error ev Unit) :=
  fun _ => ⟨[e], rfl, fun _ he => List.mem_singleton.mp he ▸ h⟩

/-- A promise whose fate is noted before it is awaited. -/
lemma tells_await {e : ev} {promise : Settled error α} (h : verdict e = promise.halt) :
    Tells verdict (note e >>= fun _ => await promise) := by
  intro s
  cases promise with
  | fulfilled a => exact ⟨[e], rfl, fun e' he' => List.mem_singleton.mp he' ▸ h⟩
  | rejected v => exact ⟨[e], rfl, [], e, rfl, by simp, h⟩
  | pending => exact ⟨[e], rfl, [], e, rfl, by simp, h⟩

lemma finalState_attempt (x : Async error ev α) (s : List ev) :
    finalState ((attempt x).run s) = finalState (x.run s) := by
  unfold EStateM.run attempt
  cases x s with
  | ok a t => rfl
  | error halt t => cases halt <;> rfl

/-- A `try` turns a rejection into a value, and leaves every other end as it is. -/
lemma emits_attempt {x : Async error ev α} {s : List ev}
    {Q : List ev → EStateM.Result (Halt error) (List ev) α → Prop}
    {Q' : List ev → EStateM.Result (Halt error) (List ev) (Except error α) → Prop}
    (h : Emits id x s Q) (hok : ∀ es a t, Q es (.ok a t) → Q' es (.ok (.ok a) t))
    (hrejected : ∀ es e t, Q es (.error (.rejected e) t) → Q' es (.ok (.error e) t))
    (hpending : ∀ es t, Q es (.error .pending t) → Q' es (.error .pending t))
    (hrunning : ∀ es t, Q es (.error .running t) → Q' es (.error .running t)) :
    Emits id (attempt x) s Q' := by
  obtain ⟨es, hlog, hes⟩ := h
  refine ⟨es, by rw [finalState_attempt]; exact hlog, ?_⟩
  unfold EStateM.run at hes
  unfold EStateM.run attempt
  cases hrun : x s with
  | ok a t => exact hok es a t (hrun ▸ hes)
  | error halt t =>
    rw [hrun] at hes
    cases halt with
    | rejected v => exact hrejected es v t hes
    | pending => exact hpending es t hes
    | running => exact hrunning es t hes

/-! ### Which events a program appends -/

variable {I : ev → Prop}

lemma emitsOnly_note {e : ev} (h : I e) : EmitsOnly id I (note e : Async error ev Unit) :=
  fun _ => ⟨[e], rfl, by simpa using h⟩

lemma emitsOnly_await (promise : Settled error α) :
    EmitsOnly id I (await promise : Async error ev α) := by
  cases promise with
  | fulfilled a => exact emitsOnly_pure a
  | rejected e => exact emitsOnly_throw _
  | pending => exact emitsOnly_throw _

lemma emitsOnly_attempt {x : Async error ev α} (h : EmitsOnly id I x) :
    EmitsOnly id I (attempt x) := by
  intro s
  obtain ⟨es, hlog, hes⟩ := h s
  exact ⟨es, by rw [finalState_attempt]; exact hlog, hes⟩

/-! ### More fuel -/

/-- The second program ends as the first one, unless that is still running, and then it goes on from
there. -/
def Continues (x y : Async error ev α) : Prop :=
  ∀ s, x.run s = y.run s ∨ ∃ t, x.run s = .error .running t ∧ t <+: finalState (y.run s)

/-- The program only appends to its log. -/
abbrev Appends (x : Async error ev α) : Prop := EmitsOnly id (fun _ => True) x

lemma Appends.begins {x : Async error ev α} (h : Appends x) (s : List ev) :
    s <+: finalState (x.run s) := by
  obtain ⟨es, hlog, -⟩ := h s
  exact ⟨es, hlog.symm⟩

lemma continues_refl (x : Async error ev α) : Continues x x := fun _ => .inl rfl

lemma continues_bind {x y : Async error ev α} {f g : α → Async error ev β} (h : Continues x y)
    (hf : ∀ a, Continues (f a) (g a)) (hg : ∀ a, Appends (g a)) :
    Continues (x >>= f) (y >>= g) := by
  intro s
  rw [EStateM.run_bind, EStateM.run_bind]
  rcases h s with heq | ⟨t, ht, hbegins⟩
  · rw [heq]
    cases y.run s with
    | ok a t => exact hf a t
    | error e t => exact .inl rfl
  · rw [ht]
    refine .inr ⟨t, rfl, ?_⟩
    cases hy : y.run s with
    | error e t' =>
      rw [hy] at hbegins
      exact hbegins
    | ok a t' =>
      rw [hy] at hbegins
      exact hbegins.trans ((hg a).begins t')

/-- The same first part on both sides. -/
lemma continues_seq (x : Async error ev α) {f g : α → Async error ev β}
    (hf : ∀ a, Continues (f a) (g a)) : Continues (x >>= f) (x >>= g) := by
  intro s
  rw [EStateM.run_bind, EStateM.run_bind]
  cases x.run s with
  | ok a t => exact hf a t
  | error e t => exact .inl rfl

lemma continues_attempt {x y : Async error ev α} (h : Continues x y) :
    Continues (attempt x) (attempt y) := by
  intro s
  rcases h s with heq | ⟨t, ht, hbegins⟩
  · left
    unfold EStateM.run at heq ⊢
    unfold attempt
    rw [heq]
  · refine .inr ⟨t, ?_, by rw [finalState_attempt]; exact hbegins⟩
    unfold EStateM.run at ht ⊢
    unfold attempt
    rw [ht]

/-- What has begun with less fuel goes on with more. -/
lemma continues_running {x : Async error ev α} (h : Appends x) : Continues (throw .running) x :=
  fun s => .inr ⟨s, rfl, h.begins s⟩

/-- What happens with less fuel is the beginning of what happens with more. -/
lemma Continues.begins {x y : Async error ev α} (h : Continues x y) (s : List ev) :
    finalState (x.run s) <+: finalState (y.run s) := by
  rcases h s with heq | ⟨t, ht, hbegins⟩
  · exact heq ▸ List.prefix_rfl
  · rw [ht]
    exact hbegins

/-- The event happens sooner or later. -/
def Happens (x : ℕ → Async error ev α) (s : List ev) (e : ev) : Prop :=
  ∃ fuel, Emits id (x fuel) s fun es _ => e ∈ es

lemma Continues.emits_mem {x y : Async error ev α} (h : Continues x y) {s : List ev} {e : ev}
    (hmem : Emits id x s fun es _ => e ∈ es) : Emits id y s fun es _ => e ∈ es := by
  obtain ⟨es, hlog, hes⟩ := hmem
  obtain ⟨more, hmore⟩ := h.begins s
  refine ⟨es ++ more, ?_, List.mem_append_left more hes⟩
  rw [← List.append_assoc, ← hlog]
  exact hmore.symm

/-- A run that has come to an end has seen all that ever happens. -/
lemma mem_of_happens {x : ℕ → Async error ev α} (hx : ∀ n m, n ≤ m → Continues (x n) (x m))
    {s es : List ev} {n : ℕ} (hlog : finalState ((x n).run s) = s ++ es)
    (hend : ¬ Running ((x n).run s)) {e : ev} (h : Happens x s e) : e ∈ es := by
  obtain ⟨m, fs, hlog', hmem⟩ := h
  have hbegins : finalState ((x m).run s) <+: finalState ((x n).run s) := by
    rcases Nat.le_total n m with hle | hle
    · rcases hx n m hle s with heq | ⟨t, ht, -⟩
      · exact heq ▸ List.prefix_rfl
      · exact absurd ⟨t, ht⟩ hend
    · exact (hx m n hle).begins s
  rw [hlog, show finalState _ = s ++ fs from hlog', List.prefix_append_right_inj] at hbegins
  exact hbegins.subset hmem

end ModelDispatcher.Lib.Promises
