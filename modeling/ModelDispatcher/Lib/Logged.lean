import Mathlib.Tactic.Lemma

/-!
Programs that may raise, over a state that carries an append-only log.

`Emits` says which events a program appends from a state and how it ends. Its rules follow
the program's structure: the events of a sequence are those of its parts, in order.
-/

namespace ModelDispatcher.Lib.Logged

variable {ε σ ev α β : Type}

/-- The state a run ends in, whether it returned or raised. -/
def finalState : EStateM.Result ε σ α → σ
  | .ok _ s => s
  | .error _ s => s

@[simp] lemma finalState_ok (a : α) (s : σ) :
    finalState (.ok a s : EStateM.Result ε σ α) = s := rfl
@[simp] lemma finalState_error (e : ε) (s : σ) :
    finalState (.error e s : EStateM.Result ε σ α) = s := rfl

/-- What a run hands back, without its state. -/
def answer : EStateM.Result ε σ α → Except ε α
  | .ok a _ => .ok a
  | .error e _ => .error e

@[simp] lemma answer_ok (a : α) (s : σ) :
    answer (.ok a s : EStateM.Result ε σ α) = .ok a := rfl
@[simp] lemma answer_error (e : ε) (s : σ) :
    answer (.error e s : EStateM.Result ε σ α) = .error e := rfl

@[simp] lemma run_throw (e : ε) (s : σ) :
    EStateM.run (throw e : EStateM ε σ α) s = .error e s := rfl

variable (log : σ → List ev)

/-- The program appends some events; the events and the result are as the predicate says. -/
def Emits (x : EStateM ε σ α) (s : σ) (Q : List ev → EStateM.Result ε σ α → Prop) : Prop :=
  ∃ es, log (finalState (x.run s)) = log s ++ es ∧ Q es (x.run s)

variable {log} {s : σ}

lemma Emits.mono {x : EStateM ε σ α} {Q Q' : List ev → EStateM.Result ε σ α → Prop}
    (h : Emits log x s Q) (hQ : ∀ es r, Q es r → Q' es r) : Emits log x s Q' :=
  let ⟨es, hlog, hes⟩ := h
  ⟨es, hlog, hQ es _ hes⟩

lemma emits_pure {a : α} {Q : List ev → EStateM.Result ε σ α → Prop} (h : Q [] (.ok a s)) :
    Emits log (pure a : EStateM ε σ α) s Q := ⟨[], by simp, by simpa using h⟩

lemma emits_throw {e : ε} {Q : List ev → EStateM.Result ε σ α → Prop}
    (h : Q [] (.error e s)) : Emits log (throw e : EStateM ε σ α) s Q :=
  ⟨[], by simp, by simpa using h⟩

lemma emits_bind {x : EStateM ε σ α} {f : α → EStateM ε σ β}
    {P : List ev → EStateM.Result ε σ α → Prop} {Q : List ev → EStateM.Result ε σ β → Prop}
    (hx : Emits log x s P)
    (hok : ∀ es a t, P es (.ok a t) → Emits log (f a) t fun fs r => Q (es ++ fs) r)
    (herror : ∀ es e t, P es (.error e t) → Q es (.error e t)) :
    Emits log (x >>= f) s Q := by
  obtain ⟨es, hlog, hes⟩ := hx
  unfold Emits
  rw [EStateM.run_bind]
  cases h : x.run s with
  | error e t => rw [h] at hlog hes; exact ⟨es, hlog, herror es e t hes⟩
  | ok a t =>
    rw [h] at hlog hes
    obtain ⟨fs, hlog', hfs⟩ := hok es a t hes
    refine ⟨es ++ fs, ?_, hfs⟩
    rw [hlog', show log t = log s ++ es from hlog, List.append_assoc]

/-- A run that returns, with events and a value as the predicate says. -/
def Returns (P : List ev → α → Prop) (es : List ev) (r : EStateM.Result ε σ α) : Prop :=
  ∃ a t, r = .ok a t ∧ P es a

/-- A first part that always returns. -/
lemma emits_bind_returns {x : EStateM ε σ α} {f : α → EStateM ε σ β} {P : List ev → α → Prop}
    {Q : List ev → EStateM.Result ε σ β → Prop} (hx : Emits log x s (Returns P))
    (hok : ∀ es a t, P es a → Emits log (f a) t fun fs r => Q (es ++ fs) r) :
    Emits log (x >>= f) s Q := by
  refine emits_bind hx ?_ ?_
  · rintro es a t ⟨a', t', h, hP⟩
    cases h
    exact hok es a t hP
  · rintro es e t ⟨a', t', h, -⟩
    cases h

/-- A first part whose run is known. -/
lemma emits_step {x : EStateM ε σ α} {f : α → EStateM ε σ β} {a : α} {t : σ} {es : List ev}
    {Q : List ev → EStateM.Result ε σ β → Prop} (hx : x.run s = .ok a t)
    (hlog : log t = log s ++ es) (h : Emits log (f a) t fun fs r => Q (es ++ fs) r) :
    Emits log (x >>= f) s Q := by
  obtain ⟨fs, hlog', hfs⟩ := h
  refine ⟨es ++ fs, ?_, ?_⟩
  · rw [EStateM.run_bind, hx, ← List.append_assoc, ← hlog]
    exact hlog'
  · rw [EStateM.run_bind, hx]
    exact hfs

lemma emits_get {f : σ → EStateM ε σ β} {Q : List ev → EStateM.Result ε σ β → Prop}
    (h : Emits log (f s) s Q) : Emits log (get >>= f) s Q := h

/-! ### Which events a program appends -/

variable (log) in
/-- From any state, the program appends only events as the predicate says. -/
def EmitsOnly (I : ev → Prop) (x : EStateM ε σ α) : Prop :=
  ∀ s, Emits log x s fun es _ => ∀ e ∈ es, I e

section

variable {I : ev → Prop}

lemma EmitsOnly.mono {J : ev → Prop} {x : EStateM ε σ α} (h : EmitsOnly log I x)
    (hIJ : ∀ e, I e → J e) : EmitsOnly log J x :=
  fun s => (h s).mono fun _ _ hes e he => hIJ e (hes e he)

lemma emitsOnly_pure (a : α) : EmitsOnly log I (pure a : EStateM ε σ α) :=
  fun _ => emits_pure (by simp)

lemma emitsOnly_throw (e : ε) : EmitsOnly log I (throw e : EStateM ε σ α) :=
  fun _ => emits_throw (by simp)

lemma emitsOnly_get : EmitsOnly log I (get : EStateM ε σ σ) :=
  fun _ => ⟨[], (List.append_nil _).symm, by simp⟩

lemma emitsOnly_bind {x : EStateM ε σ α} {f : α → EStateM ε σ β} (hx : EmitsOnly log I x)
    (hf : ∀ a, EmitsOnly log I (f a)) : EmitsOnly log I (x >>= f) := by
  intro s
  refine emits_bind (hx s) ?_ fun _ _ _ h => h
  intro es a t hes
  refine (hf a t).mono fun fs _ hfs e he => ?_
  rcases List.mem_append.mp he with he | he
  · exact hes e he
  · exact hfs e he

end

/-! ### What a program returns -/

/-- Whatever the program returns, from any state, is as the predicate says. -/
def Yields (x : EStateM ε σ α) (P : α → Prop) : Prop := ∀ s a, answer (x.run s) = .ok a → P a

lemma Yields.mono {x : EStateM ε σ α} {P P' : α → Prop} (h : Yields x P)
    (hP : ∀ a, P a → P' a) : Yields x P' := fun s a hrun => hP a (h s a hrun)

lemma yields_pure {a : α} {P : α → Prop} (h : P a) : Yields (pure a : EStateM ε σ α) P := by
  intro s b hrun
  cases hrun
  exact h

lemma yields_throw {e : ε} {P : α → Prop} : Yields (throw e : EStateM ε σ α) P := by
  intro s a hrun
  cases hrun

lemma yields_bind {x : EStateM ε σ α} {f : α → EStateM ε σ β} {P : α → Prop} {Q : β → Prop}
    (hx : Yields x P) (hf : ∀ a, P a → Yields (f a) Q) : Yields (x >>= f) Q := by
  intro s b hrun
  rw [EStateM.run_bind] at hrun
  cases h : x.run s with
  | error e t => rw [h] at hrun; cases hrun
  | ok a t =>
    rw [h] at hrun
    exact hf a (hx s a (by rw [h]; rfl)) t b hrun

/-- A first part about which nothing is needed. -/
lemma yields_seq {x : EStateM ε σ α} {f : α → EStateM ε σ β} {Q : β → Prop}
    (hf : ∀ a, Yields (f a) Q) : Yields (x >>= f) Q :=
  yields_bind (P := fun _ => True) (fun _ _ _ => trivial) fun a _ => hf a

/-- What a program appends, together with what it returns. -/
lemma Emits.and_yields {x : EStateM ε σ α} {Q : List ev → EStateM.Result ε σ α → Prop}
    {P : α → Prop} (h : Emits log x s Q) (hx : Yields x P) :
    Emits log x s fun es r => Q es r ∧ ∀ a, answer r = .ok a → P a :=
  let ⟨es, hlog, hes⟩ := h
  ⟨es, hlog, hes, hx s⟩

/-- Two accounts of the same run are about the same events. -/
lemma Emits.and {x : EStateM ε σ α} {Q Q' : List ev → EStateM.Result ε σ α → Prop}
    (h : Emits log x s Q) (h' : Emits log x s Q') : Emits log x s fun es r => Q es r ∧ Q' es r := by
  obtain ⟨es, hlog, hes⟩ := h
  obtain ⟨fs, hlog', hfs⟩ := h'
  obtain rfl : es = fs := List.append_cancel_left (hlog.symm.trans hlog')
  exact ⟨es, hlog, hes, hfs⟩

/-- The log after a run is the one before it and what was appended. -/
lemma Emits.located {x : EStateM ε σ α} {Q : List ev → EStateM.Result ε σ α → Prop}
    (h : Emits log x s Q) :
    Emits log x s fun es r => Q es r ∧ log (finalState r) = log s ++ es :=
  let ⟨es, hlog, hes⟩ := h
  ⟨es, hlog, hes, hlog⟩

/-! ### Invariants under a condition on the events -/

section

variable (log) (A : ev → Prop) (I : σ → Prop) (E : ε → Prop)

/-- A run ends in a state of the invariant with a value, or with an exception, as the predicates
say. -/
def Settled (P : α → Prop) : EStateM.Result ε σ α → Prop
  | .ok a s => I s ∧ P a
  | .error e _ => E e

/-- Under a premise, and from a state of the invariant: if the events the program appends are all
allowed, its run settles. -/
def Keeps (H : Prop) (x : EStateM ε σ α) (s : σ) (P : α → Prop) : Prop :=
  Emits log x s fun es r => H → I s → (∀ e ∈ es, A e) → Settled I E P r

variable {log A I E} {H : Prop} {P : α → Prop} {Q : β → Prop}

lemma keeps_pure {a : α} (h : H → P a) : Keeps log A I E H (pure a : EStateM ε σ α) s P :=
  emits_pure fun hH hI _ => ⟨hI, h hH⟩

lemma keeps_throw {e : ε} (h : H → I s → E e) :
    Keeps log A I E H (throw e : EStateM ε σ α) s P :=
  emits_throw fun hH hI _ => h hH hI

/-- The second part may use what the first one settled. -/
lemma keeps_bind {x : EStateM ε σ α} {f : α → EStateM ε σ β} (hx : Keeps log A I E H x s P)
    (hf : ∀ a t, Keeps log A I E (H ∧ P a) (f a) t Q) : Keeps log A I E H (x >>= f) s Q := by
  refine emits_bind hx (fun es a t h => (hf a t).mono fun fs r hr hH hI hall => ?_)
    fun es e t h => h
  obtain ⟨ht, ha⟩ := h hH hI fun e he => hall e (List.mem_append_left fs he)
  exact hr ⟨hH, ha⟩ ht fun e he => hall e (List.mem_append_right es he)

lemma keeps_get {f : σ → EStateM ε σ β} (h : Keeps log A I E (H ∧ I s) (f s) s Q) :
    Keeps log A I E H (get >>= f) s Q :=
  emits_get (h.mono fun _ _ hr hH hI => hr ⟨hH, hI⟩ hI)

/-- A program whose run is known. -/
lemma keeps_run {x : EStateM ε σ α} {a : α} {t : σ} (es : List ev) (hx : x.run s = .ok a t)
    (hlog : log t = log s ++ es) (h : H → I s → (∀ e ∈ es, A e) → I t ∧ P a) :
    Keeps log A I E H x s P := by
  refine ⟨es, by rw [hx]; exact hlog, fun hH hI hall => ?_⟩
  rw [hx]
  exact h hH hI hall

lemma Keeps.mono {H' : Prop} {P' : α → Prop} {x : EStateM ε σ α}
    (h : Keeps log A I E H x s P) (hH : H' → H) (hP : ∀ a, H' → P a → P' a) :
    Keeps log A I E H' x s P' := by
  refine Emits.mono h fun es r hr hH' hI hall => ?_
  have hsettled := hr (hH hH') hI hall
  cases r with
  | ok a t => exact ⟨hsettled.1, hP a hH' hsettled.2⟩
  | error e t => exact hsettled

end

/-! ### Positions in a log -/

/-- Each event is as the predicate says of what came before it. -/
def Along (P : List ev → ev → Prop) (es : List ev) : Prop :=
  ∀ pre e post, es = pre ++ e :: post → P pre e

lemma along_nil {P : List ev → ev → Prop} : Along P [] := by
  intro pre e post h
  simp at h

/-- A position in two lists is one in the first or one in the second. -/
lemma split_append {es fs pre post : List ev} {e : ev} (h : es ++ fs = pre ++ e :: post) :
    (∃ mid, es = pre ++ e :: mid ∧ post = mid ++ fs) ∨
      ∃ mid, fs = mid ++ e :: post ∧ pre = es ++ mid := by
  rcases List.append_eq_append_iff.mp h with ⟨as, rfl, hfs⟩ | ⟨bs, rfl, hes⟩
  · exact .inr ⟨as, hfs, rfl⟩
  · cases bs with
    | nil => exact .inr ⟨[], by simpa using hes.symm, by simp⟩
    | cons b bs =>
      cases hes
      exact .inl ⟨bs, rfl, rfl⟩

lemma along_append {P : List ev → ev → Prop} {es fs : List ev} (h : Along P es)
    (h' : Along (fun pre e => P (es ++ pre) e) fs) : Along P (es ++ fs) := by
  intro pre e post heq
  rcases split_append heq with ⟨mid, hes, -⟩ | ⟨mid, hfs, rfl⟩
  · exact h pre e mid hes
  · exact h' mid e post hfs

/-- A predicate that depends on the earlier events only through what all of them satisfy. -/
lemma along_of_forall {P : List ev → ev → Prop} {I : ev → Prop} {es : List ev}
    (hI : ∀ e ∈ es, I e) (h : ∀ pre, (∀ e ∈ pre, I e) → ∀ e ∈ es, P pre e) : Along P es := by
  rintro pre e post rfl
  exact h pre (fun e he => hI e (by simp [he])) e (by simp)

/-- Each event is as the predicate says of what comes after it. -/
def Onward (P : ev → List ev → Prop) (es : List ev) : Prop :=
  ∀ pre e post, es = pre ++ e :: post → P e post

lemma onward_nil {P : ev → List ev → Prop} : Onward P [] := by
  intro pre e post h
  simp at h

lemma onward_cons {P : ev → List ev → Prop} {e : ev} {es : List ev} (h : P e es)
    (hes : Onward P es) : Onward P (e :: es) := by
  intro pre e' post heq
  cases pre with
  | nil =>
    cases heq
    exact h
  | cons d pre =>
    cases heq
    exact hes pre e' post rfl

lemma onward_append {P : ev → List ev → Prop} {es fs : List ev}
    (h : Onward (fun e post => P e (post ++ fs)) es) (h' : Onward P fs) :
    Onward P (es ++ fs) := by
  induction es with
  | nil => exact h'
  | cons e es ih =>
    refine onward_cons (h [] e es rfl) (ih ?_)
    rintro pre e' post rfl
    exact h (e :: pre) e' post rfl

lemma Onward.mono {P P' : ev → List ev → Prop} {es : List ev} (h : Onward P es)
    (hP : ∀ e ∈ es, ∀ post, P e post → P' e post) : Onward P' es := by
  rintro pre e post rfl
  exact hP e (by simp) post (h pre e post rfl)

/-! ### A log in blocks -/

section

variable {ι : Type} (tag : ev → Nat) (own : ι → ev → Prop)

/-- The first of some items, the `i`-th and those after it, have left a block of events each. -/
inductive Blocks : Nat → List ι → List ev → Prop
  | nil (i : Nat) (xs : List ι) : Blocks i xs []
  | cons {i : Nat} {x : ι} {xs : List ι} {es fs : List ev}
      (h : ∀ e ∈ es, tag e = i ∧ own x e) (htail : Blocks (i + 1) xs fs) :
    Blocks i (x :: xs) (es ++ fs)

variable {tag own} {i : Nat} {x : ι} {xs : List ι} {es : List ev}

lemma blocks_single (h : ∀ e ∈ es, tag e = i ∧ own x e) : Blocks tag own i (x :: xs) es := by
  have hblocks := Blocks.cons h (.nil (i + 1) xs)
  rwa [List.append_nil] at hblocks

lemma Blocks.le_tag (h : Blocks tag own i xs es) : ∀ e ∈ es, i ≤ tag e := by
  induction h with
  | nil i xs => simp
  | cons hes htail ih =>
    intro e he
    rcases List.mem_append.mp he with he | he
    · exact Nat.le_of_eq (hes e he).1.symm
    · exact Nat.le_of_succ_le (ih e he)

/-- Every event is of the item its tag says. -/
lemma Blocks.owned (h : Blocks tag own i xs es) :
    ∀ e ∈ es, ∃ x, xs[tag e - i]? = some x ∧ own x e := by
  induction h with
  | nil i xs => simp
  | @cons i x xs es fs hes htail ih =>
    intro e he
    rcases List.mem_append.mp he with he | he
    · obtain ⟨htag, hown⟩ := hes e he
      exact ⟨x, by rw [htag, Nat.sub_self]; rfl, hown⟩
    · obtain ⟨y, hy, hown⟩ := ih e he
      have hle := htail.le_tag e he
      refine ⟨y, ?_, hown⟩
      rwa [show tag e - i = tag e - (i + 1) + 1 by omega, List.getElem?_cons_succ]

end

end ModelDispatcher.Lib.Logged
