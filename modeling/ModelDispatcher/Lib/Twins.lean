import Mathlib.Data.List.Basic
import ModelDispatcher.Lib.Logged

/-!
Two programs that are meant to do the same, run from one state.

Either they do, step for step, or the first one has met a spoiled event and raised. Then the
second one is ahead of it by some counted event, or has ended in a way of its own. The rules
follow the structure of the programs.
-/

namespace ModelDispatcher.Lib.Twins

open Logged

variable {ε σ ev α β : Type}
variable (log : σ → List ev) (Spoiled : ev → Prop) (Raised : ε → Prop) (counted : ev → Bool)

/-- The first run has raised; the second one is not behind it, and ahead or ended so. -/
structure Parted (ends : EStateM.Result ε σ α → Prop) (r r' : EStateM.Result ε σ α) : Prop where
  raised : ∃ e t, r = .error e t ∧ Raised e
  le : (log (finalState r)).countP counted ≤ (log (finalState r')).countP counted
  apart : (log (finalState r)).countP counted < (log (finalState r')).countP counted ∨ ends r'

/-- From a state, the second program runs as the first one does, or they part. -/
def Twin (ends : EStateM.Result ε σ α → Prop) (x y : EStateM ε σ α) (s : σ) : Prop :=
  ∃ es, log (finalState (x.run s)) = log s ++ es ∧
    ((y.run s = x.run s ∧ ∀ e ∈ es, ¬ Spoiled e) ∨
      ((∃ e ∈ es, Spoiled e) ∧ Parted log Raised counted ends (x.run s) (y.run s)))

variable {log Spoiled Raised counted} {s : σ}
variable {ends : EStateM.Result ε σ α → Prop} {ends' : EStateM.Result ε σ β → Prop}

/-- A program without spoiled events is its own twin. -/
lemma twin_refl {x : EStateM ε σ α} (h : EmitsOnly log (fun e => ¬ Spoiled e) x) :
    Twin log Spoiled Raised counted ends x x s :=
  let ⟨es, hlog, hes⟩ := h s
  ⟨es, hlog, .inl ⟨rfl, hes⟩⟩

lemma Twin.mono {ends₂ : EStateM.Result ε σ α → Prop} {x y : EStateM ε σ α}
    (h : Twin log Spoiled Raised counted ends x y s) (hends : ∀ r, ends r → ends₂ r) :
    Twin log Spoiled Raised counted ends₂ x y s :=
  let ⟨es, hlog, hes⟩ := h
  ⟨es, hlog, hes.imp_right fun ⟨hspoiled, hparted⟩ =>
    ⟨hspoiled, hparted.raised, hparted.le, hparted.apart.imp_right (hends _)⟩⟩

/-- After the parting only the second program goes on. -/
lemma Parted.bind {x y : EStateM ε σ α} {f g : α → EStateM ε σ β}
    (h : Parted log Raised counted ends (x.run s) (y.run s))
    (hg : ∀ a, EmitsOnly log (fun _ => True) (g a))
    (hok : ∀ a t, ends (.ok a t) →
      Emits log (g a) t fun es r => 0 < es.countP counted ∨ ends' r)
    (herror : ∀ e t, ends (.error e t) → ends' (.error e t)) :
    Parted log Raised counted ends' ((x >>= f).run s) ((y >>= g).run s) := by
  obtain ⟨⟨e, t, hx, he⟩, hle, hapart⟩ := h
  rw [hx] at hle hapart
  rw [EStateM.run_bind, EStateM.run_bind, hx]
  cases hy : y.run s with
  | error e' t' =>
    rw [hy] at hle hapart
    exact ⟨⟨e, t, rfl, he⟩, hle, hapart.imp_right (herror e' t')⟩
  | ok a t' =>
    rw [hy] at hle hapart
    rw [finalState_error, finalState_ok] at hle hapart
    rcases hapart with hlt | hends
    · obtain ⟨es, hlog, -⟩ := hg a t'
      have hgrown : (log t').countP counted ≤
          (log (finalState ((g a).run t'))).countP counted := by
        rw [hlog, List.countP_append]
        omega
      exact ⟨⟨e, t, rfl, he⟩, Nat.le_trans hle hgrown, .inl (Nat.lt_of_lt_of_le hlt hgrown)⟩
    · obtain ⟨es, hlog, hes⟩ := hok a t' hends
      have hcount : (log (finalState ((g a).run t'))).countP counted =
          (log t').countP counted + es.countP counted := by
        rw [hlog, List.countP_append]
      refine ⟨⟨e, t, rfl, he⟩, ?_, ?_⟩
      · change (log t).countP counted ≤ (log (finalState ((g a).run t'))).countP counted
        omega
      · refine hes.imp_left fun hpos => ?_
        change (log t).countP counted < (log (finalState ((g a).run t'))).countP counted
        omega

/-- Twins whose first steps agree, none of them spoiled. -/
lemma twin_bind_agreed {x y : EStateM ε σ α} {f g : α → EStateM ε σ β} {es : List ev}
    (hsame : y.run s = x.run s) (hlog : log (finalState (x.run s)) = log s ++ es)
    (hclean : ∀ e ∈ es, ¬ Spoiled e)
    (hf : ∀ a t, x.run s = .ok a t → Twin log Spoiled Raised counted ends' (f a) (g a) t) :
    Twin log Spoiled Raised counted ends' (x >>= f) (y >>= g) s := by
  cases hx : x.run s with
  | error e t =>
    rw [hx] at hlog hsame
    refine ⟨es, ?_, .inl ⟨?_, hclean⟩⟩
    · rw [EStateM.run_bind, hx]
      exact hlog
    · rw [EStateM.run_bind, EStateM.run_bind, hx, hsame]
  | ok a t =>
    rw [hx] at hlog hsame
    obtain ⟨fs, hlog', hfs⟩ := hf a t hx
    refine ⟨es ++ fs, ?_, ?_⟩
    · rw [EStateM.run_bind, hx, ← List.append_assoc, ← show log t = log s ++ es from hlog]
      exact hlog'
    · rw [EStateM.run_bind, EStateM.run_bind, hx, hsame]
      refine hfs.imp ?_ ?_
      · rintro ⟨hsame', hclean'⟩
        refine ⟨hsame', fun e he => ?_⟩
        rcases List.mem_append.mp he with he | he
        · exact hclean e he
        · exact hclean' e he
      · rintro ⟨⟨e, he, hspoiled⟩, hparted⟩
        exact ⟨⟨e, List.mem_append_right es he, hspoiled⟩, hparted⟩

lemma twin_bind {x y : EStateM ε σ α} {f g : α → EStateM ε σ β}
    (hxy : Twin log Spoiled Raised counted ends x y s)
    (hf : ∀ a t, x.run s = .ok a t → Twin log Spoiled Raised counted ends' (f a) (g a) t)
    (hg : ∀ a, EmitsOnly log (fun _ => True) (g a))
    (hok : ∀ a t, ends (.ok a t) →
      Emits log (g a) t fun es r => 0 < es.countP counted ∨ ends' r)
    (herror : ∀ e t, ends (.error e t) → ends' (.error e t)) :
    Twin log Spoiled Raised counted ends' (x >>= f) (y >>= g) s := by
  obtain ⟨es, hlog, ⟨hsame, hclean⟩ | ⟨hspoiled, hparted⟩⟩ := hxy
  · exact twin_bind_agreed hsame hlog hclean hf
  · obtain ⟨e, t, hx, -⟩ := hparted.raised
    refine ⟨es, ?_, .inr ⟨hspoiled, hparted.bind hg hok herror⟩⟩
    rw [EStateM.run_bind, hx]
    rw [hx] at hlog
    exact hlog

/-- Twins that begin with the same program. -/
lemma twin_bind_same {x : EStateM ε σ α} {f g : α → EStateM ε σ β}
    (hx : EmitsOnly log (fun e => ¬ Spoiled e) x)
    (hf : ∀ a t, x.run s = .ok a t → Twin log Spoiled Raised counted ends' (f a) (g a) t) :
    Twin log Spoiled Raised counted ends' (x >>= f) (x >>= g) s :=
  let ⟨_, hlog, hclean⟩ := hx s
  twin_bind_agreed rfl hlog hclean hf

end ModelDispatcher.Lib.Twins
