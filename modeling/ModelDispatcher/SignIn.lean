import Mathlib.Logic.Relation
import ModelDispatcher.Lib.Js
import ModelDispatcher.Lib.SingleFlight

/-!
The anonymous sign-in of the reference page: `ensureSignedIn` keeps its promise in a module
variable, its `catch` clears it, and any number of dispatches ask it for a user at any time.

A step is one turn of the event loop as far as the sign-in sees it: a token provider is called, a
promise settles, one of the two reactions of a sign-in runs, or a provider goes on. Firebase may
change the current user at any time, and what it answers is the outside's choice. Every run
refines the memo cell of the library.
-/

namespace ModelDispatcher.SignIn

open Lib.Js Lib.SingleFlight

variable {υ ε : Type}

/-- Where a sign-in stands: `signInAnonymously` is under way, its promise has settled, `.then` has
taken the user out of the credential, and `.catch` has run. -/
inductive Stage (υ ε : Type)
  | signingIn
  | settled (result : Except ε υ)
  | taken (result : Except ε υ)
  | caught (result : Except ε υ)

/-- The promise `ensureSignedIn` returns. -/
inductive Awaited (υ : Type)
  | resolved (user : υ)
  | signIn (i : ℕ)

/-- Where a call of `authTokenProvider` stands: it awaits the user, it awaits the token of the user
it got, or it has returned, with a user or without. -/
inductive Caller (υ : Type)
  | waiting (promise : Awaited υ)
  | asking (promise : Awaited υ) (user : υ)
  | answered (promise : Awaited υ) (user : υ) (token : Option JsStr)
  | gaveUp

/-- The module's state, with the promises it made and the calls of its provider. -/
structure Page (υ ε : Type) where
  currentUser : Option υ := none
  signInPromise : Option ℕ := none
  signIns : List (Stage υ ε) := []
  callers : List (Caller υ) := []

/-- Resolve to a signed-in user, signing in anonymously on first call. -/
def ensureSignedIn (p : Page υ ε) : Awaited υ × Page υ ε :=
  match p.currentUser with
  | some user => (.resolved user, p)
  | none => match p.signInPromise with
    | some i => (.signIn i, p)
    | none => (.signIn p.signIns.length,
      { p with
        signInPromise := some p.signIns.length
        signIns := p.signIns ++ [.signingIn] })

/-- What a promise of `ensureSignedIn` has settled to. -/
def Page.outcome (p : Page υ ε) : Awaited υ → Option (Except ε υ)
  | .resolved user => some (.ok user)
  | .signIn i => match p.signIns[i]? with
    | some (.caught result) => some result
    | _ => none

/-- One turn of the event loop. -/
inductive Turn (p : Page υ ε) : Page υ ε → Prop
  /-- Firebase changes `auth.currentUser`. -/
  | session (user : Option υ) : Turn p { p with currentUser := user }
  /-- `authTokenProvider` is called, and `authInstance()` throws. -/
  | threw : Turn p { p with callers := p.callers ++ [.gaveUp] }
  | called : Turn p
      { (ensureSignedIn p).2 with callers := p.callers ++ [.waiting (ensureSignedIn p).1] }
  /-- `signInAnonymously` settles. -/
  | settled {i : ℕ} (result : Except ε υ) (h : p.signIns[i]? = some .signingIn) :
      Turn p { p with signIns := p.signIns.set i (.settled result) }
  /-- `.then((credential) => credential.user)` runs. -/
  | taken {i : ℕ} {result : Except ε υ} (h : p.signIns[i]? = some (.settled result)) :
      Turn p { p with signIns := p.signIns.set i (.taken result) }
  /-- `.catch` passes the user on. -/
  | passed {i : ℕ} {user : υ} (h : p.signIns[i]? = some (.taken (.ok user))) :
      Turn p { p with signIns := p.signIns.set i (.caught (.ok user)) }
  /-- `.catch` clears the memo and throws the error on. -/
  | cleared {i : ℕ} {e : ε} (h : p.signIns[i]? = some (.taken (.error e))) :
      Turn p { p with signInPromise := none, signIns := p.signIns.set i (.caught (.error e)) }
  /-- A call goes on with the user, and asks for a token. -/
  | resumed {j : ℕ} {promise : Awaited υ} {user : υ}
      (hcaller : p.callers[j]? = some (.waiting promise))
      (hout : p.outcome promise = some (.ok user)) :
      Turn p { p with callers := p.callers.set j (.asking promise user) }
  /-- A call catches the error of its sign-in. -/
  | failed {j : ℕ} {promise : Awaited υ} {e : ε}
      (hcaller : p.callers[j]? = some (.waiting promise))
      (hout : p.outcome promise = some (.error e)) :
      Turn p { p with callers := p.callers.set j .gaveUp }
  /-- `getIdToken` settles; a rejection is caught. -/
  | token {j : ℕ} {promise : Awaited υ} {user : υ} (token : Option JsStr)
      (hcaller : p.callers[j]? = some (.asking promise user)) :
      Turn p { p with callers := p.callers.set j (.answered promise user token) }

/-- The page is loaded, and turns follow in any order. -/
abbrev Life (p : Page υ ε) : Prop := Relation.ReflTransGen Turn {} p

/-! ### The memo cell -/

/-- The result of a sign-in whose reactions have all run. -/
def Stage.handled : Stage υ ε → Option (Except ε υ)
  | .caught result => some result
  | _ => none

def failed : Except ε υ → Bool
  | .error _ => true
  | .ok _ => false

/-- The sign-ins as a memo cell sees them. -/
def cellOf (p : Page υ ε) : Cell (Except ε υ) :=
  ⟨p.signInPromise, p.signIns.map Stage.handled⟩

section

variable {p p' : Page υ ε} {i : ℕ}

/-- A reaction that does not handle a sign-in's end changes nothing in the cell. -/
lemma handled_set {stage stage' : Stage υ ε} (h : p.signIns[i]? = some stage)
    (hsame : stage'.handled = stage.handled) :
    (p.signIns.set i stage').map Stage.handled = p.signIns.map Stage.handled := by
  rw [List.map_set, hsame]
  refine List.ext_getElem? fun k => ?_
  by_cases hk : i = k
  · subst hk
    rw [List.getElem?_map, h, List.getElem?_set_self]
    · rfl
    · rw [List.length_map]
      exact (List.getElem?_eq_some_iff.mp h).1
  · rw [List.getElem?_set_ne hk]

/-- A call joins the sign-in under way, or starts one. -/
lemma refines_ensureSignedIn (p : Page υ ε) : cellOf (ensureSignedIn p).2 = cellOf p ∨
    Step failed (cellOf p) (cellOf (ensureSignedIn p).2) := by
  unfold ensureSignedIn
  cases p.currentUser with
  | some user => exact .inl rfl
  | none =>
    cases hheld : p.signInPromise with
    | some i => exact .inl rfl
    | none =>
      refine .inr ?_
      have hstart : Step failed (cellOf p) _ := .start hheld
      simpa [cellOf, Stage.handled] using hstart

/-- **The page refines the memo cell.** A turn of the event loop is a step of the cell, or the cell
does not notice. -/
lemma refines (h : Turn p p') : cellOf p' = cellOf p ∨ Step failed (cellOf p) (cellOf p') := by
  cases h with
  | session => exact .inl rfl
  | threw => exact .inl rfl
  | called => exact refines_ensureSignedIn p
  | settled result hi => exact .inl (congrArg (Cell.mk _) (handled_set hi rfl))
  | taken hi => exact .inl (congrArg (Cell.mk _) (handled_set hi rfl))
  | @passed i user hi =>
    have hopen : (cellOf p).attempts[i]? = some none := by simp [cellOf, hi, Stage.handled]
    have hhandle : Step failed (cellOf p) _ := .handle (.ok user) hopen
    refine .inr ?_
    simpa [cellOf, Stage.handled, failed, List.map_set] using hhandle
  | @cleared i e hi =>
    have hopen : (cellOf p).attempts[i]? = some none := by simp [cellOf, hi, Stage.handled]
    have hhandle : Step failed (cellOf p) _ := .handle (.error e) hopen
    refine .inr ?_
    simpa [cellOf, Stage.handled, failed, List.map_set] using hhandle
  | resumed => exact .inl rfl
  | failed => exact .inl rfl
  | token => exact .inl rfl

lemma sound_of_life (h : Life p) : Sound failed (cellOf p) := by
  induction h with
  | refl => exact sound_new
  | tail _ hturn ih =>
    rcases refines hturn with hsame | hstep
    · rwa [hsame]
    · exact ih.step hstep

end

/-! ### The callers -/

/-- What a caller has seen of its promise. -/
def Told (p : Page υ ε) : Caller υ → Prop
  | .waiting (.signIn i) => i < p.signIns.length
  | .asking promise user => p.outcome promise = some (.ok user)
  | .answered promise user _ => p.outcome promise = some (.ok user)
  | _ => True

section

variable {p p' : Page υ ε}

/-- What a promise has settled to stays, and no sign-in is forgotten. -/
structure Extends (p p' : Page υ ε) : Prop where
  length : p.signIns.length ≤ p'.signIns.length
  outcome : ∀ promise result, p.outcome promise = some result → p'.outcome promise = some result

lemma Told.extends {caller : Caller υ} (h : Told p caller) (hle : Extends p p') :
    Told p' caller := by
  cases caller with
  | waiting promise =>
    cases promise with
    | resolved user => trivial
    | signIn i => exact lt_of_lt_of_le h hle.length
  | asking promise user => exact hle.outcome _ _ h
  | answered promise user token => exact hle.outcome _ _ h
  | gaveUp => trivial

/-- A sign-in that has not been caught can move on without a promise changing its outcome. -/
lemma extends_set {i : ℕ} {stage stage' : Stage υ ε} {memo : Option ℕ}
    (h : p.signIns[i]? = some stage) (hopen : stage.handled = none) :
    Extends p { p with signInPromise := memo, signIns := p.signIns.set i stage' } where
  length := by simp
  outcome promise result hout := by
    cases promise with
    | resolved user => exact hout
    | signIn k =>
      by_cases hk : i = k
      · subst hk
        unfold Page.outcome at hout
        dsimp only at hout
        rw [h] at hout
        cases stage <;> cases hout
        cases hopen
      · unfold Page.outcome at hout ⊢
        dsimp only at hout ⊢
        rwa [List.getElem?_set_ne hk]

lemma extends_ensureSignedIn (p : Page υ ε) : Extends p (ensureSignedIn p).2 := by
  unfold ensureSignedIn
  cases p.currentUser with
  | some user => exact ⟨le_rfl, fun _ _ h => h⟩
  | none =>
    cases p.signInPromise with
    | some i => exact ⟨le_rfl, fun _ _ h => h⟩
    | none =>
      refine ⟨by simp, fun promise result hout => ?_⟩
      cases promise with
      | resolved user => exact hout
      | signIn k =>
        unfold Page.outcome at hout ⊢
        dsimp only at hout ⊢
        cases hk : p.signIns[k]? with
        | none => rw [hk] at hout; cases hout
        | some stage =>
          rw [List.getElem?_append_left (List.getElem?_eq_some_iff.mp hk).1]
          rwa [hk] at hout ⊢

/-- The sign-in the cell holds is one that was started. -/
lemma held_lt (h : Sound failed (cellOf p)) {i : ℕ} (hheld : p.signInPromise = some i) :
    i < p.signIns.length := by
  have hlt : i < (cellOf p).attempts.length := h.held_lt hheld
  simpa [cellOf] using hlt

/-- A call waits for a sign-in that was started. -/
lemma told_called (h : Sound failed (cellOf p)) :
    Told (ensureSignedIn p).2 (.waiting (ensureSignedIn p).1) := by
  unfold ensureSignedIn
  cases p.currentUser with
  | some user => trivial
  | none =>
    cases hheld : p.signInPromise with
    | some i => exact held_lt h hheld
    | none =>
      unfold Told
      simp

/-- One turn tells no caller anything else. -/
lemma told_turn (hsound : Sound failed (cellOf p)) (htold : ∀ c ∈ p.callers, Told p c)
    (h : Turn p p') : ∀ c ∈ p'.callers, Told p' c := by
  have hold : ∀ {q : Page υ ε}, Extends p q → ∀ c ∈ p.callers, Told q c :=
    fun hle c hc => (htold c hc).extends hle
  have hset : ∀ {j : ℕ} {new : Caller υ}, Told p new →
      ∀ c ∈ p.callers.set j new, Told p c := by
    intro j new hnew c hc
    rcases List.mem_or_eq_of_mem_set hc with hc | rfl
    · exact htold c hc
    · exact hnew
  have hsame : Extends p p := ⟨le_rfl, fun _ _ h => h⟩
  cases h with
  | session user => exact hold ⟨le_rfl, fun _ _ h => h⟩
  | threw =>
    intro c hc
    rcases List.mem_append.mp hc with hc | hc
    · exact htold c hc
    · cases List.mem_singleton.mp hc
      trivial
  | called =>
    intro c hc
    rcases List.mem_append.mp hc with hc | hc
    · exact hold (extends_ensureSignedIn p) c hc
    · cases List.mem_singleton.mp hc
      exact told_called hsound
  | settled result hi => exact hold (extends_set hi rfl)
  | taken hi => exact hold (extends_set hi rfl)
  | passed hi => exact hold (extends_set hi rfl)
  | cleared hi => exact hold (extends_set hi rfl)
  | resumed hcaller hout => exact hset hout
  | failed hcaller hout => exact hset trivial
  | @token j promise user token hcaller =>
    have hasked : Told p (.asking promise user) := htold _ (List.mem_of_getElem? hcaller)
    exact hset hasked

lemma told_of_life (h : Life p) : ∀ c ∈ p.callers, Told p c := by
  induction h with
  | refl => simp
  | tail hlife hturn ih => exact told_turn (sound_of_life hlife) ih hturn

/-- The user of a sign-in a call went on with. -/
def Caller.signedIn : Caller υ → Option υ
  | .asking (.signIn _) user => some user
  | .answered (.signIn _) user _ => some user
  | _ => none

lemma caught_of_signedIn {c : Caller υ} {user : υ} (htold : Told p c)
    (h : c.signedIn = some user) : ∃ i : ℕ, p.signIns[i]? = some (.caught (.ok user)) := by
  have hcaught : ∀ {i : ℕ}, p.outcome (.signIn i) = some (.ok user) →
      p.signIns[i]? = some (.caught (.ok user)) := by
    intro i hout
    unfold Page.outcome at hout
    dsimp only at hout
    split at hout
    · rename_i result hi
      cases hout
      exact hi
    · cases hout
  cases c with
  | waiting promise => cases h
  | gaveUp => cases h
  | asking promise u =>
    cases promise with
    | resolved => cases h
    | signIn i =>
      cases h
      exact ⟨i, hcaught htold⟩
  | answered promise u token =>
    cases promise with
    | resolved => cases h
    | signIn i =>
      cases h
      exact ⟨i, hcaught htold⟩

end

/-- **Sign-ins never race.** However the calls of the token provider, the answers of Firebase, its
changes of the current user and the reactions of the promises interleave: at most one sign-in is
under way, another one is started only when all before it have failed, and every call that goes on
with the user of a sign-in goes on with the same user. -/
theorem sign_ins_never_race {p : Page υ ε} (h : Life p) :
    p.signIns.countP (fun stage => stage.handled.isNone) ≤ 1 ∧
    (∀ i, i + 1 < p.signIns.length → ∃ e, p.signIns[i]? = some (.caught (.error e))) ∧
    ∀ c ∈ p.callers, ∀ c' ∈ p.callers, ∀ user user',
      c.signedIn = some user → c'.signedIn = some user' → user = user' := by
  have hsound := sound_of_life h
  have htold := told_of_life h
  refine ⟨?_, ?_, ?_⟩
  · have hopen := hsound.open_le_one
    unfold cellOf at hopen
    rwa [List.countP_map] at hopen
  · intro i hi
    obtain ⟨r, hr, hfailed⟩ := hsound.failed_of_lt (i := i) (by simpa [cellOf] using hi)
    obtain ⟨stage, hstage, hhandled⟩ : ∃ stage, p.signIns[i]? = some stage ∧
        stage.handled = some r := by simpa [cellOf] using hr
    cases stage <;> cases hhandled
    cases r with
    | ok user => cases hfailed
    | error e => exact ⟨e, hstage⟩
  · intro c hc c' hc' user user' hu hu'
    obtain ⟨i, hi⟩ := caught_of_signedIn (htold c hc) hu
    obtain ⟨j, hj⟩ := caught_of_signedIn (htold c' hc') hu'
    have hsuccess : (cellOf p).attempts[i]? = some (some (.ok user)) := by
      simp [cellOf, hi, Stage.handled]
    have hsuccess' : (cellOf p).attempts[j]? = some (some (.ok user')) := by
      simp [cellOf, hj, Stage.handled]
    have hsame : i = j :=
      hsound.success_unique hsuccess hsuccess' (by simp [failed]) (by simp [failed])
    subst hsame
    rw [hi] at hj
    cases hj
    rfl

namespace Sample

/-- Two calls share a sign-in that fails; a third one starts another, which succeeds. -/
def page : Page ℕ Unit where
  signInPromise := some 1
  signIns := [.caught (.error ()), .caught (.ok 7)]
  callers := [.gaveUp, .gaveUp, .asking (.signIn 1) 7]

end Sample

/-- The third call goes on with the user of the second sign-in. -/
theorem third_call_signs_in :
    Sample.page.signIns.countP (fun stage => stage.handled.isNone) ≤ 1 ∧
    Sample.page.callers.filterMap Caller.signedIn = [7] := by
  have hfailed : Life (υ := ℕ) (ε := Unit)
      ⟨none, none, [.caught (.error ())], [.gaveUp, .gaveUp]⟩ :=
    ((((((Relation.ReflTransGen.refl.tail .called).tail .called).tail
      (.settled (i := 0) (.error ()) rfl)).tail (.taken (i := 0) rfl)).tail
      (.cleared (i := 0) rfl)).tail (.failed (j := 0) rfl rfl)).tail (.failed (j := 1) rfl rfl)
  have hlife : Life Sample.page :=
    ((((hfailed.tail .called).tail (.settled (i := 1) (.ok 7) rfl)).tail
      (.taken (i := 1) rfl)).tail (.passed (i := 1) rfl)).tail (.resumed (j := 2) rfl rfl)
  exact ⟨(sign_ins_never_race hlife).1, rfl⟩

end ModelDispatcher.SignIn
