import ModelDispatcher.Refinement

/-!
Complete mediation: no provider is called before its pass has validated the request, resolved
the key and reserved the quota; and the reservation that is committed is the one of the
provider that served, once.
-/

namespace ModelDispatcher.Mediation

open Lib.Text Lib.Logged DataTypes Exceptions Config Providers Quota Security Machines Handlers
open ModelInvocationHandler Chain Turns Refinement

variable {T : Turn}

/-! ### Calls -/

lemma called_of_attemptLog {k : Key} {attempt : ℕ} {es : List Event} {out : AttemptEnded}
    (h : AttemptLog T k attempt es out) {call : Call} {result : CallResult}
    (hc : .called call result ∈ es) : call = callOf T k attempt := by
  cases h with
  | @served response _ =>
    have hcall : call = callOf T k attempt ∧ result = .returned response := by simpa using hc
    exact hcall.1
  | @library e _ =>
    have hcall : call = callOf T k attempt ∧ result = .raisedLibrary e := by simpa using hc
    exact hcall.1
  | failed _ h =>
    have hes := h.forall (P := fun e => ∀ call result, e ≠ .called call result)
      (by simp) (by simp)
    rcases List.mem_cons.mp hc with hc | hc
    · exact (Event.called.inj hc).1
    · rcases List.mem_cons.mp hc with hc | hc
      · cases hc
      · exact absurd rfl (hes _ hc _ _)

/-- A call of a pass is on its candidate, with a key its resolution returned. -/
lemma called_of_keysLog {p : ModelProvider} {creds : List Credential} {d : QuotaDecision}
    {index : ℕ} {es : List Event} {out : Ended} (hne : creds ≠ [])
    (h : KeysLog T p d (keysOf creds) index es out) {call : Call} {result : CallResult}
    (hc : .called call result ∈ es) :
    call.provider = p ∧ call.request = T.request ∧ ∃ cred ∈ creds, call.apiKey = cred.rawKey := by
  refine h.forall (P := fun e => ∀ call result, e = .called call result → call.provider = p ∧
    call.request = T.request ∧ ∃ cred ∈ creds, call.apiKey = cred.rawKey) ?_ _ hc _ _ rfl
  rintro credential hcred j a es out - - hlog e he call result rfl
  rw [called_of_attemptLog hlog he]
  rw [keysOf, if_neg hne] at hcred
  obtain ⟨cred, hmem, rfl⟩ := List.mem_map.mp hcred
  exact ⟨rfl, rfl, cred, hmem, rfl⟩

/-- Every call of a pass comes after the checks that admitted its candidate. -/
lemma admitted_of_passLog {p : ModelProvider} {es : List Event} {out : Ended}
    (h : PassLog T p es out) {call : Call} {result : CallResult}
    (hc : .called call result ∈ es) :
    call.provider = p ∧ call.request = T.request ∧
      ∃ creds q d mid, es = admitted T p creds q d ++ mid ∧ .called call result ∈ mid ∧
        d.granted ∧ ∃ cred ∈ creds, call.apiKey = cred.rawKey := by
  cases h with
  | rejected => simp at hc
  | unresolved => simp at hc
  | unjudged => simp at hc
  | deniedNext => simp [admitted] at hc
  | deniedStop => simp [admitted] at hc
  | @invoked creds q d es _ hv hres h hd hkeys =>
    have hmem : .called call result ∈ es := by simpa [admitted] using hc
    have hne := CredentialResolver.resolveCandidates_ne_nil hres
    obtain ⟨hp, hreq, hkey⟩ := called_of_keysLog hne hkeys hmem
    exact ⟨hp, hreq, creds, q, d, es, rfl, hmem, hd, hkey⟩

/-! ### Commits -/

def isCommit : Event → Bool
  | .committed .. => true
  | _ => false

/-- A call that returned a response. -/
def isReturn : Event → Bool
  | .called _ (.returned _) => true
  | _ => false

/-- No response, and no commit of one. -/
def Unserved (es : List Event) : Prop := ∀ e ∈ es, isCommit e = false ∧ isReturn e = false

lemma Unserved.append {es fs : List Event} (h : Unserved es) (h' : Unserved fs) :
    Unserved (es ++ fs) := fun e he => (List.mem_append.mp he).elim (h e) (h' e)

/-- No response, and no change of the quota. -/
def Idle (es : List Event) : Prop := ∀ e ∈ es, Event.inert e ∧ isReturn e = false

lemma Idle.append {es fs : List Event} (h : Idle es) (h' : Idle fs) : Idle (es ++ fs) :=
  fun e he => (List.mem_append.mp he).elim (h e) (h' e)

lemma Idle.unserved {es : List Event} (h : Idle es) : Unserved es := by
  intro e he
  obtain ⟨hinert, hreturn⟩ := h e he
  exact ⟨by cases e <;> simp_all [isCommit, Event.inert], hreturn⟩

/-- The events end with the call that served, its record and the commit of the reservation, if
they served; otherwise, and before that, they are idle. -/
def CommitsOnce (T : Turn) (p : ModelProvider) (d : QuotaDecision) (es : List Event) :
    Ended → Prop
  | .served response => ∃ mid call record, es = mid ++ [.called call (.returned response),
      .recorded record, .committed T.tenant d response.usage] ∧ call.provider = p ∧ Idle mid
  | _ => Idle es

lemma CommitsOnce.prepend {p : ModelProvider} {d : QuotaDecision} {es fs : List Event}
    {out : Ended} (hfs : Idle fs) (h : CommitsOnce T p d es out) :
    CommitsOnce T p d (fs ++ es) out := by
  cases out with
  | served response =>
    obtain ⟨mid, call, record, rfl, hp, hmid⟩ := h
    exact ⟨fs ++ mid, call, record, by simp, hp, hfs.append hmid⟩
  | failed => exact hfs.append h
  | raised e => exact hfs.append h

lemma idle_of_afterFailure {p : ModelProvider} {exc : VendorError} {attempt : ℕ}
    {es : List Event} {out : AttemptEnded} (h : AfterFailure T p exc attempt es out) :
    Idle es := h.forall ⟨rfl, rfl⟩ fun _ => ⟨rfl, rfl⟩

lemma idle_of_failure {k : Key} {attempt : ℕ} {exc : VendorError} {es : List Event}
    {out : AttemptEnded} (h : AfterFailure T k.provider exc attempt es out) :
    Idle (.called (callOf T k attempt) (.raised exc) :: .recorded (failureRecord k exc) :: es) := by
  simpa [Idle, Event.inert, isReturn] using idle_of_afterFailure h

lemma commitsOnce_of_attemptLog {k : Key} {attempt : ℕ} {es : List Event} {out : Ended}
    (h : AttemptLog T k attempt es (.ended out)) :
    CommitsOnce T k.provider k.reservation es out := by
  cases h with
  | served => exact ⟨[], _, _, rfl, rfl, by simp [Idle]⟩
  | library => simp [CommitsOnce, Idle, Event.inert, isReturn]
  | failed _ h =>
    rcases h.not_served with rfl | ⟨e, rfl⟩
    · exact idle_of_failure h
    · exact idle_of_failure h

lemma idle_of_again {k : Key} {attempt : ℕ} {es : List Event}
    (h : AttemptLog T k attempt es .again) : Idle es := by
  cases h with
  | failed _ h => exact idle_of_failure h

lemma commitsOnce_of_keyLog {k : Key} {n attempt : ℕ} {es : List Event} {out : Ended}
    (h : KeyLog T k n attempt es out) : CommitsOnce T k.provider k.reservation es out := by
  induction h with
  | spent => simp [CommitsOnce, Idle]
  | again h _ ih => exact ih.prepend (idle_of_again h)
  | ended h => exact commitsOnce_of_attemptLog h

lemma commitsOnce_of_keysLog {p : ModelProvider} {d : QuotaDecision}
    {keys : List (Option Credential)} {index : ℕ} {es : List Event} {out : Ended}
    (h : KeysLog T p d keys index es out) : CommitsOnce T p d es out := by
  induction h with
  | exhausted => simp [CommitsOnce, Idle]
  | next h _ ih => exact ih.prepend (commitsOnce_of_keyLog h)
  | ended h => exact commitsOnce_of_keyLog h

/-- A pass that serves ends with the commit of its own reservation; any other serves nothing. -/
def PassCommits (T : Turn) (p : ModelProvider) (es : List Event) : Ended → Prop
  | .served response => ∃ creds q d mid call record,
      es = admitted T p creds q d ++ mid ++ [.called call (.returned response), .recorded record,
        .committed T.tenant d response.usage] ∧ call.provider = p ∧ d.granted ∧ Idle mid
  | _ => Unserved es

lemma unserved_admitted (p : ModelProvider) (creds : List Credential) (q : QuotaState)
    (d : QuotaDecision) : Unserved (admitted T p creds q d) := by
  simp [Unserved, admitted, isCommit, isReturn]

lemma commits_of_passLog {p : ModelProvider} {es : List Event} {out : Ended}
    (h : PassLog T p es out) : PassCommits T p es out := by
  cases h with
  | rejected => simp [PassCommits, Unserved, isCommit, isReturn]
  | unresolved => simp [PassCommits, Unserved, isCommit, isReturn]
  | unjudged => simp [PassCommits, Unserved, isCommit, isReturn]
  | deniedNext => exact unserved_admitted _ _ _ _
  | deniedStop => exact unserved_admitted _ _ _ _
  | @invoked creds q d es _ hv hres h hd hkeys =>
    have hcommits := commitsOnce_of_keysLog hkeys
    cases out with
    | served response =>
      obtain ⟨mid, call, record, rfl, hp, hmid⟩ := hcommits
      exact ⟨creds, q, d, mid, call, record, by simp, hp, hd, hmid⟩
    | failed => exact (unserved_admitted _ _ _ _).append (Idle.unserved hcommits)
    | raised e => exact (unserved_admitted _ _ _ _).append (Idle.unserved hcommits)

lemma unserved_start {es : List Event} (h : Unserved es) : Unserved (.passStarted :: es) := by
  simpa [Unserved, isCommit, isReturn] using h

/-- A turn that serves ends with the pass that served, and with its commit; any other serves
nothing. -/
def TurnCommits (T : Turn) (es : List Event) : Ended → Prop
  | .served response => ∃ p before body, es = before ++ .passStarted :: body ∧
      Unserved before ∧ PassCommits T p body (.served response)
  | _ => Unserved es

lemma commits_of_turnLog {candidates : List ModelProvider} {es : List Event} {out : Ended}
    (h : TurnLog T candidates es out) : TurnCommits T es out := by
  induction h with
  | exhausted => simp [TurnCommits, Unserved]
  | @next p rest es fs out h _ ih =>
    have hes := unserved_start (commits_of_passLog h)
    cases out with
    | served response =>
      obtain ⟨p', before, body, rfl, hbefore, hbody⟩ := ih
      exact ⟨p', .passStarted :: es ++ before, body, by simp, hes.append hbefore, hbody⟩
    | failed => exact hes.append ih
    | raised e => exact hes.append ih
  | @ended p rest es out h hout =>
    have hes := commits_of_passLog h
    cases out with
    | served response => exact ⟨p, [], es, rfl, by simp [Unserved], hes⟩
    | failed => exact absurd rfl hout
    | raised e => exact unserved_start hes

/-- The checks a pass makes before it may call a provider, all passed. -/
def passedChecks (c : InvocationContext) (p : ModelProvider) (creds : List Credential)
    (q : QuotaState) (d : QuotaDecision) : List Event :=
  [.validated c.request c.tenant (.ok ()), .resolved p (.ok creds),
    .reserved p (p.estimateTokens c.request) q (.ok d)]

/-- **Complete mediation and single commit.** The log of an execution is its passes. A call is
made in a pass that has validated the very request and tenant, has resolved the provider to
credentials that hold the key, and has been granted the provider's own estimate, in this order.
An execution that returns a response ends with the one commit, after the call that served, of
the reservation of that call's pass; one that raises commits nothing. -/
theorem complete_mediation (w : World) (settings : GatewaySettings) (c : InvocationContext)
    (q₀ : QuotaState) :
    let log := (finalState (executed w settings c q₀)).log
    (passes log).flatMap (.passStarted :: ·) = log ∧
    (∀ body ∈ passes log, ∀ call result, .called call result ∈ body →
      ∃ creds q d mid, body = passedChecks c call.provider creds q d ++ mid ∧
        .called call result ∈ mid ∧ d.granted ∧ call.request = c.request ∧
        ∃ cred ∈ creds, call.apiKey = cred.rawKey) ∧
    match answer (executed w settings c q₀) with
    | .ok response => ∃ before creds q d mid call record,
        log = before ++ .passStarted :: (passedChecks c call.provider creds q d ++ mid ++
          [.called call (.returned response), .recorded record,
            .committed c.tenant d response.usage]) ∧
        d.granted ∧ ∀ e ∈ before ++ mid, isCommit e = false
    | .error _ => ∀ e ∈ log, isCommit e = false := by
  obtain ⟨out, hturn, hends, -⟩ := executed_turn w settings c q₀
  have hcommits := commits_of_turnLog hturn
  refine ⟨hturn.flatMap_passes, fun body hb call result hc => ?_, ?_⟩
  · obtain ⟨p, -, out', hpass⟩ := hturn.passes_forall body hb
    obtain ⟨rfl, hreq, creds, q, d, mid, hlog, hmem, hd, hkey⟩ := admitted_of_passLog hpass hc
    exact ⟨creds, q, d, mid, hlog, hmem, hd, hreq, hkey⟩
  · generalize executed w settings c q₀ = r at hends hcommits ⊢
    cases hends with
    | served response t =>
      obtain ⟨p, before, body, hlog, hbefore, creds, q, d, mid, call, record, rfl, rfl, hd, hmid⟩ :=
        hcommits
      exact ⟨before, creds, q, d, mid, call, record, hlog, hd,
        fun e he => ((hbefore.append hmid.unserved) e he).1⟩
    | raised e t => exact fun e he => (hcommits e he).1

end ModelDispatcher.Mediation
