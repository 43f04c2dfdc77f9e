import ModelDispatcher.Refinement

/-!
Library errors of provider calls: wherever a call raises one, it is the last thing an execution of
the chain does, and the error leaves the execution.
-/

namespace ModelDispatcher.Signals

open Lib.Text Lib.Floats Lib.Logged DataTypes Exceptions Config Providers Quota Security Machines
open Handlers ModelInvocationHandler Chain Turns Refinement

/-- A call raised the error. -/
def Raised (e : ModelDispatcherError) (es : List Event) : Prop :=
  ∃ call, .called call (.raisedLibrary e) ∈ es

/-- A call that raised the error is the last event. -/
def EndsWith (e : ModelDispatcherError) (es : List Event) : Prop :=
  ∃ pre call, es = pre ++ [.called call (.raisedLibrary e)]

lemma EndsWith.prepend {e : ModelDispatcherError} {es : List Event} (h : EndsWith e es)
    (fs : List Event) : EndsWith e (fs ++ es) := by
  obtain ⟨pre, call, rfl⟩ := h
  exact ⟨fs ++ pre, call, (List.append_assoc ..).symm⟩

lemma raised_append {e : ModelDispatcherError} {es fs : List Event} :
    Raised e (es ++ fs) ↔ Raised e es ∨ Raised e fs := by
  simp only [Raised, List.mem_append, exists_or]

variable {T : Turn} {e : ModelDispatcherError}

lemma AttemptLog.raised {k : Key} {attempt : ℕ} {es : List Event} {out : AttemptEnded}
    (h : AttemptLog T k attempt es out) (hraised : Raised e es) :
    EndsWith e es ∧ out = .ended (.raised (.library e)) := by
  obtain ⟨call, hmem⟩ := hraised
  cases h with
  | served => simp at hmem
  | library =>
    obtain ⟨rfl, rfl⟩ := by simpa using hmem
    exact ⟨⟨[], _, rfl⟩, rfl⟩
  | failed _ hafter =>
    have hnone := hafter.forall (P := fun x => x ≠ .called call (.raisedLibrary e)) (by simp)
      (by simp)
    simp only [List.mem_cons, Event.called.injEq, reduceCtorEq, and_false, false_or] at hmem
    exact absurd rfl (hnone _ hmem)

lemma KeyLog.raised {k : Key} {n attempt : ℕ} {es : List Event} {out : Ended}
    (h : KeyLog T k n attempt es out) (hraised : Raised e es) :
    EndsWith e es ∧ out = .raised (.library e) := by
  induction h with
  | spent =>
    obtain ⟨call, hmem⟩ := hraised
    simp at hmem
  | again hattempt _ ih =>
    rcases raised_append.mp hraised with hfirst | hrest
    · cases (AttemptLog.raised hattempt hfirst).2
    · exact ⟨(ih hrest).1.prepend _, (ih hrest).2⟩
  | ended hattempt =>
    obtain ⟨hends, hout⟩ := AttemptLog.raised hattempt hraised
    cases hout
    exact ⟨hends, rfl⟩

lemma KeysLog.raised {p : ModelProvider} {d : QuotaDecision} {keys : List (Option Credential)}
    {index : ℕ} {es : List Event} {out : Ended} (h : KeysLog T p d keys index es out)
    (hraised : Raised e es) : EndsWith e es ∧ out = .raised (.library e) := by
  induction h with
  | exhausted =>
    obtain ⟨call, hmem⟩ := hraised
    simp at hmem
  | next hkey _ ih =>
    rcases raised_append.mp hraised with hfirst | hrest
    · cases (KeyLog.raised hkey hfirst).2
    · exact ⟨(ih hrest).1.prepend _, (ih hrest).2⟩
  | ended hkey => exact KeyLog.raised hkey hraised

lemma PassLog.raised {p : ModelProvider} {es : List Event} {out : Ended}
    (h : PassLog T p es out) (hraised : Raised e es) :
    EndsWith e es ∧ out = .raised (.library e) := by
  have hadmitted : ∀ creds q d, ¬ Raised e (admitted T p creds q d) := by
    simp [Raised, admitted]
  cases h with
  | rejected => simp [Raised] at hraised
  | unresolved => simp [Raised] at hraised
  | unjudged => simp [Raised] at hraised
  | deniedNext => exact absurd hraised (hadmitted _ _ _)
  | deniedStop => exact absurd hraised (hadmitted _ _ _)
  | invoked _ _ _ _ hkeys =>
    rcases raised_append.mp hraised with hfirst | hrest
    · exact absurd hfirst (hadmitted _ _ _)
    · obtain ⟨hends, hout⟩ := KeysLog.raised hkeys hrest
      exact ⟨hends.prepend _, hout⟩

/-- A call that raises a library error is the last event of its turn, which raises it. -/
lemma TurnLog.raised {candidates : List ModelProvider} {es : List Event} {out : Ended}
    (h : TurnLog T candidates es out) (hraised : Raised e es) :
    EndsWith e es ∧ out = .raised (.library e) := by
  have hstart : ¬ Raised e [.passStarted] := by simp [Raised]
  induction h with
  | exhausted => simp [Raised] at hraised
  | @next p rest es fs out hpass _ ih =>
    rcases raised_append.mp hraised with hfirst | hrest
    · rcases raised_append.mp (show Raised e ([.passStarted] ++ es) from hfirst) with hmark | hbody
      · exact absurd hmark hstart
      · cases (PassLog.raised hpass hbody).2
    · exact ⟨(ih hrest).1.prepend _, (ih hrest).2⟩
  | @ended p rest es out hpass _ =>
    rcases raised_append.mp (show Raised e ([.passStarted] ++ es) from hraised) with hmark | hbody
    · exact absurd hmark hstart
    · obtain ⟨hends, hout⟩ := PassLog.raised hpass hbody
      exact ⟨hends.prepend [.passStarted], hout⟩

/-- A library error of a call leaves the execution, and after the call nothing else is done. -/
lemma executed_raised {w : World} {settings : GatewaySettings} {c : InvocationContext}
    {q : QuotaState} (hraised : Raised e (finalState (executed w settings c q)).log) :
    answer (executed w settings c q) = .error (.library e) ∧
      EndsWith e (finalState (executed w settings c q)).log := by
  obtain ⟨out, hturn, hends, -⟩ := executed_turn w settings c q
  obtain ⟨hlast, rfl⟩ := TurnLog.raised hturn hraised
  refine ⟨?_, hlast⟩
  generalize executed w settings c q = r at hends
  cases hends
  rfl

/-- What the chain should make of a `RateLimitError` of a call: the next key or candidate is
tried, or all are exhausted, and the error does not leave. -/
structure Intercepted (r : EStateM.Result PyException Machine CompletionResponse) : Prop where
  goesOn : ∀ pre call message post,
    (finalState r).log = pre ++ .called call (.raisedLibrary (.rateLimitError message)) :: post →
    .passStarted ∈ post ∨ (∃ call' result, .called call' result ∈ post) ∨
      ∃ message', answer r = .error (.library (.allProvidersExhausted message'))
  kept : ∀ message, answer r ≠ .error (.library (.rateLimitError message))

/-- **A `RateLimitError` is surfaced.** In every execution in which a call raises one, it leaves
the execution, after the call nothing else is done, and it is never intercepted. -/
theorem rateLimitError_surfaces (w : World) (settings : GatewaySettings) (c : InvocationContext)
    (q : QuotaState) (message : FString)
    (hraised : Raised (.rateLimitError message) (finalState (executed w settings c q)).log) :
    answer (executed w settings c q) = .error (.library (.rateLimitError message)) ∧
      EndsWith (.rateLimitError message) (finalState (executed w settings c q)).log ∧
      ¬ Intercepted (executed w settings c q) := by
  obtain ⟨hanswer, hlast⟩ := executed_raised hraised
  exact ⟨hanswer, hlast, fun hintercepted => hintercepted.kept message hanswer⟩

namespace Sample

open Refinement.Sample

def slowDown : ModelDispatcherError := .rateLimitError [lit "slow down"]

/-- A vendor whose first call raises a `RateLimitError`. -/
def throttled : World where
  monotonic := fun _ => 0
  complete := fun log _ _ _ =>
    if callsIn log = [] then .raisedLibrary slowDown else .returned response

def context : InvocationContext := ⟨request, tenant, [provider "p" .free, provider "q" .free]⟩

/-- The library errors of the calls among some events. -/
def libraryErrors (es : List Event) : List (Option ModelDispatcherError) :=
  (callsIn es).map fun x => match x.2 with
    | .raisedLibrary e => some e
    | _ => none

lemma raised_of_mem {e : ModelDispatcherError} {es : List Event}
    (h : some e ∈ libraryErrors es) : Raised e es := by
  obtain ⟨⟨call, result⟩, hmem, heq⟩ := List.mem_map.mp h
  cases result <;> cases heq
  exact ⟨call, mem_callsIn.mp hmem⟩

lemma throttled_raised :
    Raised slowDown (finalState (executed throttled {} context {})).log := by
  have herrors : libraryErrors (finalState (executed throttled {} context {})).log =
      [some slowDown] := by
    decide +kernel
  exact raised_of_mem (by rw [herrors]; simp)

end Sample

/-- The first of two candidates raises it, and the second one is never tried. -/
theorem throttled_first_candidate : ¬ ∀ (w : World) (settings : GatewaySettings)
    (c : InvocationContext) (q : QuotaState), Intercepted (executed w settings c q) := by
  intro hall
  have hanswer := (executed_raised Sample.throttled_raised).1
  exact (hall Sample.throttled {} Sample.context {}).kept _ hanswer

/-- The same run, in full. -/
theorem throttled_surfaces :
    answer (executed Sample.throttled {} Sample.context {}) =
        .error (.library Sample.slowDown) ∧
      EndsWith Sample.slowDown (finalState (executed Sample.throttled {} Sample.context {})).log ∧
      ¬ Intercepted (executed Sample.throttled {} Sample.context {}) :=
  rateLimitError_surfaces Sample.throttled {} Sample.context {} _ Sample.throttled_raised

end ModelDispatcher.Signals
