import ModelDispatcher.ClientOutcomes
import ModelDispatcher.Payloads

/-!
The errors of the Python library, as the TypeScript client decodes them: a handoff opens the key
wizard, and nothing else does.
-/

namespace ModelDispatcher.ErrorDecoding

open Lib.Text Lib.Binary64 Lib.Json Lib.Logged Lib.Js Lib.LiveSets Lib.Promises EventBus
open Exceptions Payloads GatewayClient

/-! ### The wire -/

/-- The body the web layer writes for a payload, as the client reads it. -/
def wire (payload : JSONObject) : JsStr := utf16 (write (.dict payload))

/-- A JSON object with string values, as the client sees it. -/
def stringRecord (fields : List (PyStr × PyStr)) : JsValue :=
  .object (fields.map fun field => (utf16 field.1, .string (utf16 field.2)))

/-- The body of the response is the payload, and `JSON.parse` reads back what `json.dumps` wrote
of its strings. -/
structure Served (runtime : Runtime) (payload : JSONObject) : Prop where
  text : ∀ log, runtime.text log = .fulfilled (wire payload)
  parse : ∀ fields, payload = stringObject fields →
    runtime.parse (wire payload) = some (stringRecord fields)

/-- The events that were published on the bus. -/
def published (es : List Event) : List HandoffEvent :=
  es.filterMap fun
    | .published event _ => some event
    | _ => none

@[simp] lemma published_append (es fs : List Event) :
    published (es ++ fs) = published es ++ published fs := List.filterMap_append

lemma wire_ne_nil (payload : JSONObject) : wire payload ≠ [] := by
  intro h
  have hnil := utf16_eq_nil.mp h
  simp [write, py] at hnil

section

variable {runtime : Runtime} {fields : List (PyStr × PyStr)}

lemma run_readJson (h : Served runtime (stringObject fields)) (s : List Event) :
    (readJson runtime).run s =
      .ok (stringRecord fields) (s ++ [.bodyRead (.fulfilled (wire (stringObject fields)))]) := by
  have hne := wire_ne_nil (stringObject fields)
  have hparse := h.parse fields rfl
  unfold EStateM.run readJson
  rw [get_bind, h.text s]
  generalize wire (stringObject fields) = text at hne hparse ⊢
  cases text with
  | nil => exact absurd rfl hne
  | cons c text =>
    show EStateM.Result.ok ((runtime.parse (c :: text)).getD .undefined) _ = _
    rw [hparse]
    rfl

/-! ### Which side a body falls on -/

lemma handoffOf_error {code detail : PyStr} {rest : List (PyStr × PyStr)}
    (hrest : rest = [] ∨ ∃ toolName, rest = [(py "tool", toolName)]) :
    handoffOf (stringRecord ([(py "error", code), (py "detail", detail)] ++ rest)) = none := by
  have haction : (stringRecord ([(py "error", code), (py "detail", detail)] ++ rest)).property
      (js "action") = .undefined := by
    rcases hrest with rfl | ⟨toolName, rfl⟩ <;> rfl
  unfold handoffOf
  rw [haction]
  split
  · rename_i h
    cases h
  · rfl

lemma toGatewayError_error {code detail : PyStr} {rest : List (PyStr × PyStr)} (status : ℕ) :
    toGatewayError (stringRecord ([(py "error", code), (py "detail", detail)] ++ rest)) status =
      ⟨utf16 code, some (utf16 detail)⟩ := rfl

/-- The handoff that a handoff payload becomes. -/
def decoded (error provider : PyStr) (detail : Option PyStr) : Handoff where
  error := utf16 error
  provider := utf16 provider
  action := js "trigger_key_wizard"
  known := by decide
  detail := detail.map fun text => .string (utf16 text)

lemma handoffOf_handoff (error provider : PyStr) (detail : Option PyStr) :
    handoffOf (stringRecord ([(py "error", error), (py "provider", provider),
      (py "action", HandoffAction.value .triggerKeyWizard)] ++
        detail.toList.map (py "detail", ·))) = some (decoded error provider detail) := by
  cases detail <;> rfl

/-! ### What is published -/

/-- Every delivery on the bus comes to an end, and what its error handler is given it does not
throw. -/
structure Delivering (bus : Bus) : Prop where
  settles : ∀ log event, (bus log).Settles event
  handles : ∀ log called e, ((bus log).onListenerError called e).thrown = none

/-- Where the error handler throws nothing, `emit` throws nothing. -/
lemma returns_of_handles {bus : EventBus.GatewayEventBus ℕ} {event : HandoffEvent} {fuel : ℕ}
    {r : Delivery ℕ × Option Thrown} (h : ∀ called e, (bus.onListenerError called e).thrown = none)
    (hemit : bus.emit event fuel = some r) : r.2 = none := by
  refine traverse_rule (Q := fun r : Delivery ℕ × Option Thrown => r.2 = none) ?_ hemit rfl
  intro listener d _
  unfold EventBus.GatewayEventBus.notify
  dsimp only
  split
  · rfl
  · exact h _ _

/-- Whatever listeners do, the event is published once. -/
lemma emits_publish (bus : Bus) (event : HandoffEvent) (fuel : ℕ) (s : List Event) :
    Emits id (publish bus event fuel) s fun es _ => published es = [event] := by
  unfold Emits
  rw [ClientOutcomes.run_publish]
  cases (bus s).emit event fuel with
  | none => exact ⟨[.published event (bus s)], rfl, rfl⟩
  | some r =>
    obtain ⟨d, thrown⟩ := r
    refine ⟨[.published event (bus s), .delivered d.called thrown], ?_, rfl⟩
    cases thrown <;> exact List.append_assoc _ _ _

lemma publish_returns {bus : Bus} (hbus : Delivering bus) (event : HandoffEvent) (s : List Event) :
    ∃ fuel t, (publish bus event fuel).run s = .ok () t := by
  obtain ⟨fuel, ⟨d, thrown⟩, hemit⟩ := ((bus s).settles_iff event).mp (hbus.settles s event)
  obtain rfl : thrown = none := returns_of_handles (hbus.handles s) hemit
  refine ⟨fuel, s ++ [.published event (bus s)] ++ [.delivered d.called none], ?_⟩
  rw [ClientOutcomes.run_publish, hemit]
  rfl

/-! ### Decoding -/

lemma not_ok {status : ℕ} (h : 400 ≤ status) : ¬ Response.ok ⟨status⟩ := by
  simp only [Response.ok, Bool.and_eq_true, decide_eq_true_eq]
  omega

/-- The response to a handoff. -/
lemma decode_handoff (bus : Bus) {error provider : PyStr} {detail : Option PyStr} {status : ℕ}
    (hstatus : 400 ≤ status)
    (h : Served runtime (stringObject ([(py "error", error), (py "provider", provider),
      (py "action", HandoffAction.value .triggerKeyWizard)] ++
        detail.toList.map (py "detail", ·)))) (s : List Event) :
    (∀ fuel, Emits id (decodeOutcome runtime ⟨status⟩ bus fuel) s fun es _ =>
      published es = [⟨status, decoded error provider detail⟩]) ∧
    (Delivering bus → ∃ fuel, Emits id (decodeOutcome runtime ⟨status⟩ bus fuel) s
      (Returns fun _ outcome => outcome = .handoff status (decoded error provider detail))) := by
  have hread := run_readJson h s
  constructor
  · intro fuel
    refine emits_step hread rfl ?_
    rw [if_neg (not_ok hstatus), handoffOf_handoff]
    refine emits_bind (emits_publish bus _ fuel _) (fun es _ t hes => emits_pure ?_) ?_
    · rw [List.append_nil, published_append, hes]
      rfl
    · intro es e t hes
      rw [published_append, hes]
      rfl
  · intro hbus
    obtain ⟨fuel, t, hrun⟩ := publish_returns hbus ⟨status, decoded error provider detail⟩
      (s ++ [.bodyRead (.fulfilled (wire _))])
    obtain ⟨es, hlog, -⟩ := emits_publish bus ⟨status, decoded error provider detail⟩ fuel
      (s ++ [.bodyRead (.fulfilled (wire _))])
    rw [hrun] at hlog
    refine ⟨fuel, emits_step hread rfl ?_⟩
    rw [if_neg (not_ok hstatus), handoffOf_handoff]
    exact emits_step hrun hlog (emits_pure ⟨_, t, rfl, rfl⟩)

/-- The response to any other error. -/
lemma decode_error {bus : Bus} {fuel : ℕ} {code detail : PyStr} {rest : List (PyStr × PyStr)}
    (hrest : rest = [] ∨ ∃ toolName, rest = [(py "tool", toolName)]) {status : ℕ}
    (hstatus : 400 ≤ status)
    (h : Served runtime (stringObject ([(py "error", code), (py "detail", detail)] ++ rest)))
    (s : List Event) :
    Emits id (decodeOutcome runtime ⟨status⟩ bus fuel) s (Returns fun es outcome =>
      outcome = .error status ⟨utf16 code, some (utf16 detail)⟩ ∧ published es = []) := by
  refine emits_step (run_readJson h s) rfl ?_
  rw [if_neg (not_ok hstatus), handoffOf_error hrest, toGatewayError_error]
  exact emits_pure ⟨_, _, rfl, rfl, rfl⟩

end

/-- **Error bodies.** A handoff of the key wizard is published once and decodes to itself, when its
delivery comes to an end; every other error decodes to its own code and message, and nothing is
published. -/
theorem payloads_decode (runtime : Runtime) (bus : Bus) (repr : PyStr → PyStr)
    (e : ModelDispatcherError) (before : List Event) (hstandard : Standard e)
    (hserved : Served runtime (toPayload repr e)) :
    (∀ provider reason rateWindow detail,
      e = .quotaExceededError (KeyWizardHandoff.build provider reason rateWindow detail) →
      (∀ fuel, Emits id (decodeOutcome runtime ⟨httpStatus e⟩ bus fuel) before fun es _ =>
        published es = [⟨if rateWindow then 429 else 402, decoded reason provider detail⟩]) ∧
      (Delivering bus → ∃ fuel, Emits id (decodeOutcome runtime ⟨httpStatus e⟩ bus fuel) before
        (Returns fun _ outcome => outcome =
          .handoff (if rateWindow then 429 else 402) (decoded reason provider detail)))) ∧
    ((∀ handoff, e ≠ .quotaExceededError handoff) →
      ∀ fuel, Emits id (decodeOutcome runtime ⟨httpStatus e⟩ bus fuel) before
        (Returns fun es outcome =>
          outcome = .error (httpStatus e)
            ⟨utf16 (errorCode e), some (utf16 (render repr (message e)))⟩ ∧
          published es = [])) := by
  constructor
  · rintro provider reason rateWindow detail rfl
    rw [toPayload_handoff] at hserved
    have hstatus : 400 ≤ if rateWindow then 429 else 402 := by cases rateWindow <;> decide
    exact decode_handoff bus hstatus hserved before
  · intro hquota fuel
    obtain ⟨rest, hrest, hpayload⟩ := toPayload_error repr hquota
    rw [hpayload] at hserved
    exact decode_error hrest (le_httpStatus hstandard hquota) hserved before

namespace Sample

/-- A server that answers with the payload. -/
def runtime (fields : List (PyStr × PyStr)) : Runtime where
  fetch := fun _ _ => ⟨false, .pending⟩
  setTimeout := fun _ _ => .fulfilled ()
  random := fun _ => ofRat 0
  text := fun _ => .fulfilled (wire (stringObject fields))
  parse := fun text =>
    if text = wire (stringObject fields) then some (stringRecord fields) else none

lemma served (fields : List (PyStr × PyStr)) :
    Served (runtime fields) (stringObject fields) where
  text := fun _ => rfl
  parse := by
    intro fields' h
    have hinjective : Function.Injective fun field : PyStr × PyStr =>
        (field.1, JSONValue.str field.2) := by
      rintro ⟨k, v⟩ ⟨k', v'⟩ h
      cases h
      rfl
    rw [List.map_injective_iff.mpr hinjective h]
    exact if_pos rfl

/-- A bus with a listener that throws. -/
def bus : Bus := fun _ =>
  { listeners := LiveSet.empty.add 0
    listener := fun _ _ _ => { thrown := some (.error (js "boom")) } }

lemma delivering : Delivering bus where
  settles := fun log event =>
    (bus log).settles_of_no_subscriptions event (fun _ _ _ _ => List.not_mem_nil) fun _ _ => rfl
  handles := fun _ _ _ => rfl

def handoff : ModelDispatcherError :=
  .quotaExceededError
    (KeyWizardHandoff.build (py "openai") (py "quota_exceeded") true (some (py "")))

def handoffFields : List (PyStr × PyStr) :=
  [(py "error", py "quota_exceeded"), (py "provider", py "openai"),
    (py "action", py "trigger_key_wizard"), (py "detail", [])]

def tooling : ModelDispatcherError := .toolExecutionError (py "search") [.repr (py "é")]

def toolingFields : List (PyStr × PyStr) :=
  [(py "error", py "tool_execution_error"), (py "detail", py "é"), (py "tool", py "search")]

end Sample

theorem payloads_decode_samples :
    ((∀ fuel, Emits id
        (decodeOutcome (Sample.runtime Sample.handoffFields) ⟨429⟩ Sample.bus fuel) [] fun es _ =>
          published es = [⟨429, decoded (py "quota_exceeded") (py "openai") (some [])⟩]) ∧
      ∃ fuel, Emits id
        (decodeOutcome (Sample.runtime Sample.handoffFields) ⟨429⟩ Sample.bus fuel) []
        (Returns fun _ outcome =>
          outcome = .handoff 429 (decoded (py "quota_exceeded") (py "openai") (some [])))) ∧
    ∀ fuel, Emits id (decodeOutcome (Sample.runtime Sample.toolingFields) ⟨500⟩ Sample.bus fuel) []
      (Returns fun es outcome =>
        outcome = .error 500 ⟨js "tool_execution_error", some (js "é")⟩ ∧ published es = []) := by
  have hhandoff := (payloads_decode _ Sample.bus id Sample.handoff [] trivial
    (Sample.served Sample.handoffFields)).1 (py "openai") (py "quota_exceeded") true
      (some (py "")) rfl
  have htooling := (payloads_decode _ Sample.bus id Sample.tooling [] trivial
    (Sample.served Sample.toolingFields)).2 fun _ => nofun
  exact ⟨⟨hhandoff.1, hhandoff.2 Sample.delivering⟩, htooling⟩

end ModelDispatcher.ErrorDecoding
