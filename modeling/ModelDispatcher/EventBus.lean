import ModelDispatcher.ClientTypes
import ModelDispatcher.Lib.LiveSets

/-!
The event bus of the TypeScript client while its listeners change who is subscribed.

`emit` walks over the set of listeners as it is. It delivers as a snapshot of the set would exactly
when nobody who subscribed meanwhile is still there once the others have had their turn.
-/

namespace ModelDispatcher.EventBus

open Lib.Js Lib.LiveSets
open GatewayClient (HandoffEvent Thrown)

variable {Listener : Type} [DecidableEq Listener]

/-! ### The bus -/

/-- What a callback does to the subscriptions. -/
inductive Change (Listener : Type)
  | on (listener : Listener)
  | unsubscribe (listener : Listener)
  | clear

def Change.apply (listeners : LiveSet Listener) : Change Listener → LiveSet Listener
  | .on listener => listeners.add listener
  | .unsubscribe listener => listeners.delete listener
  | .clear => listeners.clear

/-- A call of a callback: the changes it makes, one after the other, and what it throws. -/
structure Reaction (Listener : Type) where
  changes : List (Change Listener) := []
  thrown : Option Thrown := none

/-- What a callback does may depend on the listeners that were called before. -/
structure GatewayEventBus (Listener : Type) where
  listeners : LiveSet Listener
  listener : Listener → List Listener → HandoffEvent → Reaction Listener
  onListenerError : List Listener → Thrown → Reaction Listener := fun _ _ => {}

structure Delivery (Listener : Type) where
  listeners : LiveSet Listener
  called : List Listener := []

namespace GatewayEventBus

variable (bus : GatewayEventBus Listener) (event : HandoffEvent)

/-- One round of the loop. -/
def notify (listener : Listener) (d : Delivery Listener) : Delivery Listener × Option Thrown :=
  let reaction := bus.listener listener d.called event
  let called := d.called ++ [listener]
  let listeners := reaction.changes.foldl Change.apply d.listeners
  match reaction.thrown with
  | none => (⟨listeners, called⟩, none)
  | some e =>
    let handled := bus.onListenerError called e
    (⟨handled.changes.foldl Change.apply listeners, called⟩, handled.thrown)

/-- The loop over the live set; the fuel bounds its rounds. -/
def emit (fuel : ℕ) : Option (Delivery Listener × Option Thrown) :=
  traverse Delivery.listeners (bus.notify event) fuel 0 { listeners := bus.listeners }

/-- The delivery to those who are subscribed when it begins, each if it still is when its turn
comes. -/
def snapshot : Delivery Listener × Option Thrown :=
  round Delivery.listeners (bus.notify event) bus.listeners.entries.length 0
    { listeners := bus.listeners }

/-- `emit` returns, and has called whom the snapshot calls. -/
def Exact : Prop :=
  ∃ fuel d, bus.emit event fuel = some (d, none) ∧ d.called = (bus.snapshot event).1.called

/-- At some point of the delivery the error handler throws, or everyone who is subscribed has had a
turn. -/
def Settles : Prop :=
  ∃ n, (round Delivery.listeners (bus.notify event) n 0 { listeners := bus.listeners }).2 ≠ none ∨
    NoneFrom (round Delivery.listeners (bus.notify event) n 0
      { listeners := bus.listeners }).1.listeners n

/-- The error handler does not throw, and nobody who subscribed meanwhile is left. -/
def Undisturbed : Prop :=
  (bus.snapshot event).2 = none ∧
    NoneFrom (bus.snapshot event).1.listeners bus.listeners.entries.length

/-! ### One notification -/

lemma later_changes (changes : List (Change Listener)) : ∀ listeners : LiveSet Listener,
    Later listeners (changes.foldl Change.apply listeners) := by
  induction changes with
  | nil => exact Later.refl
  | cons change changes ih =>
    intro listeners
    have hchange : Later listeners (Change.apply listeners change) := by
      cases change with
      | on listener => exact later_add listeners listener
      | unsubscribe listener => exact later_punch listeners _
      | clear => exact later_punch listeners _
    exact hchange.trans (ih _)

lemma later_notify (listener : Listener) (d : Delivery Listener) :
    Later d.listeners (bus.notify event listener d).1.listeners := by
  unfold notify
  dsimp only
  split
  · exact later_changes _ _
  · exact (later_changes _ _).trans (later_changes _ _)

lemma called_notify (listener : Listener) (d : Delivery Listener) :
    (bus.notify event listener d).1.called = d.called ++ [listener] := by
  unfold notify
  dsimp only
  split <;> rfl

/-! ### A delivery -/

/-- The snapshot calls listeners that were subscribed when it began, in order and once each. -/
lemma snapshot_called : (bus.snapshot event).1.called.Sublist bus.listeners.members := by
  obtain ⟨visited, hcalled, hsub⟩ := called_round (bus.called_notify event) (bus.later_notify event)
    bus.listeners.entries.length (.refl bus.listeners) (by omega : 0 + _ ≤ _)
      (s := { listeners := bus.listeners })
  rw [List.drop_zero, List.take_length] at hsub
  rw [snapshot, hcalled]
  exact hsub

lemma exact_iff : bus.Exact event ↔ bus.Undisturbed event :=
  traverse_agrees_iff (bus.called_notify event) (bus.later_notify event)
    { listeners := bus.listeners }

/-- `emit` delivers as the snapshot does if and only if the error handler throws nothing and no new
listener is left after the others. -/
theorem emit_exact_iff : (bus.snapshot event).1.called.Sublist bus.listeners.members ∧
    (bus.snapshot event).1.called.Nodup ∧ (bus.Exact event ↔ bus.Undisturbed event) := by
  have hsub := bus.snapshot_called event
  exact ⟨hsub, hsub.nodup bus.listeners.nodup, bus.exact_iff event⟩

/-- `emit` returns or throws exactly when its delivery settles. -/
lemma settles_iff : bus.Settles event ↔ ∃ fuel r, bus.emit event fuel = some r := by
  have hends : (∃ fuel r, bus.emit event fuel = some r) ↔ _ :=
    @traverse_ends_iff _ _ _ Delivery.listeners (bus.notify event) 0 { listeners := bus.listeners }
  simp only [Nat.zero_add] at hends
  exact hends.symm

lemma emit_mono {fuel fuel' : ℕ} {r : Delivery Listener × Option Thrown} (hle : fuel ≤ fuel')
    (h : bus.emit event fuel = some r) : bus.emit event fuel' = some r := by
  obtain ⟨k, rfl⟩ := Nat.exists_eq_add_of_le hle
  exact traverse_mono k h

/-! ### Deliveries without new listeners -/

omit [DecidableEq Listener] in
lemma length_punch (listeners : LiveSet Listener) (p : Listener → Bool) :
    (listeners.punch p).entries.length = listeners.entries.length := List.length_map _

lemma length_changes {changes : List (Change Listener)} (h : ∀ listener, .on listener ∉ changes) :
    ∀ listeners : LiveSet Listener,
      (changes.foldl Change.apply listeners).entries.length = listeners.entries.length := by
  induction changes with
  | nil => exact fun _ => rfl
  | cons change changes ih =>
    intro listeners
    have hrest := ih (fun listener hmem => h listener (List.mem_cons_of_mem _ hmem))
      (Change.apply listeners change)
    refine hrest.trans ?_
    cases change with
    | on listener => exact absurd List.mem_cons_self (h listener)
    | unsubscribe listener => exact length_punch listeners _
    | clear => exact length_punch listeners _

/-- Listeners that subscribe nobody get every event exactly once, whatever they throw and whomever
they unsubscribe. -/
theorem exact_of_no_subscriptions
    (hlistener : ∀ listener called event l, .on l ∉ (bus.listener listener called event).changes)
    (hhandler : ∀ called e, bus.onListenerError called e = {}) : bus.Exact event := by
  have hlen : ∀ listener d,
      (bus.notify event listener d).1.listeners.entries.length = d.listeners.entries.length := by
    intro listener d
    unfold notify
    dsimp only
    split
    · exact length_changes (hlistener listener d.called event) _
    · rw [hhandler]
      exact length_changes (hlistener listener d.called event) _
  have hreturns : ∀ listener d, (bus.notify event listener d).2 = none := by
    intro listener d
    unfold notify
    dsimp only
    split
    · rfl
    · rw [hhandler]
  refine (bus.exact_iff event).mpr ⟨round_returns hreturns _ _ _, fun listener hmem => ?_⟩
  have hend : (bus.snapshot event).1.listeners.entries.length = bus.listeners.entries.length :=
    length_round hlen _ _ _
  rw [List.drop_eq_nil_iff.mpr (Nat.le_of_eq hend)] at hmem
  cases hmem

lemma settles_of_no_subscriptions
    (hlistener : ∀ listener called event l, .on l ∉ (bus.listener listener called event).changes)
    (hhandler : ∀ called e, bus.onListenerError called e = {}) : bus.Settles event := by
  obtain ⟨fuel, d, hrun, -⟩ := bus.exact_of_no_subscriptions event hlistener hhandler
  exact (bus.settles_iff event).mpr ⟨fuel, _, hrun⟩

end GatewayEventBus

/-! ### A listener that wraps itself anew -/

namespace Sample

/-- Each listener subscribes a fresh copy of itself when it is called. -/
def wrapping : GatewayEventBus ℕ where
  listeners := LiveSet.empty.add 0
  listener n _ _ := { changes := [.on (n + 1)] }

lemma keyWizard_known : js "trigger_key_wizard" ∈ GatewayClient.handoffActions := by decide

def event : HandoffEvent where
  status := 402
  handoff := ⟨js "quota_exceeded", js "openai", js "trigger_key_wizard", keyWizard_known, none⟩

end Sample

lemma add_next {listeners : LiveSet ℕ} {n : ℕ}
    (h : listeners.entries = (List.range (n + 1)).map some) :
    (listeners.add (n + 1)).entries = (List.range (n + 2)).map some := by
  have hnew : some (n + 1) ∉ listeners.entries := by simp [h]
  rw [LiveSet.add, dif_neg hnew, List.range_succ (n := n + 1), List.map_append, ← h]
  rfl

/-- When the `n`-th copy is called, the next one is subscribed. -/
lemma wrapping_goes_on (fuel : ℕ) : ∀ (n : ℕ) (d : Delivery ℕ),
    d.listeners.entries = (List.range (n + 1)).map some →
      traverse Delivery.listeners (Sample.wrapping.notify Sample.event) fuel n d = none := by
  induction fuel with
  | zero => exact fun _ _ _ => rfl
  | succ fuel ih =>
    intro n d h
    have hentry : d.listeners.entries[n]? = some (some n) := by simp [h]
    rw [Lib.LiveSets.traverse, hentry]
    exact ih (n + 1) _ (add_next h)

/-- A listener that subscribes a fresh copy of itself keeps `emit` from ever returning. -/
theorem wrapping_never_returns : ¬ ∀ (Listener : Type) (_ : DecidableEq Listener)
    (bus : GatewayEventBus Listener) (event : HandoffEvent), bus.Exact event := by
  intro h
  obtain ⟨fuel, d, hrun, -⟩ := h ℕ inferInstance Sample.wrapping Sample.event
  have hnever := wrapping_goes_on fuel 0 { listeners := Sample.wrapping.listeners } rfl
  exact Option.some_ne_none _ (hrun.symm.trans hnever)

end ModelDispatcher.EventBus
