import ModelDispatcher.Security

/-!
The payload cap against the text a request carries: which parts the perimeter's estimate leaves
out, and for which requests it bounds all of the text.
-/

namespace ModelDispatcher.PayloadCap

open Lib.Text Lib.Binary64 Lib.Json Lib.Dicts DataTypes Exceptions Config Providers Security
open PerimeterValidator

/-! ### All the text of a request -/

/-- The text of a message: its content, the names and the JSON-encoded arguments of its tool calls
and the content of its tool result; `none` stands for an object that cannot be encoded. -/
def messageTexts (m : Message) : List (Option PyStr) :=
  (some (m.content.getD []) ::
    m.toolCalls.flatMap fun call => [some call.name, dumps (.dict call.arguments)]) ++
    (m.toolResult.map fun r => some r.content).toList

def toolTexts (t : ToolSpec) : List (Option PyStr) :=
  [some t.name, some t.description, dumps (.dict t.parameters)]

def texts (request : CompletionRequest) : List (Option PyStr) :=
  request.messages.flatMap messageTexts ++ request.tools.flatMap toolTexts

/-- The size of some texts in UTF-8, if each of them has one. -/
def totalSize : List (Option PyStr) → Option ℕ
  | [] => some 0
  | t :: ts => do
    let n ← t.bind utf8Len
    let rest ← totalSize ts
    return n + rest

@[simp] lemma totalSize_nil : totalSize [] = some 0 := rfl

lemma totalSize_cons_eq_some {t : Option PyStr} {ts : List (Option PyStr)} {k : ℕ} :
    totalSize (t :: ts) = some k ↔
      ∃ n rest, t.bind utf8Len = some n ∧ totalSize ts = some rest ∧ k = n + rest := by
  rw [totalSize]
  cases t.bind utf8Len <;> cases totalSize ts <;> simp [eq_comm]

lemma totalSize_append_eq_some {ts us : List (Option PyStr)} {k : ℕ} :
    totalSize (ts ++ us) = some k ↔
      ∃ m n, totalSize ts = some m ∧ totalSize us = some n ∧ k = m + n := by
  induction ts generalizing k with
  | nil => simp
  | cons t ts ih =>
    rw [List.cons_append, totalSize_cons_eq_some]
    constructor
    · rintro ⟨a, rest, ha, hrest, rfl⟩
      obtain ⟨m, n, hm, hn, rfl⟩ := ih.mp hrest
      exact ⟨a + m, n, totalSize_cons_eq_some.mpr ⟨a, m, ha, hm, rfl⟩, hn,
        (Nat.add_assoc a m n).symm⟩
    · rintro ⟨m, n, hm, hn, rfl⟩
      obtain ⟨a, rest, ha, hrest, rfl⟩ := totalSize_cons_eq_some.mp hm
      exact ⟨a, rest + n, ha, ih.mpr ⟨rest, n, hrest, hn, rfl⟩, Nat.add_assoc a rest n⟩

/-! ### Estimates -/

/-- A number never above the size of some texts, and equal to it in one case only. -/
structure Estimates (n : ℕ) (ts : List (Option PyStr)) (exact : Prop) : Prop where
  le : ∀ k, totalSize ts = some k → n ≤ k
  eq_iff : totalSize ts = some n ↔ exact

lemma Estimates.congr {n : ℕ} {ts : List (Option PyStr)} {P Q : Prop} (h : Estimates n ts P)
    (hPQ : P ↔ Q) : Estimates n ts Q := ⟨h.le, h.eq_iff.trans hPQ⟩

lemma estimates_nil : Estimates 0 [] True := ⟨fun _ _ => Nat.zero_le _, by simp⟩

lemma Estimates.append {m n : ℕ} {ts us : List (Option PyStr)} {P Q : Prop}
    (h : Estimates m ts P) (h' : Estimates n us Q) : Estimates (m + n) (ts ++ us) (P ∧ Q) := by
  constructor
  · intro k hk
    obtain ⟨a, b, ha, hb, rfl⟩ := totalSize_append_eq_some.mp hk
    exact Nat.add_le_add (h.le a ha) (h'.le b hb)
  · rw [← h.eq_iff, ← h'.eq_iff, totalSize_append_eq_some]
    constructor
    · rintro ⟨a, b, ha, hb, heq⟩
      -- neither part is below its estimate, so each is equal to it
      have hle := h.le a ha
      have hle' := h'.le b hb
      obtain rfl : a = m := by omega
      obtain rfl : b = n := by omega
      exact ⟨ha, hb⟩
    · rintro ⟨ha, hb⟩
      exact ⟨m, n, ha, hb, rfl⟩

/-- A text counted in bytes. -/
lemma estimates_encodedLen {s : PyStr} {n : ℕ} (h : encodedLen s = .ok n) :
    Estimates n [some s] True := by
  have hlen : utf8Len s = some n := by
    unfold encodedLen at h
    cases hs : utf8Len s <;> simp_all
  have htotal : totalSize [some s] = some n := by simp [totalSize, hlen]
  refine ⟨fun k hk => ?_, iff_of_true htotal trivial⟩
  rw [htotal] at hk
  exact (Option.some.inj hk).le

/-- A text counted in characters. -/
lemma estimates_length (s : PyStr) : Estimates s.length [some s] (Ascii s) := by
  have htotal : totalSize [some s] = utf8Len s := by
    cases hs : utf8Len s <;> simp [totalSize, hs]
  refine ⟨fun k hk => length_le_utf8Len (htotal.symm.trans hk), ?_⟩
  rw [htotal, utf8Len_eq_length_iff]

/-- Texts that are not counted. -/
lemma estimates_calls (calls : List ToolCall) :
    Estimates 0 (calls.flatMap fun call => [some call.name, dumps (.dict call.arguments)])
      (calls = []) := by
  refine ⟨fun _ _ => Nat.zero_le _, ?_⟩
  cases calls with
  | nil => simp
  | cons call calls =>
    refine iff_of_false (fun htotal => ?_) (by simp)
    -- a call has the brackets of its arguments at least
    rw [List.flatMap_cons, totalSize_append_eq_some] at htotal
    obtain ⟨m, n, hm, -, hsum⟩ := htotal
    obtain ⟨a, b, -, hb, rfl⟩ := totalSize_cons_eq_some.mp hm
    obtain ⟨d, e, hd, -, rfl⟩ := totalSize_cons_eq_some.mp hb
    obtain ⟨text, htext, hlen⟩ := Option.bind_eq_some_iff.mp hd
    have hpos : 0 < text.length := by
      unfold dumps at htext
      split_ifs at htext
      cases htext
      simp [write, py]
    have hle := length_le_utf8Len hlen
    omega

lemma estimates_message {m : Message} {n : ℕ} (h : messageBytes m = .ok n) :
    Estimates n (messageTexts m) (m.toolCalls = []) := by
  unfold messageBytes at h
  cases hc : encodedLen (m.content.getD []) with
  | error e =>
    rw [hc] at h
    cases h
  | ok a =>
    have hcontent := (estimates_encodedLen hc).append (estimates_calls m.toolCalls)
    rw [hc] at h
    cases hr : m.toolResult with
    | none =>
      rw [hr] at h
      cases h
      have hmessage := hcontent.append estimates_nil
      unfold messageTexts
      rw [hr]
      exact hmessage.congr (by simp)
    | some r =>
      rw [hr] at h
      cases hb : encodedLen r.content with
      | error e =>
        simp [hb, bind, Except.bind] at h
      | ok b =>
        simp only [hb, bind, Except.bind, pure, Except.pure] at h
        cases h
        have hmessage := hcontent.append (estimates_encodedLen hb)
        unfold messageTexts
        rw [hr]
        exact hmessage.congr (by simp)

lemma estimates_tool {t : ToolSpec} {n : ℕ} (h : toolBytes t = .ok n) :
    Estimates n (toolTexts t) (Ascii t.name ∧ Ascii t.description) := by
  unfold toolBytes at h
  cases hp : dumps (.dict t.parameters) with
  | none =>
    rw [hp] at h
    cases h
  | some text =>
    rw [hp] at h
    cases ha : encodedLen text with
    | error e => simp [ha, bind, Except.bind] at h
    | ok a =>
      simp only [ha, bind, Except.bind, pure, Except.pure] at h
      cases h
      have htool := ((estimates_length t.name).append (estimates_length t.description)).append
        (estimates_encodedLen ha)
      unfold toolTexts
      rw [hp]
      exact htool.congr (by simp)

lemma estimates_sumOf {α : Type} {f : α → Except BuiltinError ℕ}
    {g : α → List (Option PyStr)} {P : α → Prop}
    (hf : ∀ x n, f x = .ok n → Estimates n (g x) (P x)) {xs : List α} {n : ℕ}
    (h : sumOf f xs = .ok n) : Estimates n (xs.flatMap g) (∀ x ∈ xs, P x) := by
  induction xs generalizing n with
  | nil =>
    cases h
    exact estimates_nil.congr (by simp)
  | cons x xs ih =>
    unfold sumOf at h
    cases hx : f x with
    | error e =>
      rw [hx] at h
      cases h
    | ok a =>
      cases hxs : sumOf f xs with
      | error e =>
        rw [hx, hxs] at h
        cases h
      | ok b =>
        rw [hx, hxs] at h
        cases h
        exact ((hf x a hx).append (ih hxs)).congr List.forall_mem_cons.symm

/-! ### The cap -/

/-- No message has tool calls, and the names and the descriptions of the tools are ASCII. -/
def FullyCounted (request : CompletionRequest) : Prop :=
  (∀ m ∈ request.messages, m.toolCalls = []) ∧
    ∀ t ∈ request.tools, Ascii t.name ∧ Ascii t.description

lemma estimates_request {request : CompletionRequest} {n : ℕ}
    (h : estimatePayloadBytes request = .ok n) :
    Estimates n (texts request) (FullyCounted request) := by
  unfold estimatePayloadBytes at h
  cases hm : sumOf messageBytes request.messages with
  | error e =>
    rw [hm] at h
    cases h
  | ok a =>
    rw [hm] at h
    cases ht : sumOf toolBytes request.tools with
    | error e => simp [ht, bind, Except.bind] at h
    | ok b =>
      simp only [ht, bind, Except.bind, pure, Except.pure] at h
      cases h
      exact (estimates_sumOf (fun _ _ => estimates_message) hm).append
        (estimates_sumOf (fun _ _ => estimates_tool) ht)

/-- An accepted request: all of its text can be encoded, and takes no more bytes than the cap. -/
def Bounded (request : CompletionRequest) : Prop :=
  ∀ settings tenant, validate settings request tenant = .ok () →
    ∃ total : ℕ, totalSize (texts request) = some total ∧
      (total : ℤ) ≤ settings.maxPayloadBytes

/-- What the perimeter accepts is within the cap by the estimate. -/
lemma estimate_le_of_accepted {settings : SecuritySettings} {request : CompletionRequest}
    {tenant : TenantContext} (h : validate settings request tenant = .ok ()) :
    request.messages ≠ [] ∧
      ∃ n : ℕ, estimatePayloadBytes request = .ok n ∧ (n : ℤ) ≤ settings.maxPayloadBytes := by
  unfold validate at h
  by_cases hauth : settings.requireTenantAuth ∧ tenant.tenantId = []
  · rw [if_pos hauth] at h
    cases h
  by_cases hempty : request.messages = []
  · rw [if_neg hauth, if_pos hempty] at h
    cases h
  rw [if_neg hauth, if_neg hempty] at h
  refine ⟨hempty, ?_⟩
  cases hn : estimatePayloadBytes request with
  | error e => simp [hn] at h
  | ok n =>
    refine ⟨n, rfl, not_lt.mp fun hbig => ?_⟩
    simp [hn, hbig] at h

/-- Settings under which a request is accepted by its estimate alone. -/
lemma accepted_of_estimate {request : CompletionRequest} {n : ℕ} (hne : request.messages ≠ [])
    (h : estimatePayloadBytes request = .ok n) (tenant : TenantContext) :
    validate { maxPayloadBytes := n, requireTenantAuth := false } request tenant = .ok () := by
  simp [validate, hne, h]

/-- **The payload cap.** It bounds all the text of a request, whatever the settings, exactly when
the request cannot be accepted at all or is counted in full. -/
theorem bounded_iff (request : CompletionRequest) :
    Bounded request ↔
      request.messages = [] ∨ Unmeasurable request ∨ FullyCounted request := by
  constructor
  · intro hbounded
    by_cases hne : request.messages = []
    · exact .inl hne
    by_cases hmeasurable : Unmeasurable request
    · exact .inr (.inl hmeasurable)
    obtain ⟨n, hn⟩ := estimatePayloadBytes_ok_iff.mpr hmeasurable
    let tenant : TenantContext := { tenantId := [], quota := ⟨0, 0, 0, ofRat 0⟩ }
    obtain ⟨total, htotal, hle⟩ := hbounded _ tenant (accepted_of_estimate hne hn tenant)
    have hestimates := estimates_request hn
    have hge := hestimates.le total htotal
    obtain rfl : total = n := by
      have hle : (total : ℤ) ≤ n := hle
      omega
    exact .inr (.inr (hestimates.eq_iff.mp htotal))
  · intro hcases settings tenant haccepted
    obtain ⟨hne, n, hn, hle⟩ := estimate_le_of_accepted haccepted
    rcases hcases with hempty | hunmeasurable | hcounted
    · exact absurd hempty hne
    · exact absurd hunmeasurable (estimatePayloadBytes_ok_iff.mp ⟨n, hn⟩)
    · exact ⟨n, (estimates_request hn).eq_iff.mpr hcounted, hle⟩

/-- A tool call is not counted: five bytes of text pass a cap of two. -/
theorem uncounted_call : ¬ ∀ (settings : SecuritySettings) (request : CompletionRequest)
    (tenant : TenantContext), validate settings request tenant = .ok () →
      ∃ total : ℕ, totalSize (texts request) = some total ∧
        (total : ℤ) ≤ settings.maxPayloadBytes := by
  intro hall
  let call : ToolCall := ⟨py "1", py "t", []⟩
  let request : CompletionRequest :=
    { messages := [{ role := .assistant, content := some (py "hi"), toolCalls := [call] }],
      tenant := py "t" }
  obtain ⟨total, htotal, hle⟩ := hall { maxPayloadBytes := 2 } request
    { tenantId := py "t", quota := ⟨0, 0, 0, ofRat 0⟩ } (by decide)
  have hfive : totalSize (texts request) = some 5 := by decide
  obtain rfl : 5 = total := Option.some.inj (hfive.symm.trans htotal)
  exact absurd hle (by decide)

end ModelDispatcher.PayloadCap
