import ModelDispatcher.Config
import ModelDispatcher.Providers

/-!
The security perimeter: which credentials a tenant has for a provider, and the checks a
request passes at the edge.
-/

namespace ModelDispatcher.Security

open Lib.Text Lib.Json Lib.Dicts DataTypes Exceptions Config Providers

/-! ### Credentials -/

inductive CredentialSource
  | user | tenant | globalApp | freeTier
  deriving DecidableEq

structure Credential where
  providerName : PyStr
  source : CredentialSource
  secretRef : PyStr
  rawKey : Option PyStr := none
  isRateLimited : Bool := false
  deriving DecidableEq

/-- The keys of a comma-separated metadata value, trimmed, blanks dropped. -/
def splitKeys (raw : Option PyStr) : List PyStr :=
  match raw with
  | none => []
  | some [] => []
  | some s => ((split s ',').map strip).filter (· ≠ [])

/-- A masked reference to a secret: its last four characters, if it is longer than that. -/
def mask (secret : PyStr) : PyStr :=
  if secret.length ≤ 4 then py "****" else py "****" ++ secret.drop (secret.length - 4)

/-- The part of a provider name before its first colon. -/
def family (name : PyStr) : PyStr := name.takeWhile (· ≠ .scalar ':')

namespace CredentialResolver

def keyed (provider : ModelProvider) (source : CredentialSource) (keys : List PyStr) :
    List Credential :=
  keys.map fun key =>
    { providerName := provider.name, source := source, secretRef := mask key, rawKey := some key }

/-- Every usable credential, in try-order: the user's keys, else the tenant's, else none for a
free provider, else the shared application key for a zero-setup tenant. -/
def resolveCandidates (tenant : TenantContext) (provider : ModelProvider) :
    Except ModelDispatcherError (List Credential) :=
  let fam := family provider.name
  let userKeys := splitKeys (tenant.metadata.get? (py "user_key:" ++ fam))
  if userKeys ≠ [] then .ok (keyed provider .user userKeys)
  else
    let tenantKeys := splitKeys (tenant.metadata.get? (py "tenant_key:" ++ fam))
    if tenantKeys ≠ [] then .ok (keyed provider .tenant tenantKeys)
    else if provider.tier = .free then
      .ok [{ providerName := provider.name, source := .freeTier, secretRef := py "keyless" }]
    else if tenant.isZeroSetup then
      .ok [{ providerName := provider.name, source := .globalApp,
             secretRef := py "global-app-key", isRateLimited := true }]
    else
      .error (.authenticationError
        [lit "no credential available for provider ", .repr provider.name])

/-- A resolution that succeeds has at least one credential. -/
lemma resolveCandidates_ne_nil {tenant : TenantContext} {provider : ModelProvider}
    {creds : List Credential} (h : resolveCandidates tenant provider = .ok creds) :
    creds ≠ [] := by
  unfold resolveCandidates at h
  dsimp only at h
  split_ifs at h with h1 h2 h3 h4 <;> cases h <;> simp_all [keyed]

end CredentialResolver

/-! ### The perimeter -/

/-- `len(s.encode("utf-8"))`. -/
def encodedLen (s : PyStr) : Except BuiltinError ℕ :=
  match utf8Len s with
  | some n => .ok n
  | none => .error .unicodeEncodeError

/-- The sum of a count that may raise, over a list in order. -/
def sumOf {α : Type} (f : α → Except BuiltinError ℕ) : List α → Except BuiltinError ℕ
  | [] => .ok 0
  | x :: xs => do
    let n ← f x
    let rest ← sumOf f xs
    return n + rest

namespace PerimeterValidator

def messageBytes (m : Message) : Except BuiltinError ℕ := do
  let content ← encodedLen (m.content.getD [])
  match m.toolResult with
  | none => return content
  | some r =>
    let result ← encodedLen r.content
    return content + result

def toolBytes (t : ToolSpec) : Except BuiltinError ℕ :=
  match dumps (.dict t.parameters) with
  | none => .error .valueError
  | some text => do
    let n ← encodedLen text
    return t.name.length + t.description.length + n

/-- The estimated size of the serialised request. -/
def estimatePayloadBytes (request : CompletionRequest) : Except BuiltinError ℕ := do
  let messages ← sumOf messageBytes request.messages
  let tools ← sumOf toolBytes request.tools
  return messages + tools

/-- The violation of the size limit; its text prints both numbers. -/
def oversized (bytes : ℕ) (limit : ℤ) : PyException :=
  match strInt bytes, strInt limit with
  | some b, some l =>
    .library (.perimeterViolation
      [lit "payload ", .text b, lit " bytes exceeds limit ", .text l])
  | _, _ => .builtin .valueError

/-- Accept the request at the trust edge, or raise. -/
def validate (settings : SecuritySettings) (request : CompletionRequest)
    (tenant : TenantContext) : Except PyException Unit :=
  if settings.requireTenantAuth ∧ tenant.tenantId = [] then
    .error (.library (.perimeterViolation [lit "request is missing a tenant identity"]))
  else if request.messages = [] then
    .error (.library (.perimeterViolation [lit "request carries no messages"]))
  else match estimatePayloadBytes request with
    | .error e => .error (.builtin e)
    | .ok bytes =>
      if (bytes : ℤ) > settings.maxPayloadBytes then
        .error (oversized bytes settings.maxPayloadBytes)
      else if settings.allowedProviders = [] then .ok ()
      else match tenant.metadata.get? (py "forced_provider") with
        | none => .ok ()
        | some forced =>
          if forced ∈ settings.allowedProviders then .ok ()
          else .error (.library (.perimeterViolation
            [lit "provider ", .repr forced, lit " is not on the egress allowlist"]))

/-! ### When the perimeter raises an exception of the interpreter -/

/-- A message text that cannot be encoded. -/
def UnencodableMessage (m : Message) : Prop :=
  ¬ Utf8Encodable (m.content.getD []) ∨ ∃ r, m.toolResult = some r ∧ ¬ Utf8Encodable r.content

/-- A message or a tool whose size cannot be computed. -/
def Unmeasurable (request : CompletionRequest) : Prop :=
  (∃ m ∈ request.messages, UnencodableMessage m) ∨
    ∃ t ∈ request.tools, ¬ Printable (.dict t.parameters)

lemma encodedLen_of_encodable {s : PyStr} (h : Utf8Encodable s) : ∃ n, encodedLen s = .ok n := by
  simp [encodedLen, utf8Len, h]

lemma encodedLen_of_not_encodable {s : PyStr} (h : ¬ Utf8Encodable s) :
    encodedLen s = .error .unicodeEncodeError := by
  simp [encodedLen, utf8Len, h]

lemma messageBytes_ok_iff {m : Message} :
    (∃ n, messageBytes m = .ok n) ↔ ¬ UnencodableMessage m := by
  unfold messageBytes UnencodableMessage
  by_cases hc : Utf8Encodable (m.content.getD [])
  · obtain ⟨n, hn⟩ := encodedLen_of_encodable hc
    rw [hn]
    cases m.toolResult with
    | none => simp [hc, bind, Except.bind, pure, Except.pure]
    | some r =>
      by_cases hr : Utf8Encodable r.content
      · obtain ⟨k, hk⟩ := encodedLen_of_encodable hr
        simp [hc, hr, hk, bind, Except.bind, pure, Except.pure]
      · simp [hc, hr, encodedLen_of_not_encodable hr, bind, Except.bind]
  · simp [encodedLen_of_not_encodable hc, hc, bind, Except.bind]

lemma toolBytes_ok_iff {t : ToolSpec} :
    (∃ n, toolBytes t = .ok n) ↔ Printable (.dict t.parameters) := by
  unfold toolBytes dumps
  by_cases hp : Printable (.dict t.parameters)
  · obtain ⟨n, hn⟩ := encodedLen_of_encodable (encodable_write (.dict t.parameters))
    simp [hp, hn, bind, Except.bind, pure, Except.pure]
  · simp [hp]

lemma sumOf_ok_iff {α : Type} {f : α → Except BuiltinError ℕ} {xs : List α} :
    (∃ n, sumOf f xs = .ok n) ↔ ∀ x ∈ xs, ∃ n, f x = .ok n := by
  induction xs with
  | nil => simp [sumOf]
  | cons x xs ih =>
    rw [List.forall_mem_cons, ← ih, sumOf]
    cases f x with
    | error e => simp [bind, Except.bind]
    | ok n => cases sumOf f xs <;> simp [bind, Except.bind, pure, Except.pure]

/-- The size of a request is computed exactly when every part of it is. -/
lemma estimatePayloadBytes_ok_iff {request : CompletionRequest} :
    (∃ n, estimatePayloadBytes request = .ok n) ↔ ¬ Unmeasurable request := by
  have hparts : ¬ Unmeasurable request ↔ (∃ n, sumOf messageBytes request.messages = .ok n) ∧
      ∃ n, sumOf toolBytes request.tools = .ok n := by
    rw [sumOf_ok_iff, sumOf_ok_iff]
    simp only [messageBytes_ok_iff, toolBytes_ok_iff]
    simp [Unmeasurable]
  rw [hparts, estimatePayloadBytes]
  cases sumOf messageBytes request.messages with
  | error e => simp [bind, Except.bind]
  | ok n =>
    cases sumOf toolBytes request.tools <;> simp [bind, Except.bind, pure, Except.pure]

/-- A request past the checks of its tenant and of its messages that cannot be measured, or
whose size violates the limit by numbers that cannot be printed. -/
def PerimeterFault (settings : SecuritySettings) (request : CompletionRequest)
    (tenant : TenantContext) : Prop :=
  ¬ (settings.requireTenantAuth ∧ tenant.tenantId = []) ∧ request.messages ≠ [] ∧
    (Unmeasurable request ∨ ∃ bytes : ℕ, estimatePayloadBytes request = .ok bytes ∧
      settings.maxPayloadBytes < bytes ∧
      (strInt bytes = none ∨ strInt settings.maxPayloadBytes = none))

lemma oversized_isLibrary_iff {bytes : ℕ} {limit : ℤ} :
    (oversized bytes limit).isLibrary = false ↔ strInt bytes = none ∨ strInt limit = none := by
  unfold oversized
  cases strInt bytes <;> cases strInt limit <;> simp [PyException.isLibrary]

lemma validate_escapes_iff {settings : SecuritySettings} {request : CompletionRequest}
    {tenant : TenantContext} :
    (∃ e, validate settings request tenant = .error e ∧ e.isLibrary = false) ↔
      PerimeterFault settings request tenant := by
  unfold validate PerimeterFault
  by_cases hauth : settings.requireTenantAuth ∧ tenant.tenantId = []
  · simp [hauth, PyException.isLibrary]
  by_cases hempty : request.messages = []
  · simp [hempty, hauth, PyException.isLibrary]
  rw [if_neg hauth, if_neg hempty]
  have hok := @estimatePayloadBytes_ok_iff request
  cases hb : estimatePayloadBytes request with
  | error e =>
    rw [hb] at hok
    have hun : Unmeasurable request := by simpa using hok
    simp [hauth, hempty, hun, PyException.isLibrary]
  | ok bytes =>
    rw [hb] at hok
    have hun : ¬ Unmeasurable request := by simpa using hok
    by_cases hbig : settings.maxPayloadBytes < bytes
    · simp [hauth, hempty, hun, hbig, oversized_isLibrary_iff]
    · constructor
      · rintro ⟨e, he, hnot⟩
        -- past the size limit only the allowlist is left, and its violation is the library's
        simp only [gt_iff_lt, hbig, if_false] at he
        split_ifs at he
        split at he
        · cases he
        · split_ifs at he
          cases he
          simp [PyException.isLibrary] at hnot
      · intro h
        simp [hun, hbig] at h

end PerimeterValidator

end ModelDispatcher.Security
