import ModelDispatcher.Byok

/-!
Pooled keys: the keys a visitor gives a vendor are joined into one metadata value by the registry
and split again by the credential resolver, which hands out the same keys in the same order.
-/

namespace ModelDispatcher.KeyPools

open Lib.Text Lib.Dicts DataTypes Exceptions Config Providers Security Byok

/-- The keys that one given key stands for: its pieces between commas, trimmed, without the blank
ones. -/
def pieces (key : PyStr) : List PyStr := ((split key ',').map strip).filter (· ≠ [])

/-- The keys that a visitor gave a vendor, in order. -/
def pooled (credentials : PyDict PyStr (List PyStr)) (vendor : PyStr) : List PyStr :=
  ((credentials.get? vendor).getD []).flatMap pieces

/-- A key without a comma or blanks around it. -/
structure Tidy (key : PyStr) : Prop where
  trimmed : strip key = key
  nonBlank : NonBlank key
  noComma : .scalar ',' ∉ key

/-- What the resolver hands out for a key of the user. -/
def userCredential (p : ModelProvider) (key : PyStr) : Credential where
  providerName := p.name
  source := .user
  secretRef := mask key
  rawKey := some key
  isRateLimited := false

/-! ### Splitting what was joined -/

lemma splitKeys_some (s : PyStr) : splitKeys (some s) = pieces s := by
  cases s with
  | nil => decide
  | cons c s => rfl

/-- No key runs over the comma between two keys. -/
lemma splitKeys_join {keys : List PyStr} (h : keys ≠ []) :
    splitKeys (some (join ',' keys)) = keys.flatMap pieces := by
  rw [splitKeys_some, pieces, split_join ',' h, List.map_flatMap, List.filter_flatMap]
  rfl

lemma Tidy.pieces_eq {key : PyStr} (h : Tidy key) : pieces key = [key] := by
  have hne : strip key ≠ [] := strip_ne_nil_iff.mpr h.nonBlank
  rw [pieces, split_eq_singleton h.noComma, List.map_singleton, List.filter_singleton, h.trimmed]
  rw [h.trimmed] at hne
  simp [hne]

lemma flatMap_pieces_of_tidy {keys : List PyStr} (h : ∀ key ∈ keys, Tidy key) :
    keys.flatMap pieces = keys := by
  rw [List.flatMap_congr fun key hkey => (h key hkey).pieces_eq]
  exact List.flatMap_singleton' keys

/-! ### The keys of a vendor -/

/-- The metadata gives the resolver the keys of the vendor and of no other. -/
lemma splitKeys_metadata (credentials : PyDict PyStr (List PyStr)) (vendor : PyStr) :
    splitKeys ((credentialMetadata credentials).get? (py "user_key:" ++ vendor)) =
      pooled credentials vendor := by
  cases hraw : (credentialMetadata credentials).get? (py "user_key:" ++ vendor) with
  | some raw =>
    obtain ⟨vendor', keys, hkeys, hne, hvendor, rfl⟩ := metadata_eq_some_iff.mp hraw
    rw [← List.append_cancel_left hvendor] at hkeys
    rw [splitKeys_join hne, pooled, hkeys]
    rfl
  | none =>
    cases hkeys : credentials.get? vendor with
    | none => simp [pooled, hkeys, splitKeys]
    | some keys =>
      by_cases hne : keys = []
      · simp [pooled, hkeys, hne, splitKeys]
      · have hsome := metadata_eq_some_iff.mpr ⟨vendor, keys, hkeys, hne, rfl, rfl⟩
        rw [hraw] at hsome
        cases hsome

/-- The user's keys come before any other source. -/
lemma resolve_pooled {credentials : PyDict PyStr (List PyStr)} {tenant : TenantContext}
    {p : ModelProvider} (hmeta : tenant.metadata = credentialMetadata credentials)
    (h : pooled credentials (family p.name) ≠ []) :
    CredentialResolver.resolveCandidates tenant p =
      .ok ((pooled credentials (family p.name)).map (userCredential p)) := by
  have hkeys : splitKeys (tenant.metadata.get? (py "user_key:" ++ family p.name)) =
      pooled credentials (family p.name) := by
    rw [hmeta, splitKeys_metadata]
  unfold CredentialResolver.resolveCandidates
  dsimp only
  rw [hkeys, if_pos h]
  rfl

/-- **Pooled keys.** For a provider of a vendor, the resolver hands out one user credential for
each piece of the vendor's keys, in order, when there is one; tidy keys come back as they were
given. -/
theorem pooled_keys_return (credentials : PyDict PyStr (List PyStr)) (vendor : PyStr)
    (p : ModelProvider) (tenant : TenantContext) (hcolon : .scalar ':' ∉ vendor)
    (hname : p.name = vendor ∨ ∃ m, p.name = vendor ++ py ":" ++ m)
    (hmeta : tenant.metadata = credentialMetadata credentials) :
    (pooled credentials vendor ≠ [] →
      CredentialResolver.resolveCandidates tenant p =
        .ok ((pooled credentials vendor).map (userCredential p))) ∧
    ∀ keys, credentials.get? vendor = some keys → keys ≠ [] → (∀ key ∈ keys, Tidy key) →
      CredentialResolver.resolveCandidates tenant p = .ok (keys.map (userCredential p)) := by
  have hfamily : family p.name = vendor := family_of_named hcolon hname
  subst hfamily
  refine ⟨resolve_pooled hmeta, fun keys hkeys hne htidy => ?_⟩
  have hpooled : pooled credentials (family p.name) = keys := by
    rw [pooled, hkeys]
    exact flatMap_pieces_of_tidy htidy
  have hresolve := resolve_pooled hmeta (hpooled ▸ hne)
  rwa [hpooled] at hresolve

namespace Sample

/-- The keys of one visitor for two vendors. -/
def credentials : PyDict PyStr (List PyStr) :=
  (Byok.Sample.credentials ["sk-1, sk-2", " ", "sk-3"]).set (py "groq") [py "gsk-1"]

def tenant : TenantContext :=
  { Byok.Sample.tenant [] with metadata := credentialMetadata credentials }

end Sample

/-- A key with a comma and a blank key among the keys of two vendors. -/
theorem three_keys_return :
    CredentialResolver.resolveCandidates Sample.tenant Byok.Sample.registered =
        .ok ([py "sk-1", py "sk-2", py "sk-3"].map (userCredential Byok.Sample.registered)) ∧
      CredentialResolver.resolveCandidates Sample.tenant (Byok.Sample.provider (py "groq")) =
        .ok ([py "gsk-1"].map (userCredential (Byok.Sample.provider (py "groq")))) := by
  have hpooled : pooled Sample.credentials (py "openai") = [py "sk-1", py "sk-2", py "sk-3"] := by
    decide
  constructor
  · rw [← hpooled]
    exact (pooled_keys_return Sample.credentials (py "openai") Byok.Sample.registered Sample.tenant
      (by decide) (.inr ⟨py "m", rfl⟩) rfl).1 (by rw [hpooled]; decide)
  · refine (pooled_keys_return Sample.credentials (py "groq") (Byok.Sample.provider (py "groq"))
      Sample.tenant (by decide) (.inl rfl) rfl).2 [py "gsk-1"] rfl (by decide) ?_
    intro key hkey
    rw [List.mem_singleton.mp hkey]
    exact ⟨by decide, ⟨.scalar 'g', by decide, by decide⟩, by decide⟩

end ModelDispatcher.KeyPools
