import ModelDispatcher.Security

/-!
Bring-your-own-key registries. A server's own keys and a visitor's keys decide which vendors are
registered for a request, and the credential resolver decides again whether it can serve them.
-/

namespace ModelDispatcher.Byok

open Lib.Text Lib.Binary64 Lib.Dicts DataTypes Exceptions Config Providers Security

/-- One vendor's wiring: how to build its adapter from a model and a server key, and where its
configuration lives. -/
structure ProviderSpec where
  providerCls : PyStr → Option PyStr → ModelProvider
  keyEnvVar : PyStr
  modelEnvVar : PyStr
  defaultModel : PyStr

/-- The environment of the process. -/
abbrev Environ := PyStr → Option PyStr

/-- Present and not empty. -/
def truthy : Option PyStr → Bool
  | none => false
  | some s => s ≠ []

variable (env : Environ)

def ProviderSpec.build (spec : ProviderSpec) : ModelProvider :=
  let model := env spec.modelEnvVar
  spec.providerCls (if truthy model then model.getD [] else spec.defaultModel)
    (env spec.keyEnvVar)

/-- The visitor's keys as the tenant metadata that the resolver reads. -/
def credentialMetadata (credentials : PyDict PyStr (List PyStr)) : PyDict PyStr PyStr :=
  .ofList ((credentials.entries.filter (·.2 ≠ [])).map fun (name, keys) =>
    (py "user_key:" ++ name, join ',' keys))

/-- One round of the loop over the table. -/
def registerSpec (credentials : PyDict PyStr (List PyStr)) (registry : ProviderRegistry)
    (entry : PyStr × ProviderSpec) : ProviderRegistry :=
  let (name, spec) := entry
  if ¬ truthy (env spec.keyEnvVar) ∧ (credentials.get? name).getD [] = [] then registry
  else registry.register (spec.build env)

/-- Register only the vendors with some usable key for this request. -/
def buildRegistry (specs : PyDict PyStr ProviderSpec) (credentials : PyDict PyStr (List PyStr)) :
    Except ModelDispatcherError ProviderRegistry :=
  let registry := specs.entries.foldl (registerSpec env credentials) {}
  if registry.all = [] then
    .error (.noProviderAvailableError
      [lit "no provider key available -- set one on the server or supply your own"])
  else .ok registry

/-! ### The visitor's keys, as the resolver reads them -/

section

variable {credentials : PyDict PyStr (List PyStr)}

/-- The visitor gave a vendor some text besides commas and blanks. -/
def VisitorKeyed (credentials : PyDict PyStr (List PyStr)) (vendor : PyStr) : Prop :=
  ∃ keys, credentials.get? vendor = some keys ∧
    ∃ key ∈ keys, ∃ c ∈ key, c ≠ .scalar ',' ∧ c.isSpace = false

/-- The entries of the metadata are the vendors with keys. -/
lemma metadata_eq_some_iff {key raw : PyStr} :
    (credentialMetadata credentials).get? key = some raw ↔
      ∃ vendor keys, credentials.get? vendor = some keys ∧ keys ≠ [] ∧
        key = py "user_key:" ++ vendor ∧ raw = join ',' keys := by
  have hnodup : (((credentials.entries.filter (·.2 ≠ [])).map fun (name, keys) =>
      (py "user_key:" ++ name, join ',' keys)).map Prod.fst).Nodup := by
    have hkeys : ((credentials.entries.filter (·.2 ≠ [])).map Prod.fst).Nodup :=
      credentials.nodup.sublist (List.filter_sublist.map _)
    have hprefixed := hkeys.map (List.append_right_injective (py "user_key:"))
    rw [List.map_map] at hprefixed ⊢
    exact hprefixed
  rw [credentialMetadata, PyDict.get?_ofList hnodup, List.mem_map]
  constructor
  · rintro ⟨⟨vendor, keys⟩, he, h⟩
    obtain ⟨hmem, hne⟩ := List.mem_filter.mp he
    obtain ⟨hkey, hraw⟩ := Prod.mk.inj h
    exact ⟨vendor, keys, PyDict.get?_eq_some_iff.mpr hmem, of_decide_eq_true hne, hkey.symm,
      hraw.symm⟩
  · rintro ⟨vendor, keys, hget, hne, rfl, rfl⟩
    exact ⟨(vendor, keys), List.mem_filter.mpr ⟨PyDict.get?_eq_some_iff.mp hget,
      decide_eq_true hne⟩, rfl⟩

/-- The metadata holds no tenant keys. -/
lemma metadata_tenantKey (vendor : PyStr) :
    (credentialMetadata credentials).get? (py "tenant_key:" ++ vendor) = none := by
  refine Option.eq_none_iff_forall_ne_some.mpr fun raw h => ?_
  obtain ⟨vendor', -, -, -, hkey, -⟩ := metadata_eq_some_iff.mp h
  have hhead : PyChar.scalar 't' = PyChar.scalar 'u' := (List.cons.inj hkey).1
  revert hhead
  decide

lemma splitKeys_ne_nil_iff {raw : Option PyStr} :
    splitKeys raw ≠ [] ↔
      ∃ s, raw = some s ∧ ∃ c ∈ s, c ≠ .scalar ',' ∧ c.isSpace = false := by
  have hsome : ∀ s : PyStr, ((split s ',').map strip).filter (· ≠ []) ≠ [] ↔
      ∃ c ∈ s, c ≠ .scalar ',' ∧ c.isSpace = false := by
    intro s
    constructor
    · intro h
      obtain ⟨key, hkey⟩ := List.exists_mem_of_ne_nil _ h
      obtain ⟨hmem, hne⟩ := List.mem_filter.mp hkey
      obtain ⟨piece, hpiece, rfl⟩ := List.mem_map.mp hmem
      obtain ⟨c, hc, hspace⟩ := strip_ne_nil_iff.mp (of_decide_eq_true hne)
      obtain ⟨hs, hcomma⟩ := mem_flatten_split.mp (List.mem_flatten.mpr ⟨piece, hpiece, hc⟩)
      exact ⟨c, hs, hcomma, hspace⟩
    · rintro ⟨c, hc, hcomma, hspace⟩
      obtain ⟨piece, hpiece, hmem⟩ := List.mem_flatten.mp (mem_flatten_split.mpr ⟨hc, hcomma⟩)
      have hne : strip piece ≠ [] := strip_ne_nil_iff.mpr ⟨c, hmem, hspace⟩
      exact List.ne_nil_of_mem (List.mem_filter.mpr
        ⟨List.mem_map.mpr ⟨piece, hpiece, rfl⟩, decide_eq_true hne⟩)
  cases raw with
  | none => simp [splitKeys]
  | some s =>
    cases s with
    | nil => simp [splitKeys]
    | cons c s =>
      change ((split (c :: s) ',').map strip).filter (· ≠ []) ≠ [] ↔ _
      rw [hsome]
      simp

/-- Every key of a split value is visible. -/
lemma nonBlank_of_mem_splitKeys {raw : Option PyStr} {key : PyStr} (h : key ∈ splitKeys raw) :
    NonBlank key := by
  unfold splitKeys at h
  split at h
  · cases h
  · cases h
  · obtain ⟨hmem, hne⟩ := List.mem_filter.mp h
    obtain ⟨piece, -, rfl⟩ := List.mem_map.mp hmem
    exact nonBlank_strip.mpr (strip_ne_nil_iff.mp (of_decide_eq_true hne))

/-- The resolver finds a visitor's key exactly when there is one. -/
lemma userKeys_ne_nil_iff {vendor : PyStr} :
    splitKeys ((credentialMetadata credentials).get? (py "user_key:" ++ vendor)) ≠ [] ↔
      VisitorKeyed credentials vendor := by
  rw [splitKeys_ne_nil_iff]
  constructor
  · rintro ⟨raw, hraw, c, hc, hcomma, hspace⟩
    obtain ⟨vendor', keys, hget, -, hvendor, rfl⟩ := metadata_eq_some_iff.mp hraw
    rw [← List.append_cancel_left hvendor] at hget
    obtain ⟨key, hkey, hmem⟩ := List.mem_flatten.mp ((mem_join hcomma).mp hc)
    exact ⟨keys, hget, key, hkey, c, hmem, hcomma, hspace⟩
  · rintro ⟨keys, hget, key, hkey, c, hc, hcomma, hspace⟩
    refine ⟨join ',' keys, metadata_eq_some_iff.mpr
      ⟨vendor, keys, hget, List.ne_nil_of_mem hkey, rfl, rfl⟩, c, ?_, hcomma, hspace⟩
    exact (mem_join hcomma).mpr (List.mem_flatten.mpr ⟨key, hkey, hc⟩)

end

/-! ### The registered providers -/

/-- The factory of a spec builds non-free adapters named after its vendor. -/
structure WellNamed (vendor : PyStr) (spec : ProviderSpec) : Prop where
  noColon : .scalar ':' ∉ vendor
  tier : ∀ model key, (spec.providerCls model key).tier ≠ .free
  name : ∀ model key, (spec.providerCls model key).name = vendor ∨
    ∃ m, (spec.providerCls model key).name = vendor ++ py ":" ++ m

/-- The vendor of a provider was wired with a server key. -/
def ServerKeyed (specs : PyDict PyStr ProviderSpec) (p : ModelProvider) : Prop :=
  ∃ vendor spec, specs.get? vendor = some spec ∧ p = spec.build env ∧
    truthy (env spec.keyEnvVar)

section

variable {env} {specs : PyDict PyStr ProviderSpec} {credentials : PyDict PyStr (List PyStr)}

lemma family_of_noColon {vendor rest : PyStr} (h : .scalar ':' ∉ vendor)
    (hrest : rest = [] ∨ ∃ m, rest = py ":" ++ m) : family (vendor ++ rest) = vendor := by
  have hvendor : ∀ c ∈ vendor, decide (c ≠ PyChar.scalar ':') = true := by
    intro c hc
    refine decide_eq_true ?_
    rintro rfl
    exact h hc
  unfold family
  rw [List.takeWhile_append_of_pos hvendor]
  rcases hrest with rfl | ⟨m, rfl⟩
  · rw [List.takeWhile_nil, List.append_nil]
  · change vendor ++ List.takeWhile _ (.scalar ':' :: m) = vendor
    rw [List.takeWhile_cons_of_neg (by simp), List.append_nil]

/-- A provider named after a vendor belongs to it. -/
lemma family_of_named {vendor name : PyStr} (h : .scalar ':' ∉ vendor)
    (hname : name = vendor ∨ ∃ m, name = vendor ++ py ":" ++ m) : family name = vendor := by
  rcases hname with rfl | ⟨m, rfl⟩
  · have hfamily := family_of_noColon h (.inl rfl)
    rwa [List.append_nil] at hfamily
  · rw [List.append_assoc]
    exact family_of_noColon h (.inr ⟨m, rfl⟩)

lemma WellNamed.family_name {vendor : PyStr} {spec : ProviderSpec} (h : WellNamed vendor spec) :
    family (spec.build env).name = vendor := family_of_named h.noColon (h.name _ _)

/-- A registered provider was built from a spec with a server key or some visitor's keys. -/
lemma mem_registry {registry : ProviderRegistry}
    (hr : buildRegistry env specs credentials = .ok registry) {p : ModelProvider}
    (hp : p ∈ registry.all) :
    ∃ vendor spec, specs.get? vendor = some spec ∧ p = spec.build env := by
  have hfold : ∀ (es : List (PyStr × ProviderSpec)) (r : ProviderRegistry),
      p ∈ (es.foldl (registerSpec env credentials) r).all →
        p ∈ r.all ∨ ∃ e ∈ es, p = e.2.build env := by
    intro es
    induction es with
    | nil => exact fun r h => .inl h
    | cons e rest ih =>
      intro r h
      rcases ih _ h with h | ⟨e', he', rfl⟩
      · unfold registerSpec at h
        dsimp only at h
        split_ifs at h
        · exact .inl h
        · rcases PyDict.mem_values_set h with rfl | h
          · exact .inr ⟨e, by simp, rfl⟩
          · exact .inl h
      · exact .inr ⟨e', by simp [he'], rfl⟩
  unfold buildRegistry at hr
  dsimp only at hr
  split_ifs at hr
  cases hr
  rcases hfold _ _ hp with h | ⟨⟨vendor, spec⟩, he, rfl⟩
  · cases h
  · exact ⟨vendor, spec, PyDict.get?_eq_some_iff.mpr he, rfl⟩

end

/-! ### Whom the resolver can serve -/

/-- The resolver answers with visible keys of the user, or for a provider with a server key. -/
def Served (specs : PyDict PyStr ProviderSpec) (tenant : TenantContext) (p : ModelProvider) :
    Prop :=
  ∃ creds, CredentialResolver.resolveCandidates tenant p = .ok creds ∧
    ∀ c ∈ creds, (c.source = .user ∧ ∃ key, c.rawKey = some key ∧ NonBlank key) ∨
      (c.providerName = p.name ∧ ServerKeyed env specs p)

/-- What the resolver answers on a visitor's metadata: the visitor's keys, else the shared
application key for a zero-setup tenant, else an error. -/
lemma resolve_cases {credentials : PyDict PyStr (List PyStr)} {tenant : TenantContext}
    {p : ModelProvider} (hmeta : tenant.metadata = credentialMetadata credentials)
    (htier : p.tier ≠ .free) :
    (VisitorKeyed credentials (family p.name) ∧
        CredentialResolver.resolveCandidates tenant p = .ok (CredentialResolver.keyed p .user
          (splitKeys (tenant.metadata.get? (py "user_key:" ++ family p.name))))) ∨
      (¬ VisitorKeyed credentials (family p.name) ∧ tenant.isZeroSetup ∧
        CredentialResolver.resolveCandidates tenant p =
          .ok [{ providerName := p.name, source := .globalApp, secretRef := py "global-app-key",
                 isRateLimited := true }]) ∨
      (¬ VisitorKeyed credentials (family p.name) ∧ ¬ tenant.isZeroSetup ∧
        ∃ e, CredentialResolver.resolveCandidates tenant p = .error e) := by
  have huser := @userKeys_ne_nil_iff credentials (family p.name)
  have htenant : splitKeys (tenant.metadata.get? (py "tenant_key:" ++ family p.name)) = [] := by
    rw [hmeta, metadata_tenantKey]
    rfl
  rw [← hmeta] at huser
  unfold CredentialResolver.resolveCandidates
  dsimp only
  by_cases hkeyed : VisitorKeyed credentials (family p.name)
  · exact .inl ⟨hkeyed, if_pos (huser.mpr hkeyed)⟩
  · rw [if_neg (mt huser.mp hkeyed), if_neg (not_not.mpr htenant), if_neg htier]
    by_cases hzero : tenant.isZeroSetup
    · exact .inr (.inl ⟨hkeyed, hzero, if_pos hzero⟩)
    · exact .inr (.inr ⟨hkeyed, hzero, _, if_neg hzero⟩)

/-- The name of a provider tells which vendor it was built for. -/
lemma serverKeyed_build_iff {specs : PyDict PyStr ProviderSpec} {vendor : PyStr}
    {spec : ProviderSpec}
    (hspecs : ∀ vendor spec, specs.get? vendor = some spec → WellNamed vendor spec)
    (hspec : specs.get? vendor = some spec) : ServerKeyed env specs (spec.build env) ↔
      ∃ spec', specs.get? vendor = some spec' ∧ truthy (env spec'.keyEnvVar) := by
  constructor
  · rintro ⟨vendor', spec', hspec', hbuild, hkey⟩
    have hvendor : vendor' = vendor := by
      rw [← @WellNamed.family_name env _ _ (hspecs vendor' spec' hspec'), ← hbuild]
      exact (hspecs vendor spec hspec).family_name
    exact ⟨spec', hvendor ▸ hspec', hkey⟩
  · rintro ⟨spec', hspec', hkey⟩
    rw [hspec] at hspec'
    cases hspec'
    exact ⟨vendor, spec, hspec, rfl, hkey⟩

/-- **Registered vendors.** A registered provider can be served exactly when the visitor gave its
vendor a visible key, or the tenant is zero-setup and the server has a key for the vendor. -/
theorem served_iff_keyed (specs : PyDict PyStr ProviderSpec)
    (credentials : PyDict PyStr (List PyStr)) (registry : ProviderRegistry) (p : ModelProvider)
    (tenant : TenantContext)
    (hspecs : ∀ vendor spec, specs.get? vendor = some spec → WellNamed vendor spec)
    (hr : buildRegistry env specs credentials = .ok registry) (hp : p ∈ registry.all)
    (hmeta : tenant.metadata = credentialMetadata credentials) :
    Served env specs tenant p ↔ VisitorKeyed credentials (family p.name) ∨
      (tenant.isZeroSetup ∧ ∃ spec, specs.get? (family p.name) = some spec ∧
        truthy (env spec.keyEnvVar)) := by
  obtain ⟨vendor, spec, hspec, rfl⟩ := mem_registry hr hp
  have hnamed := hspecs vendor spec hspec
  have hfamily : family (spec.build env).name = vendor := hnamed.family_name
  have hserver := @serverKeyed_build_iff env specs _ _ hspecs hspec
  rw [hfamily, ← hserver]
  have htier : (spec.build env).tier ≠ .free := hnamed.tier _ _
  have hglobal : CredentialSource.globalApp ≠ .user := by simp
  rcases resolve_cases hmeta htier with ⟨hkeyed, hcreds⟩ | ⟨hkeyed, hzero, hcreds⟩ |
    ⟨hkeyed, hzero, e, hcreds⟩
  · rw [hfamily] at hkeyed
    refine iff_of_true ⟨_, hcreds, ?_⟩ (.inl hkeyed)
    intro c hc
    obtain ⟨key, hkey, rfl⟩ := List.mem_map.mp hc
    exact .inl ⟨rfl, key, rfl, nonBlank_of_mem_splitKeys hkey⟩
  · rw [hfamily] at hkeyed
    constructor
    · rintro ⟨creds, h, hall⟩
      rw [hcreds] at h
      cases h
      rcases hall _ (List.mem_singleton_self _) with ⟨hsource, -⟩ | ⟨-, hkey⟩
      · exact absurd hsource hglobal
      · exact .inr ⟨hzero, hkey⟩
    · rintro (hvisitor | ⟨-, hkey⟩)
      · exact absurd hvisitor hkeyed
      · refine ⟨_, hcreds, fun c hc => ?_⟩
        rw [List.mem_singleton.mp hc]
        exact .inr ⟨rfl, hkey⟩
  · rw [hfamily] at hkeyed
    refine iff_of_false ?_ ?_
    · rintro ⟨creds, h, -⟩
      rw [hcreds] at h
      cases h
    · rintro (hvisitor | ⟨hzero', -⟩)
      · exact hkeyed hvisitor
      · exact hzero hzero'

namespace Sample

def provider (name : PyStr) : ModelProvider where
  name := name
  tier := .standard
  capabilities := ProviderCapability.none
  estimateTokens := fun _ => 10
  classifyError := fun _ => .transient

/-- A table of one vendor. -/
def specs : PyDict PyStr ProviderSpec :=
  (∅ : PyDict PyStr ProviderSpec).set (py "openai")
    ⟨fun model _ => provider (py "openai" ++ py ":" ++ model), py "KEY", py "MODEL", py "m"⟩

/-- The keys of one visitor for it. -/
def credentials (keys : List String) : PyDict PyStr (List PyStr) :=
  (∅ : PyDict PyStr (List PyStr)).set (py "openai") (keys.map py)

def tenant (keys : List String) : TenantContext where
  tenantId := py "t"
  quota := ⟨10, 100, 1000, ofRat (9 / 10)⟩
  metadata := credentialMetadata (credentials keys)

def registered : ModelProvider := provider (py "openai:m")

lemma wellNamed (vendor : PyStr) (spec : ProviderSpec) (h : specs.get? vendor = some spec) :
    WellNamed vendor spec := by
  have hentry := PyDict.get?_eq_some_iff.mp h
  obtain ⟨rfl, rfl⟩ := Prod.mk.inj (List.mem_singleton.mp hentry)
  exact ⟨by decide, fun _ _ => by simp [provider], fun model _ => .inr ⟨model, rfl⟩⟩

end Sample

/-- A blank visitor key registers a vendor without a server key. -/
theorem blank_key_registered : ¬ ∀ (env : Environ) (specs : PyDict PyStr ProviderSpec)
    (credentials : PyDict PyStr (List PyStr)) (registry : ProviderRegistry) (p : ModelProvider)
    (tenant : TenantContext),
    (∀ vendor spec, specs.get? vendor = some spec → WellNamed vendor spec) →
    buildRegistry env specs credentials = .ok registry → p ∈ registry.all →
    tenant.metadata = credentialMetadata credentials → Served env specs tenant p := by
  intro h
  obtain ⟨creds, hcreds, hall⟩ := h (fun _ => none) Sample.specs (Sample.credentials [" "])
    (({} : ProviderRegistry).register Sample.registered) Sample.registered (Sample.tenant [" "])
    Sample.wellNamed rfl (List.mem_singleton_self _) rfl
  have hresolve : CredentialResolver.resolveCandidates (Sample.tenant [" "]) Sample.registered =
      .ok [⟨py "openai:m", .globalApp, py "global-app-key", none, true⟩] := by
    decide
  rw [hresolve] at hcreds
  cases hcreds
  rcases hall _ (List.mem_singleton_self _) with ⟨hsource, _⟩ | ⟨_, _, _, _, _, hkey⟩
  · cases hsource
  · cases hkey

/-- A visitor's key serves its vendor. -/
theorem visible_key_served :
    Served (fun _ => none) Sample.specs (Sample.tenant ["sk-1"]) Sample.registered := by
  refine (served_iff_keyed (fun _ => none) Sample.specs (Sample.credentials ["sk-1"])
    (({} : ProviderRegistry).register Sample.registered) Sample.registered _ Sample.wellNamed rfl
    (List.mem_singleton_self _) rfl).mpr (.inl ⟨[py "sk-1"], rfl, py "sk-1", by simp, ?_⟩)
  exact ⟨.scalar 's', by decide, by decide, by decide⟩

end ModelDispatcher.Byok
