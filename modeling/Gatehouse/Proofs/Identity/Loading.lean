import Gatehouse.Proofs.Config.Coherence
import Gatehouse.Proofs.Identity.Issuers
import Gatehouse.Proofs.Table

/-!
# Loading providers

Loading a category passes over the providers that cannot be used and reports each.  Whether a
provider that shares a secret with its issuer is among them is not settled by the check of the
settings: the check looks for the first letters of the algorithm's name in upper case, whereas an
algorithm is found by its exact name.
-/

namespace Gatehouse.Identity

open Token
open Config (Settings)

namespace Registry

variable (registry : Registry) (category : String)

/-! ## What loading a category makes -/

def loaded? (name : String) : Option (String × Provider) :=
  (registry.load name).toOption.map fun p => (normalizeIssuer p.issuer, p)

def report? (name : String) : Option LogLine :=
  match registry.load name with
  | .ok _ => none
  | .error e => some (skipped name e)

/-- Of two providers with one issuer, that with the later name wins. -/
theorem loadAll_eq : registry.loadAll category =
    (Table.ofList ((registry.names category).filterMap registry.loaded?),
      (registry.names category).filterMap registry.report?) := by
  rw [loadAll]
  generalize registry.names category = names
  -- The induction goes from the back: the provider loaded last is put over those before it.
  induction names using List.reverseRecOn with
  | nil => rfl
  | append_singleton names name ih =>
      rw [List.foldl_append, ih, List.filterMap_append, List.filterMap_append,
        ← Table.extend_ofList]
      dsimp only [List.foldl_cons, List.foldl_nil, List.filterMap_cons, List.filterMap_nil]
      rw [loaded?, report?]
      cases registry.load name with
      | ok p => exact congrArg (Prod.mk _) (List.append_nil _).symm
      | error e => rfl

variable {registry category} {name : String}

theorem mem_names_iff : name ∈ registry.names category ↔
    ∃ config, (name, config) ∈ registry ∧ config.category = category := by
  simp only [names, List.mem_filterMap, Prod.exists]
  constructor
  · rintro ⟨other, config, hmem, h⟩
    split at h
    · next hcategory =>
        obtain rfl := Option.some.inj h
        exact ⟨config, hmem, hcategory⟩
    · cases h
  · rintro ⟨config, hmem, hcategory⟩
    exact ⟨name, config, hmem, if_pos hcategory⟩

theorem skipped_mem_loadAll (hname : name ∈ registry.names category) {e : ProviderError}
    (h : registry.load name = .error e) : skipped name e ∈ (registry.loadAll category).2 := by
  rw [loadAll_eq]
  refine List.mem_filterMap.mpr ⟨name, hname, ?_⟩
  rw [report?, h]

/-- Nothing is reported of a provider that can be used. -/
theorem skipped_not_mem_loadAll {p : Provider} (h : registry.load name = .ok p)
    (e : ProviderError) : skipped name e ∉ (registry.loadAll category).2 := by
  rw [loadAll_eq]
  intro hmem
  obtain ⟨other, -, hother⟩ := List.mem_filterMap.mp hmem
  rw [report?] at hother
  split at hother
  · cases hother
  · next e' herror =>
      have hfields := congrArg LogLine.fields (Option.some.inj hother)
      have hsame : other = name := congrArg Prod.snd (List.cons.inj hfields).1
      rw [hsame, h] at herror
      cases herror

/-- The issuer of a provider that can be used has a provider. -/
theorem exists_get?_loadAll (hname : name ∈ registry.names category) {p : Provider}
    (h : registry.load name = .ok p) :
    ∃ found, (registry.loadAll category).1.get? p.issuer = some found := by
  have hpair : (normalizeIssuer p.issuer, p) ∈
      (registry.names category).filterMap registry.loaded? := by
    refine List.mem_filterMap.mpr ⟨name, hname, ?_⟩
    rw [loaded?, h]
    rfl
  obtain ⟨found, hfound⟩ := Table.exists_lastBound_iff.mpr (List.mem_map_of_mem hpair)
  refine ⟨found, ?_⟩
  rw [loadAll_eq]
  exact hfound.get?

end Registry

/-! ## Providers that share a secret -/

/-- The algorithms of a shared secret, by their exact names. -/
def sharedSecretNames : List String := ["HS256", "HS384", "HS512"]

theorem named_of_ofName? {name : String} {algorithm : Algorithm}
    (h : Algorithm.ofName? name = some algorithm) : (name, algorithm) ∈ Algorithm.named := by
  obtain ⟨before, after, heq, -⟩ := List.lookup_eq_some_iff.mp h
  rw [heq]
  exact List.mem_append_right _ List.mem_cons_self

theorem ofName?_of_mem {name : String} (h : name ∈ sharedSecretNames) :
    ∃ algorithm, Algorithm.ofName? name = some algorithm ∧ algorithm.family = .hmac := by
  have hall : ∀ name ∈ sharedSecretNames, ∃ algorithm ∈ Algorithm.named.map Prod.snd,
      Algorithm.ofName? name = some algorithm ∧ algorithm.family = .hmac := by
    decide
  obtain ⟨algorithm, -, hname, hfamily⟩ := hall name h
  exact ⟨algorithm, hname, hfamily⟩

/-- No other name of an algorithm begins like theirs. -/
theorem ofName?_eq_none {name : String} (hshared : Settings.sharesSecret name = true)
    (h : name ∉ sharedSecretNames) : Algorithm.ofName? name = none := by
  have hall : ∀ pair ∈ Algorithm.named, Settings.sharesSecret pair.1 = true →
      pair.1 ∈ sharedSecretNames := by
    decide +kernel
  cases hname : Algorithm.ofName? name with
  | none => rfl
  | some algorithm => exact absurd (hall _ (named_of_ofName? hname) hshared) h

theorem Provider.exists_ofConfig {config : ProviderConfig} (name : String)
    (halgorithm : config.algorithm ∈ sharedSecretNames) (hsecret : config.secret.isSome) :
    ∃ p, Provider.ofConfig name config = .ok p := by
  obtain ⟨algorithm, hname, hfamily⟩ := ofName?_of_mem halgorithm
  obtain ⟨secret, hsecret⟩ := Option.isSome_iff_exists.mp hsecret
  have hkey : loadKey name algorithm config = .ok (Text.Utf8.encode secret) := by
    rw [loadKey, hfamily]
    dsimp only
    rw [hsecret]
  rw [ofConfig, hname]
  dsimp only
  rw [hkey]
  exact ⟨_, rfl⟩

theorem secret_of_providerFault? {config : ProviderConfig}
    (h : Settings.providerFault? config = none)
    (hshared : Settings.sharesSecret config.algorithm = true) : config.secret.isSome := by
  rw [Settings.providerFault?, if_pos hshared] at h
  split at h
  · cases h
  · split at h
    · cases h
    · next hsome => simpa [Option.isSome_iff_ne_none] using hsome

/-- Settings are coherent and a provider in them shares a secret with its issuer.  Where its
algorithm is called by its exact name, the provider is loaded as it is configured, loading its
category does not report it, and its issuer has a provider then.  Where it is not, there is no such
algorithm, and loading the category reports just that. -/
theorem shared_secrets_load {s : Settings} (hs : s.incoherence? = none) {name : String}
    {config : ProviderConfig} (hconfig : Table.get? name s.providers = some config)
    (hshared : Settings.sharesSecret config.algorithm = true) :
    let registry : Registry := s.providers
    let loaded := registry.loadAll config.category
    (config.algorithm ∈ sharedSecretNames →
      (∃ p, registry.load name = .ok p ∧ p.name = name ∧ p.Configured config) ∧
      (∀ e, Registry.skipped name e ∉ loaded.2) ∧
      ∃ p, loaded.1.get? config.issuer = some p ∧ p.issuer = normalizeIssuer config.issuer) ∧
    (config.algorithm ∉ sharedSecretNames →
      let e := ProviderError.unsupportedAlgorithm name config.algorithm
      registry.load name = .error e ∧ Registry.skipped name e ∈ loaded.2) := by
  intro registry loaded
  have hmem : (name, config) ∈ s.providers := Table.mem_of_get? hconfig
  have hname : name ∈ registry.names config.category :=
    Registry.mem_names_iff.mpr ⟨config, hmem, rfl⟩
  have hload : registry.load name = Provider.ofConfig name config := by
    rw [Registry.load, hconfig]
  constructor
  · intro hexact
    have hfault := (s.incoherence?_eq_none_iff.mp hs).providers name config hmem
    obtain ⟨p, hp⟩ := Provider.exists_ofConfig name hexact (secret_of_providerFault? hfault hshared)
    obtain ⟨hpname, hconfigured⟩ := Provider.configured_of_ofConfig hp
    rw [← hload] at hp
    refine ⟨⟨p, hp, hpname, hconfigured⟩, Registry.skipped_not_mem_loadAll hp, ?_⟩
    obtain ⟨found, hfound⟩ := Registry.exists_get?_loadAll hname hp
    rw [hconfigured.issuer, Issuers.get?, normalizeIssuer_idempotent] at hfound
    exact ⟨found, hfound, ((registry.loaded_loadAll config.category).provider hfound).1⟩
  · intro hother e
    have herror : registry.load name = .error e := by
      rw [hload, Provider.ofConfig, ofName?_eq_none hshared hother]
    exact ⟨herror, Registry.skipped_mem_loadAll hname herror⟩

def checkIn (algorithm : String) : ProviderConfig where
  issuer := "https://idp.example.org/"
  algorithm := algorithm
  secret := "s3cret"

theorem checkIn_loads :
    let s : Settings := { providers := [("CheckIn", checkIn "HS256")] }
    s.incoherence? = none ∧ Table.get? "CheckIn" s.providers = some (checkIn "HS256") ∧
    Settings.sharesSecret "HS256" = true ∧
    ∃ p, Registry.load s.providers "CheckIn" = .ok p ∧ p.Configured (checkIn "HS256") := by
  intro s
  have hs : s.incoherence? = none := by decide +kernel
  have hget : Table.get? "CheckIn" s.providers = some (checkIn "HS256") := rfl
  have hshared : Settings.sharesSecret "HS256" = true := by decide +kernel
  obtain ⟨⟨p, hp, -, hconfigured⟩, -⟩ := (shared_secrets_load hs hget hshared).1 (by decide)
  exact ⟨hs, hget, hshared, p, hp, hconfigured⟩

/-- The name of the algorithm in small letters passes the check, and the provider is passed over. -/
theorem checkIn_in_small_letters_is_passed_over :
    let s : Settings := { providers := [("CheckIn", checkIn "hs256")] }
    let loaded := Registry.loadAll s.providers "Id"
    s.incoherence? = none ∧ Settings.sharesSecret "hs256" = true ∧
    Registry.load s.providers "CheckIn" = .error (.unsupportedAlgorithm "CheckIn" "hs256") ∧
    loaded.1.get? "https://idp.example.org" = none ∧
    loaded.2 = [Registry.skipped "CheckIn" (.unsupportedAlgorithm "CheckIn" "hs256")] := by
  intro s loaded
  exact ⟨by decide +kernel, by decide +kernel, by rfl, by rfl, by rfl⟩

end Gatehouse.Identity
