import Gatehouse.Proofs.Identity.Loading
import Gatehouse.Proofs.Text.Utf8

/-!
# Which provider an issuer gets

Providers are loaded in the order of their names, so of those that can be made and have one issuer
the last is left.  Entries from which no provider can be made, and those of other categories, leave
no trace: what is found depends on the working entries alone.
-/

namespace Gatehouse.Identity.Registry

variable {registry : Registry} {category : String}

/-! ## Working entries -/

/-- The name has an entry in the category, and the provider can be made from it. -/
structure Works (registry : Registry) (category name : String) (config : ProviderConfig)
    (p : Provider) : Prop where
  entry : (name, config) ∈ registry
  filed : config.category = category
  made : Provider.ofConfig name config = .ok p

theorem loaded?_eq_some {name issuer : String} {p : Provider} :
    registry.loaded? name = some (issuer, p) ↔
      registry.load name = .ok p ∧ normalizeIssuer p.issuer = issuer := by
  rw [loaded?]
  cases registry.load name with
  | error e => simp [Except.toOption]
  | ok made =>
      simp only [Except.toOption, Option.map_some, Option.some.injEq, Prod.mk.injEq,
        Except.ok.injEq]
      constructor
      · rintro ⟨hissuer, rfl⟩
        exact ⟨rfl, hissuer⟩
      · rintro ⟨rfl, hissuer⟩
        exact ⟨hissuer, rfl⟩

theorem normalizeIssuer_of_ofConfig {name : String} {config : ProviderConfig} {p : Provider}
    (made : Provider.ofConfig name config = .ok p) :
    normalizeIssuer p.issuer = normalizeIssuer config.issuer := by
  rw [(Provider.configured_of_ofConfig made).2.issuer, normalizeIssuer_idempotent]

/-- What is loaded of a category are its working entries, each under its issuer. -/
theorem loaded_iff_works (h : Table.Ordered registry) {name issuer : String} {p : Provider} :
    (name ∈ registry.names category ∧ registry.loaded? name = some (issuer, p)) ↔
      ∃ config, Works registry category name config p ∧ normalizeIssuer config.issuer = issuer := by
  have hload {config : ProviderConfig} (hentry : (name, config) ∈ registry) :
      registry.load name = Provider.ofConfig name config := by
    rw [load, h.mem_iff.mp hentry]
  rw [mem_names_iff, loaded?_eq_some]
  constructor
  · rintro ⟨⟨config, hentry, hfiled⟩, hmade, rfl⟩
    rw [hload hentry] at hmade
    exact ⟨config, ⟨hentry, hfiled, hmade⟩, (normalizeIssuer_of_ofConfig hmade).symm⟩
  · rintro ⟨config, hworks, rfl⟩
    refine ⟨⟨config, hworks.entry, hworks.filed⟩, ?_, normalizeIssuer_of_ofConfig hworks.made⟩
    rw [hload hworks.entry, hworks.made]

theorem ordered_names (h : Table.Ordered registry) :
    (registry.names category).Pairwise (· < ·) := by
  refine List.Pairwise.filterMap _ ?_ h
  rintro ⟨_, _⟩ ⟨_, _⟩ hlt _ hname _ hname'
  simp only [Option.ite_none_right_eq_some, Option.some.injEq] at hname hname'
  rwa [← hname.2, ← hname'.2]

/-! ## The provider of an issuer -/

/-- The provider is that of the working entry with the greatest name, by its bytes, among those of
the issuer. -/
def Serves (registry : Registry) (category issuer : String) (p : Provider) : Prop :=
  ∃ name config, Works registry category name config p ∧ SameIssuer config.issuer issuer ∧
    ∀ other config' p', Works registry category other config' p' →
      SameIssuer config'.issuer issuer → Text.Utf8.encode other ≤ Text.Utf8.encode name

/-- The last provider that was loaded for an issuer is the one that serves it. -/
theorem get?_loadAll_eq_some_iff (h : Table.Ordered registry) {issuer : String} {p : Provider} :
    (registry.loadAll category).1.get? issuer = some p ↔ Serves registry category issuer p := by
  -- The names are loaded in their order, so the last to be bound is the greatest.
  rw [loadAll_eq, Issuers.get?, Table.get?_ofList_eq_some_iff,
    Table.lastBound_filterMap_iff (ordered_names h)]
  constructor
  · rintro ⟨name, hname, hloaded, hgreatest⟩
    obtain ⟨config, hworks, hissuer⟩ := (loaded_iff_works h).mp ⟨hname, hloaded⟩
    refine ⟨name, config, hworks, normalizeIssuer_eq_iff.mp hissuer, ?_⟩
    intro other config' p' hworks' hsame
    obtain ⟨hother, hlater⟩ :=
      (loaded_iff_works h).mpr ⟨config', hworks', normalizeIssuer_eq_iff.mpr hsame⟩
    exact Text.Utf8.encode_le_encode_iff.mpr (hgreatest other hother p' hlater)
  · rintro ⟨name, config, hworks, hsame, hgreatest⟩
    obtain ⟨hname, hloaded⟩ :=
      (loaded_iff_works h).mpr ⟨config, hworks, normalizeIssuer_eq_iff.mpr hsame⟩
    refine ⟨name, hname, hloaded, fun other hother p' hlater => ?_⟩
    obtain ⟨config', hworks', hissuer'⟩ := (loaded_iff_works h).mp ⟨hother, hlater⟩
    apply Text.Utf8.encode_le_encode_iff.mp
    exact hgreatest other config' p' hworks' (normalizeIssuer_eq_iff.mp hissuer')

/-- An issuer without a provider is that of no working entry. -/
theorem get?_loadAll_eq_none_iff (h : Table.Ordered registry) {issuer : String} :
    (registry.loadAll category).1.get? issuer = none ↔
      ∀ name config p, Works registry category name config p →
        ¬ SameIssuer config.issuer issuer := by
  constructor
  · intro hnone name config p hworks hsame
    obtain ⟨hname, hloaded⟩ := (loaded_iff_works h).mpr ⟨config, hworks, rfl⟩
    obtain ⟨hload, hissuer⟩ := loaded?_eq_some.mp hloaded
    obtain ⟨found, hfound⟩ := exists_get?_loadAll hname hload
    rw [Issuers.get?, hissuer, normalizeIssuer_eq_iff.mpr hsame] at hfound
    rw [Issuers.get?, hfound] at hnone
    cases hnone
  · intro hall
    cases hfound : (registry.loadAll category).1.get? issuer with
    | none => rfl
    | some p =>
        obtain ⟨name, config, hworks, hsame, -⟩ := (get?_loadAll_eq_some_iff h).mp hfound
        exact absurd hsame (hall name config p hworks)

def workingIssuers (registry : Registry) (category : String) : Set String :=
  {issuer | ∃ name config p, Works registry category name config p ∧
    normalizeIssuer config.issuer = issuer}

theorem mem_names_loadAll_iff (h : Table.Ordered registry) {issuer : String} :
    issuer ∈ Table.names (registry.loadAll category).1 ↔
      issuer ∈ workingIssuers registry category := by
  rw [loadAll_eq, Table.mem_names_ofList, List.mem_map]
  constructor
  · rintro ⟨⟨_, p⟩, hpair, rfl⟩
    obtain ⟨name, hname, hloaded⟩ := List.mem_filterMap.mp hpair
    obtain ⟨config, hworks, hissuer⟩ := (loaded_iff_works h).mp ⟨hname, hloaded⟩
    exact ⟨name, config, p, hworks, hissuer⟩
  · rintro ⟨name, config, p, hworks, rfl⟩
    obtain ⟨hname, hloaded⟩ := (loaded_iff_works h).mpr ⟨config, hworks, rfl⟩
    exact ⟨_, List.mem_filterMap.mpr ⟨name, hname, hloaded⟩, rfl⟩

/-- There are as many providers as issuers of working entries. -/
theorem length_loadAll (h : Table.Ordered registry) :
    ((registry.loadAll category).1.length : ℕ∞) = (workingIssuers registry category).encard := by
  have hnodup : (Table.names (registry.loadAll category).1).Nodup := by
    rw [loadAll_eq]
    exact (Table.ordered_ofList _).nodup_names
  have hset : workingIssuers registry category =
      ((Table.names (registry.loadAll category).1).toFinset : Set String) := by
    ext issuer
    rw [List.coe_toFinset, Set.mem_ofPred_eq, mem_names_loadAll_iff h]
  rw [hset, Set.encard_coe_eq_coe_finsetCard, List.toFinset_card_of_nodup hnodup, Table.names,
    List.length_map]

/-- What is found of an issuer is the provider of the working entry with the greatest name among
those of the issuer, and nothing if there is none; entries that do not work make no difference to
any issuer, and there are as many providers as working entries have issuers. -/
theorem greatest_working_name_serves (h : Table.Ordered registry) (category : String) :
    let issuers := (registry.loadAll category).1
    (∀ issuer p, issuers.get? issuer = some p ↔ Serves registry category issuer p) ∧
    (∀ issuer, issuers.get? issuer = none ↔ ∀ name config p,
      Works registry category name config p → ¬ SameIssuer config.issuer issuer) ∧
    (∀ other : Registry, Table.Ordered other →
      (∀ name config p, Works other category name config p ↔
        Works registry category name config p) →
      ∀ issuer, (other.loadAll category).1.get? issuer = issuers.get? issuer) ∧
    (issuers.length : ℕ∞) = (workingIssuers registry category).encard := by
  intro issuers
  refine ⟨fun issuer p => get?_loadAll_eq_some_iff h, fun issuer => get?_loadAll_eq_none_iff h,
    fun other hother hsame issuer => ?_, length_loadAll h⟩
  apply Option.ext
  intro p
  rw [get?_loadAll_eq_some_iff hother, get?_loadAll_eq_some_iff h]
  simp only [Serves, hsame]

/-- Two providers of one issuer, one of it that cannot be made, and one of another category. -/
def crowdedRegistry : Registry := [
  ("A", { issuer := "https://idp.example.org/", secret := some "a" }),
  ("B", { issuer := "https://idp.example.org//", secret := some "b" }),
  ("C", { issuer := "https://idp.example.org" }),
  ("D", { issuer := "https://idp.example.org", secret := some "d", category := "Host" })]

theorem second_of_crowdedRegistry_serves : Table.Ordered crowdedRegistry ∧
    ∃ p, (crowdedRegistry.loadAll "Id").1.get? "https://idp.example.org" = some p ∧
      p.name = "B" := by
  have hordered : Table.Ordered crowdedRegistry := by decide +kernel
  have hnone : ∀ p, Provider.ofConfig "C" { issuer := "https://idp.example.org" } ≠ .ok p := by
    intro p h
    cases h
  obtain ⟨p, hmade⟩ : ∃ p, Provider.ofConfig "B"
      { issuer := "https://idp.example.org//", secret := some "b" } = .ok p :=
    Provider.exists_ofConfig "B" (by decide) rfl
  refine ⟨hordered, p, ?_, (Provider.configured_of_ofConfig hmade).1⟩
  apply ((greatest_working_name_serves hordered "Id").1 _ _).mpr
  refine ⟨"B", _, ⟨by simp [crowdedRegistry], rfl, hmade⟩, ?_, ?_⟩
  · exact ⟨"https://idp.example.org".toList, 2, 0, rfl, rfl⟩
  · rintro other config p' ⟨hentry, hfiled, hmade'⟩ -
    simp only [crowdedRegistry, List.mem_cons, List.not_mem_nil, or_false, Prod.mk.injEq] at hentry
    obtain ⟨rfl, rfl⟩ | ⟨rfl, rfl⟩ | ⟨rfl, rfl⟩ | ⟨rfl, rfl⟩ := hentry
    · decide +kernel
    · exact List.le_refl _
    · exact absurd hmade' (hnone p')
    · exact absurd hfiled (by decide)

end Gatehouse.Identity.Registry
