import Gatehouse.Identity.Provider
import Gatehouse.Proofs.Text.Split
import Gatehouse.Proofs.Token.Verification

/-!
# Issuers and their providers

A table of issuers is filled with providers that were made from settings, so whatever provider is
found under an issuer verifies with the algorithm, the key and the issuer of some settings.
-/

namespace Gatehouse.Identity

open Token
open Effect (bind_eq_ok mapError_eq_ok)

/-! ## Issuers without the slashes at their end -/

theorem normalizeIssuer_idempotent (issuer : String) :
    normalizeIssuer (normalizeIssuer issuer) = normalizeIssuer issuer := by
  simp only [normalizeIssuer, String.toList_ofList, Text.dropTrailing_idempotent]

/-- Two issuers are the same but for the slashes at their ends. -/
def SameIssuer (a b : String) : Prop :=
  ∃ core m n, a.toList = core ++ List.replicate m '/' ∧ b.toList = core ++ List.replicate n '/'

theorem normalizeIssuer_eq_iff {a b : String} :
    normalizeIssuer a = normalizeIssuer b ↔ SameIssuer a b := by
  rw [normalizeIssuer, normalizeIssuer, String.ofList_inj]
  exact Text.dropTrailing_eq_dropTrailing_iff

/-! ## Providers -/

/-- The provider is that of the settings. -/
structure Provider.Configured (config : ProviderConfig) (p : Provider) : Prop where
  algorithm : Algorithm.ofName? config.algorithm = some p.validation.algorithm
  key : loadKey p.name p.validation.algorithm config = .ok p.key
  issuer : p.issuer = normalizeIssuer config.issuer
  issuers : p.validation.issuers = [p.issuer, p.issuer ++ "/"]
  leeway : p.validation.leeway = 300
  audience : p.validation.audience = config.audience
  groupClaim : p.groupClaim = config.groupClaim
  defaultGroup : p.defaultGroup = config.defaultGroup

theorem Provider.configured_of_ofConfig {name : String} {config : ProviderConfig} {p : Provider}
    (h : Provider.ofConfig name config = .ok p) : p.name = name ∧ p.Configured config := by
  rw [Provider.ofConfig] at h
  cases halgorithm : Algorithm.ofName? config.algorithm with
  | none =>
      rw [halgorithm] at h
      cases h
  | some algorithm =>
      rw [halgorithm] at h
      obtain ⟨key, hkey, ⟨rfl⟩⟩ := bind_eq_ok.mp h
      exact ⟨rfl, halgorithm, hkey, rfl, rfl, rfl, rfl, rfl, rfl⟩

/-- What a provider accepts has been shown to it. -/
theorem Provider.verifyWith_eq_ok {check : SignatureCheck} {p : Provider} {now : Nat}
    {token : String} {payload : Json} :
    p.verifyWith check now token = .ok payload ↔
      ∃ parts claims, Verified check p.validation p.key now token parts payload claims := by
  rw [Provider.verifyWith, mapError_eq_ok, Token.verifyWith_eq_ok]

/-! ## Tables of issuers -/

inductive Issuers.Loaded : Issuers → Prop where
  | empty : Loaded []
  | insert {issuers : Issuers} {name : String} {config : ProviderConfig} {p : Provider}
      (h : Loaded issuers) (made : Provider.ofConfig name config = .ok p) :
      Loaded (issuers.insert p)

/-- The providers of a registry make such a table. -/
theorem Registry.loaded_loadAll (registry : Registry) (category : String) :
    (registry.loadAll category).1.Loaded := by
  rw [loadAll]
  refine List.foldlRecOn (motive := fun found : Issuers × Log => found.1.Loaded) _ _ .empty ?_
  rintro ⟨issuers, log⟩ hissuers name -
  cases hload : registry.load name with
  | error e => exact hissuers
  | ok provider =>
      rw [load] at hload
      cases hconfig : Table.get? name registry with
      | none =>
          rw [hconfig] at hload
          cases hload
      | some config =>
          rw [hconfig] at hload
          exact .insert hissuers hload

/-- What is found under an issuer is the provider of that issuer. -/
theorem Issuers.Loaded.provider {issuers : Issuers} (h : issuers.Loaded) {issuer : String}
    {p : Provider} (hfound : issuers.get? issuer = some p) :
    p.issuer = normalizeIssuer issuer ∧ ∃ config, p.Configured config := by
  induction h with
  | empty => cases hfound
  | @insert issuers name config made _ hmade ih =>
      obtain ⟨-, hconfigured⟩ := Provider.configured_of_ofConfig hmade
      rw [Issuers.get?, Issuers.insert] at hfound
      have hnormal : normalizeIssuer made.issuer = made.issuer := by
        rw [hconfigured.issuer, normalizeIssuer_idempotent]
      by_cases hsame : normalizeIssuer issuer = normalizeIssuer made.issuer
      · rw [hsame, Table.get?_insert_self] at hfound
        obtain rfl : made = p := Option.some.inj hfound
        exact ⟨(hsame.trans hnormal).symm, config, hconfigured⟩
      · rw [Table.get?_insert_of_ne hsame] at hfound
        exact ih hfound

end Gatehouse.Identity
