import Gatehouse.Proofs.Identity.Issuers
import Gatehouse.Proofs.Token.Registered
import Gatehouse.Proofs.Token.Signing

/-!
# Expected audiences

A provider may be told which audience its tokens are for.  That narrows what it accepts, but only
among the tokens that name an audience: a token that names none passes as if none were expected.
-/

namespace Gatehouse.Identity

open Token
open Effect (bind_eq_ok)

/-! ## What an audience changes -/

def expecting (audience : Option String) (v : Validation) : Validation := { v with audience }

/-- Tokens are verified against an expected audience as without it, and then by their audiences. -/
theorem verified_expecting {check : SignatureCheck} {v : Validation} {key : List UInt8} {now : Nat}
    {token : String} {parts : Parts} {payload : Json} {claims : Claims}
    {audience : Option String} :
    Verified check (expecting audience v) key now token parts payload claims ↔
      Verified check (expecting none v) key now token parts payload claims ∧
        ∀ expected names, audience = some expected → claims.audiences = some names →
          expected ∈ names := by
  constructor
  · intro h
    have hinOrder : claims.InOrder (expecting none v) now :=
      ⟨h.inOrder.expires, h.inOrder.issuer, fun _ _ hnone => nomatch hnone⟩
    exact ⟨⟨h.toSigned, h.read, hinOrder⟩, h.inOrder.audience⟩
  · rintro ⟨h, haudience⟩
    exact ⟨h.toSigned, h.read, ⟨h.inOrder.expires, h.inOrder.issuer, haudience⟩⟩

/-- Without its audience a provider is that of the settings without theirs. -/
theorem ofConfig_expecting_none {name : String} {config : ProviderConfig} {p : Provider}
    (made : Provider.ofConfig name config = .ok p) :
    Provider.ofConfig name { config with audience := none } =
      .ok { p with validation := expecting none p.validation } := by
  rw [Provider.ofConfig] at made ⊢
  cases halgorithm : Algorithm.ofName? config.algorithm with
  | none =>
      rw [halgorithm] at made
      cases made
  | some algorithm =>
      simp only [halgorithm] at made ⊢
      obtain ⟨key, hkey, ⟨rfl⟩⟩ := bind_eq_ok.mp made
      exact bind_eq_ok.mpr ⟨key, hkey, rfl⟩

/-! ## A token that names no audience -/

def sharedSettings (audience : Option String) : ProviderConfig where
  issuer := "https://idp.example.org/"
  secret := some "secret"
  audience

def sharedProvider (audience : Option String) : Provider where
  name := "P"
  issuer := "https://idp.example.org"
  key := Text.Utf8.encode "secret"
  validation := {
    algorithm := .hs256
    leeway := 300
    issuers := ["https://idp.example.org", "https://idp.example.org/"]
    audience }
  groupClaim := "groups"
  defaultGroup := none

theorem sharedProvider_made (audience : Option String) :
    Provider.ofConfig "P" (sharedSettings audience) = .ok (sharedProvider audience) := by
  have hissuer : normalizeIssuer "https://idp.example.org/" = "https://idp.example.org" := rfl
  change Except.ok { sharedProvider audience with
    issuer := normalizeIssuer "https://idp.example.org/"
    validation := { (sharedProvider audience).validation with
      issuers := [normalizeIssuer "https://idp.example.org/",
        normalizeIssuer "https://idp.example.org/" ++ "/"] } } = _
  rw [hissuer]
  rfl

/-- A payload for one subject until the year 2100, without an audience. -/
def plainPayload : Json :=
  .obj [("exp", .int 4102444800), ("groups", Json.ofStrings ["lhcb_user"]),
    ("iss", .str "https://idp.example.org"), ("sub", .str "0001")]

def plainToken : String := sign .hs256 (Text.Utf8.encode "secret") plainPayload

def plainParts : Parts := signedParts .hs256 (Text.Utf8.encode "secret") plainPayload

/-- What is read of the payload: its claims, its issuer, and whose record it makes. -/
theorem plainParts_read : ∃ payload claims, plainParts.claims = .ok (payload, claims) ∧
    claims = { expires := some 4102444800, subject := some "0001",
               issuers := some ["https://idp.example.org"] } ∧
    (payload.field? "iss").bind Json.str? = some "https://idp.example.org" ∧
    ((sharedProvider none).resolveGroup payload).toOption.bind (·.id) = some "0001" := by
  have hread : plainParts.claims.toOption.map (fun read =>
      (read.2, (read.1.field? "iss").bind Json.str?,
        ((sharedProvider none).resolveGroup read.1).toOption.bind (·.id))) =
      some ({ expires := some 4102444800, subject := some "0001",
              issuers := some ["https://idp.example.org"] },
        some "https://idp.example.org", some "0001") := by
    decide +kernel
  cases hclaims : plainParts.claims with
  | error e =>
      rw [hclaims] at hread
      cases hread
  | ok read =>
      rw [hclaims] at hread
      have hboth := Option.some.inj hread
      simp only [Prod.mk.injEq] at hboth
      exact ⟨read.1, read.2, rfl, hboth⟩

/-- The token is genuine and in order, whatever audience is expected. -/
theorem plainToken_verified : ∃ payload claims,
    (∀ audience, Verified checkSignature (sharedProvider audience).validation
      (Text.Utf8.encode "secret") 1800000000 plainToken plainParts payload claims) ∧
    claims.audiences = none ∧
    (payload.field? "iss").bind Json.str? = some "https://idp.example.org" ∧
    ((sharedProvider none).resolveGroup payload).toOption.bind (·.id) = some "0001" := by
  obtain ⟨payload, claims, hread, hclaims, hissuer, hrecord⟩ := plainParts_read
  refine ⟨payload, claims, fun audience => ?_, by rw [hclaims], hissuer, hrecord⟩
  subst hclaims
  have hinTime : (sharedProvider audience).validation.earliestEnd 1800000000 ≤ 4102444800 := by
    change 1800000000 - 300 ≤ 4102444800
    decide
  refine ⟨signed_sign rfl _ _, hread, ⟨⟨4102444800, rfl, hinTime⟩, ?_, fun _ _ _ hnone => ?_⟩⟩
  · rintro _ ⟨rfl⟩
    exact ⟨_, List.mem_singleton_self _, List.mem_cons_self⟩
  · cases hnone

/-! ## What is accepted -/

/-- Where an audience is expected, a token is accepted if it is accepted without and, as far as it
names audiences, the expected one is among them. -/
theorem audience_is_checked_where_named {name : String} {config : ProviderConfig} {p : Provider}
    (made : Provider.ofConfig name config = .ok p) :
    ∃ unrestricted, Provider.ofConfig name { config with audience := none } = .ok unrestricted ∧
      ∀ check now token payload, p.verifyWith check now token = .ok payload ↔
        unrestricted.verifyWith check now token = .ok payload ∧
          ∀ expected names, config.audience = some expected →
            (Claims.ofPayload payload).audiences = some names → expected ∈ names := by
  have haudience := (Provider.configured_of_ofConfig made).2.audience
  have hvalidation : p.validation = expecting config.audience p.validation := by
    rw [expecting, ← haudience]
  refine ⟨_, ofConfig_expecting_none made, fun check now token payload => ?_⟩
  rw [Provider.verifyWith_eq_ok, Provider.verifyWith_eq_ok, hvalidation]
  constructor
  · rintro ⟨parts, claims, h⟩
    obtain rfl := claims_eq_ofPayload h.read
    obtain ⟨hverified, hnamed⟩ := verified_expecting.mp h
    exact ⟨⟨parts, _, hverified⟩, hnamed⟩
  · rintro ⟨⟨parts, claims, h⟩, hnamed⟩
    obtain rfl := claims_eq_ofPayload h.read
    exact ⟨parts, _, verified_expecting.mpr ⟨h, hnamed⟩⟩

/-- A token that names no audience passes as if none were expected. -/
theorem plainToken_passes_as_unrestricted : ∃ payload,
    Provider.ofConfig "P" (sharedSettings (some "hermes")) = .ok (sharedProvider (some "hermes")) ∧
      (sharedProvider none).verify 1800000000 plainToken = .ok payload ∧
      (sharedProvider (some "hermes")).verify 1800000000 plainToken = .ok payload := by
  obtain ⟨payload, claims, hverified, haudiences, -⟩ := plainToken_verified
  have hopen : (sharedProvider none).verify 1800000000 plainToken = .ok payload :=
    Provider.verifyWith_eq_ok.mpr ⟨plainParts, claims, hverified none⟩
  obtain ⟨unrestricted, hmade, hiff⟩ :=
    audience_is_checked_where_named (sharedProvider_made (some "hermes"))
  obtain rfl : sharedProvider none = unrestricted :=
    Except.ok.inj ((sharedProvider_made none).symm.trans hmade)
  refine ⟨payload, sharedProvider_made _, hopen, (hiff _ _ _ _).mpr ⟨hopen, ?_⟩⟩
  intro _ names _ hnames
  rw [← claims_eq_ofPayload (hverified none).read, haudiences] at hnames
  cases hnames

/-- An audience is expected, and a token that names none is accepted. -/
theorem plainToken_passes_unaddressed : ∃ p payload,
    Provider.ofConfig "P" (sharedSettings (some "hermes")) = .ok p ∧
      p.verify 1800000000 plainToken = .ok payload ∧
      (Claims.ofPayload payload).audiences = none := by
  obtain ⟨payload, claims, hverified, haudiences, -⟩ := plainToken_verified
  refine ⟨_, payload, sharedProvider_made (some "hermes"), ?_, ?_⟩
  · exact Provider.verifyWith_eq_ok.mpr ⟨plainParts, claims, hverified (some "hermes")⟩
  · rw [← claims_eq_ofPayload (hverified none).read]
    exact haudiences

end Gatehouse.Identity
