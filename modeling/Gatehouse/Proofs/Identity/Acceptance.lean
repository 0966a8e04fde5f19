import Gatehouse.Proofs.Identity.Audience

/-!
# Whose tokens a provider accepts

A provider is found under its issuer whatever slashes stand at the end of it.  It accepts that
issuer in a token only with one slash at the end or none, so a token may lead to the provider of its
issuer and be refused by it over the issuer.
-/

namespace Gatehouse.Identity

open Token

/-! ## Tokens of an issuer -/

/-- The token is of the issuer, and a validation has nothing else to ask of it: it is signed by the
key, it has not expired, and as far as it names audiences it is for the expected one. -/
structure Issued (check : SignatureCheck) (v : Validation) (key : List UInt8) (now : Nat)
    (token : String) (parts : Parts) (payload : Json) (claims : Claims) (issuer : String) : Prop
    extends Signed check token parts v.algorithm key where
  read : parts.claims = .ok (payload, claims)
  issuer : payload.field? "iss" = some (.str issuer)
  expires : ∃ expires, claims.expires = some expires ∧ v.earliestEnd now ≤ expires
  audience : ∀ audience audiences, v.audience = some audience →
    claims.audiences = some audiences → audience ∈ audiences

section

variable {check : SignatureCheck} {v : Validation} {key : List UInt8} {now : Nat} {token : String}
  {parts : Parts} {payload : Json} {claims : Claims} {issuer : String}

theorem Issued.issuers (h : Issued check v key now token parts payload claims issuer) :
    claims.issuers = some [issuer] := by
  rw [claims_eq_ofPayload h.read, (ofPayload_of_field h.issuer).2, h.issuer]
  rfl

/-- The claims of such a token pass if its issuer is accepted. -/
theorem Issued.check_eq (h : Issued check v key now token parts payload claims issuer) :
    v.check now claims = if issuer ∈ v.issuers then .ok () else .error .invalidIssuer := by
  rw [Validation.check_eq, Validation.checkExpiry_eq_ok.mpr h.expires]
  change (v.checkIssuer claims >>= fun _ => v.checkAudience claims) = _
  rw [Validation.checkAudience_eq_ok.mpr h.audience, Validation.checkIssuer, h.issuers]
  by_cases hmem : issuer ∈ v.issuers
  · simp [hmem]
  · simp only [List.any_cons, List.any_nil, List.contains_eq_mem, hmem]
    rfl

theorem Issued.verifyWith_eq (h : Issued check v key now token parts payload claims issuer) :
    Token.verifyWith check v key now token =
      if issuer ∈ v.issuers then .ok payload else .error .invalidIssuer := by
  rw [verifyWith_of_signed h.toSigned h.read, h.check_eq]
  split
  · rfl
  · rfl

/-! ## The provider of the issuer -/

variable {name : String} {config : ProviderConfig} {p : Provider}

/-- A provider accepts its issuer unless two slashes stand at the end of it. -/
theorem Provider.accepts_iff (made : Provider.ofConfig name config = .ok p)
    (hsame : SameIssuer config.issuer issuer) :
    issuer ∈ p.validation.issuers ↔ ¬ ['/', '/'] <:+ issuer.toList := by
  obtain ⟨-, hconfigured⟩ := Provider.configured_of_ofConfig made
  obtain ⟨n, hn, hlast⟩ := Text.exists_replicate_dropTrailing '/' issuer.toList
  generalize hcore : Text.dropTrailing '/' issuer.toList = core at hn hlast
  have hissuer : p.issuer = String.ofList core := by
    rw [hconfigured.issuer, normalizeIssuer_eq_iff.mpr hsame, normalizeIssuer, hcore]
  -- Both accepted texts have the same core, so only the slashes behind it tell them apart.
  have hplain : issuer = p.issuer ↔ n = 0 := by
    rw [hissuer, ← String.toList_inj, String.toList_ofList, hn]
    simp
  have hslash : issuer = p.issuer ++ "/" ↔ n = 1 := by
    rw [hissuer, ← String.toList_inj, String.toList_append, String.toList_ofList, hn]
    change core ++ _ = core ++ List.replicate 1 '/' ↔ _
    rw [List.append_cancel_left_eq, List.replicate_left_inj]
  rw [hconfigured.issuers, List.mem_cons, List.mem_singleton, hplain, hslash, hn,
    Text.pair_suffix_iff hlast]
  omega

theorem Provider.verifyWith_of_issued (made : Provider.ofConfig name config = .ok p)
    (h : Issued check p.validation p.key now token parts payload claims issuer)
    (hsame : SameIssuer config.issuer issuer) :
    p.verifyWith check now token =
      if ['/', '/'] <:+ issuer.toList then .error (.verification "InvalidIssuer")
      else .ok payload := by
  rw [Provider.verifyWith, h.verifyWith_eq]
  by_cases hslashes : ['/', '/'] <:+ issuer.toList
  · rw [if_pos hslashes, if_neg fun hmem => (Provider.accepts_iff made hsame).mp hmem hslashes]
    rfl
  · rw [if_neg hslashes, if_pos ((Provider.accepts_iff made hsame).mpr hslashes)]
    rfl

/-- A provider is found under its issuer, whatever slashes stand at the end of it. -/
theorem Issuers.get?_insert_of_sameIssuer (made : Provider.ofConfig name config = .ok p)
    (hsame : SameIssuer config.issuer issuer) (issuers : Issuers) :
    (issuers.insert p).get? issuer = some p := by
  rw [Issuers.get?, Issuers.insert, ← normalizeIssuer_eq_iff.mpr hsame,
    (Provider.configured_of_ofConfig made).2.issuer, normalizeIssuer_idempotent]
  exact Table.get?_insert_self _ _ _

end

/-! ## A token of the issuer as it is configured -/

/-- The slashes at the end of the issuer make no difference to a provider. -/
theorem ofConfig_of_sameIssuer {config : ProviderConfig} {issuer : String}
    (h : SameIssuer config.issuer issuer) (name : String) :
    Provider.ofConfig name { config with issuer } = Provider.ofConfig name config := by
  unfold Provider.ofConfig
  rw [normalizeIssuer_eq_iff.mpr h]
  rfl

def slashedSettings : ProviderConfig :=
  { sharedSettings none with issuer := "https://idp.example.org//" }

theorem slashedSettings_made :
    Provider.ofConfig "P" slashedSettings = .ok (sharedProvider none) := by
  have hsame : SameIssuer (sharedSettings none).issuer "https://idp.example.org//" :=
    ⟨"https://idp.example.org".toList, 1, 2, rfl, rfl⟩
  exact (ofConfig_of_sameIssuer hsame "P").trans (sharedProvider_made none)

def slashedPayload : Json :=
  .obj [("exp", .int 4102444800), ("iss", .str slashedSettings.issuer), ("sub", .str "0001")]

def slashedToken : String := sign .hs256 (Text.Utf8.encode "secret") slashedPayload

theorem slashedToken_issued : ∃ parts payload claims, Issued checkSignature
    (sharedProvider none).validation (sharedProvider none).key 1800000000 slashedToken parts
    payload claims slashedSettings.issuer := by
  let parts := signedParts .hs256 (Text.Utf8.encode "secret") slashedPayload
  have hread : parts.claims.toOption.map (fun read =>
      (read.2.expires, read.2.audiences, (read.1.field? "iss").bind Json.str?)) =
      some (some 4102444800, none, some slashedSettings.issuer) := by
    decide +kernel
  cases hclaims : parts.claims with
  | error e =>
      rw [hclaims] at hread
      cases hread
  | ok read =>
      rw [hclaims] at hread
      have hread := Option.some.inj hread
      simp only [Prod.mk.injEq] at hread
      obtain ⟨hexpires, haudiences, hissuer⟩ := hread
      refine ⟨parts, read.1, read.2, signed_sign rfl _ _, hclaims, text_of_field.mp hissuer,
        ⟨_, hexpires, by decide⟩, fun _ _ hnone => ?_⟩
      cases hnone

/-! ## What is accepted -/

/-- A token of a provider's issuer leads to the provider, however many slashes stand at the end of
the issuer; the provider accepts it if there are fewer than two, and refuses it over its issuer
otherwise. -/
theorem issuer_is_accepted_up_to_one_slash {check : SignatureCheck} {now : Nat} {token : String}
    {parts : Parts} {payload : Json} {claims : Claims} {issuer name : String}
    {config : ProviderConfig} {p : Provider} (made : Provider.ofConfig name config = .ok p)
    (h : Issued check p.validation p.key now token parts payload claims issuer)
    (hsame : SameIssuer config.issuer issuer) :
    (∀ issuers : Issuers, (issuers.insert p).get? issuer = some p) ∧
      p.verifyWith check now token =
        if ['/', '/'] <:+ issuer.toList then .error (.verification "InvalidIssuer")
        else .ok payload :=
  ⟨Issuers.get?_insert_of_sameIssuer made hsame, Provider.verifyWith_of_issued made h hsame⟩

/-- A token of an issuer with no slash at its end is accepted. -/
theorem plainToken_passes_slashed_provider :
    Provider.ofConfig "P" slashedSettings = .ok (sharedProvider none) ∧
      SameIssuer slashedSettings.issuer "https://idp.example.org" ∧
      ∃ payload claims, Issued checkSignature (sharedProvider none).validation
          (sharedProvider none).key 1800000000 plainToken plainParts payload claims
          "https://idp.example.org" ∧
        (sharedProvider none).verify 1800000000 plainToken = .ok payload := by
  have hsame : SameIssuer slashedSettings.issuer "https://idp.example.org" :=
    ⟨"https://idp.example.org".toList, 2, 0, rfl, rfl⟩
  obtain ⟨payload, claims, hverified, -, hissuer, -⟩ := plainToken_verified
  have hplain := hverified none
  have hissued : Issued checkSignature (sharedProvider none).validation (sharedProvider none).key
      1800000000 plainToken plainParts payload claims "https://idp.example.org" :=
    ⟨hplain.toSigned, hplain.read, text_of_field.mp hissuer, hplain.inOrder.expires,
      hplain.inOrder.audience⟩
  have haccepted := (issuer_is_accepted_up_to_one_slash slashedSettings_made hissued hsame).2
  rw [if_neg (by decide +kernel)] at haccepted
  exact ⟨slashedSettings_made, hsame, payload, claims, hissued, haccepted⟩

/-- The provider of an issuer refuses a token that names the issuer as it is configured. -/
theorem slashedToken_is_refused_by_its_provider : ∃ p,
    Provider.ofConfig "P" slashedSettings = .ok p ∧
      (Issuers.insert [] p).get? slashedSettings.issuer = some p ∧
      (∃ parts payload claims, Issued checkSignature p.validation p.key 1800000000 slashedToken
        parts payload claims slashedSettings.issuer) ∧
      p.verify 1800000000 slashedToken = .error (.verification "InvalidIssuer") := by
  obtain ⟨parts, payload, claims, hissued⟩ := slashedToken_issued
  have hsame : SameIssuer slashedSettings.issuer slashedSettings.issuer :=
    normalizeIssuer_eq_iff.mp rfl
  have hrefused := Provider.verifyWith_of_issued slashedSettings_made hissued hsame
  rw [if_pos (by decide +kernel)] at hrefused
  exact ⟨_, slashedSettings_made,
    Issuers.get?_insert_of_sameIssuer slashedSettings_made hsame [],
    ⟨parts, payload, claims, hissued⟩, hrefused⟩

end Gatehouse.Identity
