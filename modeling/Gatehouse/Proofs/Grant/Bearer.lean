import Gatehouse.Grant.Basic
import Gatehouse.Proofs.Http.Header
import Gatehouse.Proofs.Identity.Groups

/-!
# What a bearer token vouches for

A token is read twice: once to find the provider of the issuer that it names, when nothing of it may
be believed, and once by that provider.  Both readings are of the same token, so the record that
comes out is that of a token which the provider of its own issuer has found genuine.
-/

namespace Gatehouse.Grant

open Identity Token
open Effect (bind_eq_ok)

/-! ## Headers that bear a token -/

/-- The first authorization header is two words, the first of which is `bearer` in any case and the
second of which is the token. -/
def Bears (c : GrantContext) (token : String) : Prop :=
  ∃ value scheme, c.headers.text? "authorization" = some value ∧
    Text.words value = [scheme, token] ∧ Text.sameIgnoringCase scheme "bearer" = true

theorem accessToken_eq_ok {c : GrantContext} {token : String} :
    accessToken c = .ok token ↔ Bears c token := by
  rw [accessToken]
  constructor
  · intro h
    cases hvalue : c.headers.text? "authorization" with
    | none =>
        rw [hvalue] at h
        cases h
    | some value =>
        simp only [hvalue] at h
        split at h
        · next scheme token' hwords =>
            split at h
            · next hscheme =>
                cases h
                exact ⟨value, scheme, hvalue, hwords, hscheme⟩
            · cases h
        · cases h
  · rintro ⟨value, scheme, hvalue, hwords, hscheme⟩
    simp only [hvalue, hwords, hscheme, if_true]

/-- A header with a token in it bears the token. -/
theorem bears_of_header {c : GrantContext} {token : String} (hne : token ≠ "")
    (htoken : ∀ ch ∈ token.toList, 32 < ch.toNat ∧ ch.toNat < 127)
    (hheader : c.headers.get? "authorization" = some (Text.Utf8.encode ("Bearer " ++ token))) :
    Bears c token := by
  have hchars : ("Bearer " ++ token).toList = "Bearer".toList ++ ' ' :: token.toList := by
    rw [String.toList_append]
    rfl
  have hscheme : ∀ ch ∈ ['B', 'e', 'a', 'r', 'e', 'r'], 32 < ch.toNat ∧ ch.toNat < 127 := by simp
  refine ⟨"Bearer " ++ token, "Bearer", ?_, ?_, by decide⟩
  · rw [Http.Headers.text?, hheader, Option.bind_some]
    apply Http.visibleText?_encode
    rw [hchars, List.forall_mem_append, List.forall_mem_cons]
    exact ⟨fun ch hmem => ⟨(hscheme ch hmem).1.le, (hscheme ch hmem).2⟩, by decide,
      fun ch hmem => ⟨(htoken ch hmem).1.le, (htoken ch hmem).2⟩⟩
  · have hscheme' : ∀ ch ∈ "Bearer".toList, Text.isBlank ch = false :=
      fun ch hmem => Text.isBlank_of_visible (hscheme ch hmem)
    have htoken' : ∀ ch ∈ token.toList, Text.isBlank ch = false :=
      fun ch hmem => Text.isBlank_of_visible (htoken ch hmem)
    have hlast : Text.HasWords token.toList [token.toList] :=
      .single (by simpa using hne) htoken'
    have hblank : ∀ ch ∈ (' ' :: token.toList).head?, Text.isBlank ch = true := by
      rintro _ ⟨rfl⟩
      decide
    have hscheme_ne : "Bearer".toList ≠ [] := by decide
    have hwords : Text.HasWords ("Bearer ".toList ++ token.toList)
        ["Bearer".toList, token.toList] :=
      .word hscheme_ne hscheme' hblank (.blank (by decide) hlast)
    rw [Text.words, String.toList_append, Text.wordsChars_eq_iff.mpr hwords]
    simp only [List.map_cons, List.map_nil, String.ofList_toList]

/-! ## Tokens and their providers -/

/-- The issuer that a token names, whoever has signed it. -/
structure Names (token : String) (issuer : String) (parts : Parts) (header : Header)
    (payload : Json) (claims : Claims) : Prop where
  header : readHeader token = .ok (parts, header)
  read : parts.claims = .ok (payload, claims)
  issuer : payload.field? "iss" = some (.str issuer)

theorem readUnverified_eq_ok {token : String} {payload : Json} :
    readUnverified token = .ok payload ↔ ∃ parts header claims,
      readHeader token = .ok (parts, header) ∧ parts.claims = .ok (payload, claims) := by
  rw [readUnverified]
  constructor
  · intro h
    obtain ⟨⟨parts, header⟩, hheader, h⟩ := bind_eq_ok.mp h
    obtain ⟨⟨read, claims⟩, hread, ⟨rfl⟩⟩ := bind_eq_ok.mp h
    exact ⟨parts, header, claims, hheader, hread⟩
  · rintro ⟨parts, header, claims, hheader, hread⟩
    exact bind_eq_ok.mpr ⟨_, hheader, bind_eq_ok.mpr ⟨_, hread, rfl⟩⟩

theorem unverifiedIssuer_eq_ok {token normal : String} :
    unverifiedIssuer token = .ok normal ↔ ∃ issuer parts header payload claims,
      Names token issuer parts header payload claims ∧ normal = normalizeIssuer issuer := by
  rw [unverifiedIssuer]
  constructor
  · intro h
    cases hread : readUnverified token with
    | error e =>
        rw [hread] at h
        cases h
    | ok payload =>
        simp only [hread] at h
        obtain ⟨parts, header, claims, hheader, hclaims⟩ := readUnverified_eq_ok.mp hread
        cases hissuer : (payload.field? "iss").bind Json.str? with
        | none =>
            simp only [hissuer] at h
            cases h
        | some issuer =>
            simp only [hissuer] at h
            cases h
            exact ⟨issuer, parts, header, payload, claims,
              ⟨hheader, hclaims, text_of_field.mp hissuer⟩, rfl⟩
  · rintro ⟨issuer, parts, header, payload, claims, h, rfl⟩
    have hread : readUnverified token = .ok payload :=
      readUnverified_eq_ok.mpr ⟨parts, header, claims, h.header, h.read⟩
    simp only [hread, h.issuer, Option.bind_some, Json.str?]

/-- What stands behind a record: a provider, the settings it was made from, and what it has read of
a token. -/
structure Evidence where
  provider : Provider
  config : ProviderConfig
  issuer : String
  parts : Parts
  payload : Json
  claims : Claims

/-- The token is vouched for by the provider of the issuer that it names, and the record is that of
its payload. -/
structure Vouched (check : SignatureCheck) (c : GrantContext) (token : String)
    (record : Credential) (d : Evidence) : Prop where
  configured : d.provider.Configured d.config
  found : c.issuers.get? d.issuer = some d.provider
  verified : Verified check d.provider.validation d.provider.key c.now token d.parts d.payload
    d.claims
  issuer : d.payload.field? "iss" = some (.str d.issuer)
  record : d.provider.resolveGroup d.payload = .ok record

theorem bearerWith_eq_ok {check : SignatureCheck} {c : GrantContext}
    (hissuers : c.issuers.Loaded) {record : Credential} :
    (bearerWith check).authenticate c = .ok record ↔
      ∃ token d, Bears c token ∧ Vouched check c token record d := by
  constructor
  · intro h
    obtain ⟨token, htoken, h⟩ := bind_eq_ok.mp h
    obtain ⟨normal, hnormal, h⟩ := bind_eq_ok.mp h
    obtain ⟨issuer, parts, header, payload, claims, hnames, rfl⟩ :=
      unverifiedIssuer_eq_ok.mp hnormal
    cases hfound : c.issuers.get? (normalizeIssuer issuer) with
    | none =>
        simp only [hfound] at h
        cases h
    | some p =>
        simp only [hfound] at h
        obtain ⟨payload', hverify, hrecord⟩ := bind_eq_ok.mp h
        obtain ⟨parts', claims', hverified⟩ := Provider.verifyWith_eq_ok.mp hverify
        -- Both readings are of the one token, so they have read the same.
        obtain ⟨rfl, -⟩ : parts = parts' ∧ header = ⟨p.validation.algorithm⟩ := by
          have hsame := hnames.header.symm.trans hverified.header
          simpa using hsame
        obtain ⟨rfl, rfl⟩ : payload = payload' ∧ claims = claims' := by
          have hsame := hnames.read.symm.trans hverified.read
          simpa using hsame
        obtain ⟨-, config, hconfigured⟩ := hissuers.provider hfound
        rw [Issuers.get?, normalizeIssuer_idempotent] at hfound
        exact ⟨token, ⟨p, config, issuer, parts, payload, claims⟩, accessToken_eq_ok.mp htoken,
          hconfigured, hfound, hverified, hnames.issuer, hrecord⟩
  · rintro ⟨token, d, htoken, h⟩
    have hnames :
        Names token d.issuer d.parts ⟨d.provider.validation.algorithm⟩ d.payload d.claims :=
      ⟨h.verified.header, h.verified.read, h.issuer⟩
    have hnormal : unverifiedIssuer token = .ok (normalizeIssuer d.issuer) :=
      unverifiedIssuer_eq_ok.mpr ⟨_, _, _, _, _, hnames, rfl⟩
    have hverify : d.provider.verifyWith check c.now token = .ok d.payload :=
      Provider.verifyWith_eq_ok.mpr ⟨_, _, h.verified⟩
    have hfound : c.issuers.get? (normalizeIssuer d.issuer) = some d.provider := by
      rw [Issuers.get?, normalizeIssuer_idempotent]
      exact h.found
    refine bind_eq_ok.mpr ⟨token, accessToken_eq_ok.mpr htoken, ?_⟩
    refine bind_eq_ok.mpr ⟨_, hnormal, ?_⟩
    simp only [hfound]
    exact bind_eq_ok.mpr ⟨_, hverify, h.record⟩

/-! ## Genuine records -/

/-- The record is that of a token which the provider of the token's own issuer has found genuine and
not expired; whatever is read of the token is read of the parts that its signature covers. -/
structure Genuine (check : SignatureCheck) (c : GrantContext) (token : String)
    (record : Credential) (d : Evidence) : Prop where
  /-- The provider stands in the table under the issuer of the token. -/
  found : Table.get? (normalizeIssuer d.issuer) c.issuers = some d.provider
  /-- The provider has the algorithm that its settings name, and the key that they hold. -/
  configured : d.provider.Configured d.config
  signed : Signed check token d.parts d.provider.validation.algorithm d.provider.key
  payload : d.parts.claims = .ok (d.payload, d.claims)
  unexpired : ∃ expires, (d.payload.field? "exp").bind secondsOf = some expires ∧
    c.now ≤ expires + 300
  issuer : d.payload.field? "iss" = some (.str d.issuer)
  /-- The issuer is that of the provider, also behind a slash. -/
  issued : d.issuer = d.provider.issuer ∨ d.issuer = d.provider.issuer ++ "/"
  resolved : d.provider.resolveGroup d.payload = .ok record
  subject : ∃ subject, d.payload.field? "sub" = some (.str subject) ∧ record.id = some subject

theorem Vouched.genuine {check : SignatureCheck} {c : GrantContext} {token : String}
    {record : Credential} {d : Evidence} (h : Vouched check c token record d) :
    Genuine check c token record d where
  found := h.found
  configured := h.configured
  signed := h.verified.toSigned
  payload := h.verified.read
  unexpired := by
    obtain ⟨expires, hexpires, hend⟩ := h.verified.inOrder.expires
    rw [claims_eq_ofPayload h.verified.read, (ofPayload_of_field h.issuer).1] at hexpires
    have hleeway := Validation.le_add_of_earliestEnd_le hend
    rw [h.configured.leeway] at hleeway
    exact ⟨expires, hexpires, hleeway⟩
  issuer := h.issuer
  issued := by
    have hissuers : d.claims.issuers = some [d.issuer] := by
      rw [claims_eq_ofPayload h.verified.read, (ofPayload_of_field h.issuer).2, h.issuer]
      rfl
    obtain ⟨issuer, hnamed, haccepted⟩ := h.verified.inOrder.issuer _ hissuers
    obtain rfl := List.mem_singleton.mp hnamed
    rw [h.configured.issuers] at haccepted
    simpa using haccepted
  resolved := h.record
  subject := (Provider.draws_of_resolveGroup h.record).subject

/-- A record comes out of a bearer token only if the token is genuine, however signatures are
checked. -/
theorem record_is_genuine {check : SignatureCheck} {c : GrantContext}
    (hissuers : c.issuers.Loaded) {record : Credential}
    (h : (bearerWith check).authenticate c = .ok record) :
    ∃ token d, Bears c token ∧ Genuine check c token record d := by
  obtain ⟨token, d, hbears, hvouched⟩ := (bearerWith_eq_ok hissuers).mp h
  exact ⟨token, d, hbears, hvouched.genuine⟩

def plainContext : GrantContext where
  headers := ⟨[("authorization", Text.Utf8.encode ("Bearer " ++ plainToken))]⟩
  arguments := []
  issuers := Issuers.insert [] (sharedProvider none)
  now := 1800000000

/-- The token of a subject makes the record of the subject. -/
theorem plainContext_is_genuine : plainContext.issuers.Loaded ∧ ∃ record,
    bearer.authenticate plainContext = .ok record ∧ record.id = some "0001" ∧
      ∃ token d, Bears plainContext token ∧
        Genuine checkSignature plainContext token record d := by
  have hissuers : plainContext.issuers.Loaded := .insert .empty (sharedProvider_made none)
  obtain ⟨payload, claims, hverified, -, hissuer, hid⟩ := plainToken_verified
  obtain ⟨record, hrecord, hid⟩ := Option.bind_eq_some_iff.mp hid
  have hresolved : (sharedProvider none).resolveGroup payload = .ok record := by
    cases hresolve : (sharedProvider none).resolveGroup payload with
    | error e =>
        rw [hresolve] at hrecord
        cases hrecord
    | ok record' =>
        rw [hresolve] at hrecord
        cases hrecord
        rfl
  have hbears : Bears plainContext plainToken :=
    bears_of_header (sign_ne_empty _ _ _) (visible_sign _ _ _) rfl
  have hvouched : Vouched checkSignature plainContext plainToken record
      ⟨sharedProvider none, sharedSettings none, "https://idp.example.org", plainParts, payload,
        claims⟩ :=
    { configured := (Provider.configured_of_ofConfig (sharedProvider_made none)).2
      found := Table.get?_insert_self _ _ _
      verified := hverified none
      issuer := text_of_field.mp hissuer
      record := hresolved }
  have hok : bearer.authenticate plainContext = .ok record :=
    (bearerWith_eq_ok hissuers).mpr ⟨plainToken, _, hbears, hvouched⟩
  exact ⟨hissuers, record, hok, hid, record_is_genuine hissuers hok⟩

end Gatehouse.Grant
