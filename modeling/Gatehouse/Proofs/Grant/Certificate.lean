import Gatehouse.Grant.Basic
import Gatehouse.Proofs.Effect
import Gatehouse.Proofs.Http.Header
import Gatehouse.Proofs.Json.Printed

/-!
# What the certificate grant trusts

The grant reads the chain of the connection, and nothing that a caller sends can change which chain
that is.  Only without one it reads the certificate that a front end has verified.  What a caller
adds to its record touches nothing else in it, and it cannot turn a refusal into a record.
-/

namespace Gatehouse

open Identity (GrantError)

namespace Credential

def adding (extra : Option Json) (record : Credential) : Credential :=
  { record with extra := extra <|> record.extra }

def bare (record : Credential) : Credential := { record with extra := none }

@[simp]
theorem bare_adding (extra : Option Json) (record : Credential) :
    (record.adding extra).bare = record.bare := rfl

end Credential

namespace Grant

/-! ## Chains -/

def Unverified (c : GrantContext) : Prop :=
  ∀ chain, c.peerCertificates = some chain → chain = []

/-- A front end reports that it verified the client, and passes on a certificate that can be
seen. -/
structure Presents (headers : Http.Headers) (certificate : List UInt8) : Prop where
  verified : headers.get? verifyHeader = some (Text.Utf8.encode "SUCCESS")
  passed : headers.get? certificateHeader = some certificate
  filled : certificate ≠ []
  visible : ∀ b ∈ certificate, Http.isVisibleByte b = true

theorem presents_iff {headers : Http.Headers} {certificate : List UInt8} :
    Presents headers certificate ↔ ∃ text, headers.text? verifyHeader = some "SUCCESS" ∧
      headers.text? certificateHeader = some text ∧ text ≠ "" ∧
        certificate = Text.Utf8.encode text := by
  simp only [Http.Headers.text?_eq_some]
  constructor
  · intro h
    have hascii : ∀ b ∈ certificate, b.toNat < 128 := fun b hb => by
      have hbounds := Http.isVisibleByte_iff.mp (h.visible b hb)
      omega
    have hbytes := Text.Utf8.encode_ascii hascii
    refine ⟨_, ⟨h.verified, by decide +kernel⟩, ?_, ?_, hbytes.symm⟩
    · rw [hbytes]
      exact ⟨h.passed, h.visible⟩
    · intro hempty
      rw [hempty] at hbytes
      exact h.filled hbytes.symm
  · rintro ⟨text, ⟨hverified, -⟩, ⟨hpassed, hvisible⟩, hfilled, rfl⟩
    exact ⟨hverified, hpassed, fun hnil => hfilled (Text.Utf8.encode_injective hnil), hvisible⟩

theorem chainText_of_verified {c : GrantContext} {chain : List String}
    (h : c.peerCertificates = some chain) (hne : chain ≠ []) :
    chainText c = .ok (String.join chain) := by
  obtain ⟨first, rest, rfl⟩ := List.exists_cons_of_ne_nil hne
  rw [chainText, GrantContext.verifiedChain, h]

theorem verifiedChain_eq_none {c : GrantContext} (h : Unverified c) : c.verifiedChain = none := by
  rw [GrantContext.verifiedChain]
  split
  · next first rest hchain => cases h _ hchain
  · rfl

/-- The certificate that is passed on is read without its escapes. -/
theorem chainText_of_presents {c : GrantContext} (h : Unverified c) {certificate : List UInt8}
    (hpresents : Presents c.headers certificate) :
    chainText c = (Text.Utf8.decode (Http.percentDecode certificate)).mapError
      fun fault => .certificateInvalid fault.message := by
  obtain ⟨text, hverified, hpassed, hfilled, rfl⟩ := presents_iff.mp hpresents
  simp only [chainText, verifiedChain_eq_none h, hverified, hpassed, String.isEmpty_iff, hfilled,
    if_false]

/-- Without both headers there is no certificate. -/
theorem chainText_of_not_presents {c : GrantContext} (h : Unverified c)
    (hpresents : ∀ certificate, ¬ Presents c.headers certificate) :
    chainText c = .error .certificateNotFound := by
  simp only [chainText, verifiedChain_eq_none h]
  split
  · next text hverified hpassed =>
      by_cases hfilled : text = ""
      · rw [if_pos (String.isEmpty_iff.mpr hfilled)]
      · exact absurd (presents_iff.mpr ⟨text, hverified, hpassed, hfilled, rfl⟩) (hpresents _)
  · rfl

/-! ## What a caller adds -/

/-- What a caller adds to its record by an argument: the value that a text denotes, or the text
itself where it denotes none, and nothing where there is nothing to add. -/
inductive Adds (arguments : Json.Object) : Option Json → Prop where
  | missing (h : Table.get? Arguments.extraCredentialsName arguments = none) :
      Adds arguments none
  | null (h : Table.get? Arguments.extraCredentialsName arguments = some .null) :
      Adds arguments none
  | blank (h : Table.get? Arguments.extraCredentialsName arguments = some (.str "")) :
      Adds arguments none
  | denoted {text : String} {value : Json}
      (h : Table.get? Arguments.extraCredentialsName arguments = some (.str text))
      (hfilled : text ≠ "") (hread : Json.readText text = .ok value) : Adds arguments (some value)
  | text {text : String}
      (h : Table.get? Arguments.extraCredentialsName arguments = some (.str text))
      (hfilled : text ≠ "") (hread : ∀ value, Json.readText text ≠ .ok value) :
      Adds arguments (some (.str text))
  | value {value : Json}
      (h : Table.get? Arguments.extraCredentialsName arguments = some value)
      (hnull : value ≠ .null) (htext : ∀ text, value ≠ .str text) : Adds arguments (some value)

theorem adds_iff {c : GrantContext} {extra : Option Json} :
    Adds c.arguments extra ↔ extra = c.extraCredentials := by
  rw [GrantContext.extraCredentials]
  constructor
  · intro h
    cases h with
    | missing h => simp only [h]
    | null h => simp only [h]
    | blank h =>
        simp only [h]
        rfl
    | denoted h hfilled hread => simp [h, hfilled, hread]
    | @text text h hfilled hread =>
        cases hvalue : Json.readText text with
        | ok value => exact absurd hvalue (hread value)
        | error e => simp [h, hfilled, hvalue]
    | @value value h hnull htext =>
        cases value with
        | null => exact absurd rfl hnull
        | str text => exact absurd rfl (htext text)
        | _ => simp only [h]
  · rintro rfl
    split
    · next h => exact .missing h
    · next h => exact .null h
    · next text h =>
        split
        · next hempty =>
            rw [String.isEmpty_iff.mp hempty] at h
            exact .blank h
        · next hfilled =>
            rw [String.isEmpty_iff] at hfilled
            split
            · next value hread => exact .denoted h hfilled hread
            · next e hread =>
                refine .text h hfilled fun value hvalue => ?_
                rw [hread] at hvalue
                cases hvalue
    · next value hnull htext h => exact .value h hnull htext

/-! ## The grant -/

section

variable (read : String → Except GrantError Credential) {c : GrantContext}

/-- The grant makes the record of the chain and adds to it. -/
theorem authenticate_certificateWith (c : GrantContext) :
    (certificateWith read).authenticate c =
      (chainText c >>= read).map (Credential.adding c.extraCredentials) := by
  simp only [certificateWith]
  cases chainText c with
  | error e => rfl
  | ok chain =>
      change (read chain >>= _) = (read chain).map _
      cases read chain with
      | error e => rfl
      | ok record =>
          cases hextra : c.extraCredentials with
          | none => rfl
          | some extra => rfl

theorem authenticate_of_verified {chain : List String} (h : c.peerCertificates = some chain)
    (hne : chain ≠ []) : (certificateWith read).authenticate c =
      (read (String.join chain)).map (Credential.adding c.extraCredentials) := by
  rw [authenticate_certificateWith, chainText_of_verified h hne]
  rfl

theorem authenticate_of_presents (h : Unverified c) {certificate : List UInt8}
    (hpresents : Presents c.headers certificate) {text : String}
    (htext : Http.percentDecode certificate = Text.Utf8.encode text) :
    (certificateWith read).authenticate c =
      (read text).map (Credential.adding c.extraCredentials) := by
  rw [authenticate_certificateWith, chainText_of_presents h hpresents,
    Text.Utf8.decode_eq_ok.mpr htext]
  rfl

theorem authenticate_of_garbled (h : Unverified c) {certificate : List UInt8}
    (hpresents : Presents c.headers certificate)
    (hgarbled : ∀ text, Http.percentDecode certificate ≠ Text.Utf8.encode text) :
    ∃ reason, (certificateWith read).authenticate c = .error (.certificateInvalid reason) := by
  rw [authenticate_certificateWith, chainText_of_presents h hpresents]
  cases hdecode : Text.Utf8.decode (Http.percentDecode certificate) with
  | ok text => exact absurd (Text.Utf8.decode_eq_ok.mp hdecode) (hgarbled text)
  | error fault => exact ⟨fault.message, rfl⟩

theorem authenticate_of_not_presents (h : Unverified c)
    (hpresents : ∀ certificate, ¬ Presents c.headers certificate) :
    (certificateWith read).authenticate c = .error .certificateNotFound := by
  rw [authenticate_certificateWith, chainText_of_not_presents h hpresents]
  rfl

/-- But for what callers add, the chain alone decides what is answered. -/
theorem bare_authenticate (c : GrantContext) :
    ((certificateWith read).authenticate c).map Credential.bare =
      (chainText c >>= read).map Credential.bare := by
  rw [authenticate_certificateWith]
  cases chainText c >>= read with
  | error e => rfl
  | ok record => exact congrArg Except.ok (Credential.bare_adding _ record)

/-- The record is that of the chain which the connection has verified, whatever the headers are, or
without one that of the certificate which a front end reports as verified; otherwise there is none.
What a caller adds stands in one field of the record, and nothing else that is answered depends on
it. -/
theorem only_verified_chains_are_trusted (c : GrantContext) :
    let answer (c : GrantContext) := (certificateWith read).authenticate c
    ∃ extra, (∀ other, Adds c.arguments other ↔ other = extra) ∧
      (∀ chain, c.peerCertificates = some chain → chain ≠ [] →
        answer c = (read (String.join chain)).map (Credential.adding extra) ∧
          ∀ headers, answer { c with headers } = answer c) ∧
      (Unverified c →
        ((∀ certificate, ¬ Presents c.headers certificate) →
          answer c = .error .certificateNotFound) ∧
        ∀ certificate, Presents c.headers certificate →
          (∀ text, Http.percentDecode certificate = Text.Utf8.encode text →
            answer c = (read text).map (Credential.adding extra)) ∧
          ((∀ text, Http.percentDecode certificate ≠ Text.Utf8.encode text) →
            ∃ reason, answer c = .error (.certificateInvalid reason))) ∧
      ∀ arguments, (answer { c with arguments }).map Credential.bare =
        (answer c).map Credential.bare := by
  intro answer
  refine ⟨c.extraCredentials, fun other => adds_iff, fun chain hchain hne => ?_,
    fun hunverified => ⟨authenticate_of_not_presents read hunverified,
      fun certificate hpresents => ⟨fun text => authenticate_of_presents read hunverified hpresents,
        authenticate_of_garbled read hunverified hpresents⟩⟩, fun arguments => ?_⟩
  · have hchained := authenticate_of_verified read hchain hne
    refine ⟨hchained, fun headers => ?_⟩
    exact (authenticate_of_verified read (c := { c with headers }) hchain hne).trans hchained.symm
  · exact (bare_authenticate read { c with arguments }).trans (bare_authenticate read c).symm

end

/-- A request by way of a front end that has verified the client; its caller adds a list. -/
def forwardedContext : GrantContext where
  headers := ⟨[(verifyHeader, Text.Utf8.encode "SUCCESS"), (verifyHeader, Text.Utf8.encode "NONE"),
    (certificateHeader, Text.Utf8.encode "CN%3DJane")]⟩
  peerCertificates := some []
  arguments := [(Arguments.extraCredentialsName, .str "[true]")]
  issuers := []
  now := 0

theorem forwardedContext_is_answered :
    Unverified forwardedContext ∧
      Presents forwardedContext.headers (Text.Utf8.encode "CN%3DJane") ∧
      (certificateWith fun chain => .ok { dn := some chain }).authenticate forwardedContext =
        .ok { dn := some "CN=Jane", extra := some (.arr [.bool true]) } := by
  have hunverified : Unverified forwardedContext := by
    rintro chain ⟨rfl⟩
    rfl
  have hpresents : Presents forwardedContext.headers (Text.Utf8.encode "CN%3DJane") :=
    ⟨rfl, rfl, by decide, by decide +kernel⟩
  have hread : Json.readText "[true]" = .ok (.arr [.bool true]) :=
    Json.readText_render (.arr [.bool true]) rfl (by decide)
  obtain ⟨extra, hextra, -, hforwarded, -⟩ :=
    only_verified_chains_are_trusted (fun chain => .ok { dn := some chain }) forwardedContext
  obtain rfl := (hextra _).mp (.denoted rfl (by decide) hread)
  have hanswer := ((hforwarded hunverified).2 _ hpresents).1 "CN=Jane" (by decide +kernel)
  exact ⟨hunverified, hpresents, hanswer⟩

end Grant

end Gatehouse
