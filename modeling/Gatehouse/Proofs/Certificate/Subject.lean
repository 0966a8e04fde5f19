import Gatehouse.Certificate.Subject
import Gatehouse.Grant.Basic
import Gatehouse.Proofs.Certificate.Name
import Gatehouse.Proofs.Certificate.Pem

/-!
# Certificates return

The names of a certificate are read from every encoding of it and from nothing else.  Whoever wrote
the first block of a chain therefore decides alone what its record tells, and every text that is
not a chain with a certificate in front is refused.
-/

namespace Gatehouse.Certificate

open Der (Encoding)

/-! ## Certificates -/

/-- What stands before the algorithm: the serial number, with a version before it or without. -/
inductive SerialForm : List UInt8 → Prop where
  | plain {tag : UInt8} {serial element : List UInt8} (h : Encoding tag serial element)
      (htag : tag ≠ explicitVersionTag) : SerialForm element
  | versioned {version versionElement : List UInt8} {tag : UInt8} {serial element : List UInt8}
      (hversion : Encoding explicitVersionTag version versionElement)
      (h : Encoding tag serial element) : SerialForm (versionElement ++ element)

/-- The fields of a certificate: the ones in front of the names are there but are not looked into,
and what is behind the subject may be anything. -/
inductive FieldsForm (subject issuer : List (List NameEntry)) : List UInt8 → Prop where
  | mk {start algorithm algorithmElement issuerContent issuerElement validity validityElement
        subjectContent subjectElement : List UInt8}
      (hstart : SerialForm start)
      (halgorithm : Encoding sequenceTag algorithm algorithmElement)
      (hissuerName : NameForm issuer issuerContent)
      (hissuer : Encoding sequenceTag issuerContent issuerElement)
      (hvalidity : Encoding sequenceTag validity validityElement)
      (hsubjectName : NameForm subject subjectContent)
      (hsubject : Encoding sequenceTag subjectContent subjectElement)
      (further : List UInt8) :
      FieldsForm subject issuer
        (start ++ (algorithmElement ++ (issuerElement ++ (validityElement ++
          (subjectElement ++ further)))))

/-- A certificate with these names. -/
inductive CertificateForm (subject issuer : List (List NameEntry)) : List UInt8 → Prop where
  | mk {fields fieldsElement signature certificate : List UInt8}
      (hfields : FieldsForm subject issuer fields)
      (helement : Encoding sequenceTag fields fieldsElement)
      (hcertificate : Encoding sequenceTag (fieldsElement ++ signature) certificate)
      (after : List UInt8) : CertificateForm subject issuer (certificate ++ after)

def afterSerial (fields : List UInt8) : Except Der.Error (List UInt8) := do
  let first ← Der.read fields
  let serial ← Der.read (if first.tag = explicitVersionTag then first.rest else fields)
  return serial.rest

def namesBehind (fields : List UInt8) : Except Der.Error Names := do
  let (_, fields) ← Der.expect sequenceTag fields
  let (issuer, fields) ← Der.expect sequenceTag fields
  let (_, fields) ← Der.expect sequenceTag fields
  let (subject, _) ← Der.expect sequenceTag fields
  let subject ← readName subject
  let issuer ← readName issuer
  return ⟨subject, issuer⟩

theorem readNames_eq (certificate : List UInt8) : readNames certificate = (do
    let (signed, _) ← Der.expect sequenceTag certificate
    let (fields, _) ← Der.expect sequenceTag signed
    let rest ← afterSerial fields
    namesBehind rest) := by
  simp only [readNames, afterSerial, namesBehind, bind_assoc, pure_bind]

theorem afterSerial_eq_ok {fields rest : List UInt8} :
    afterSerial fields = .ok rest ↔ ∃ start, SerialForm start ∧ fields = start ++ rest := by
  rw [afterSerial, Effect.bind_eq_ok]
  constructor
  · rintro ⟨first, hfirst, h⟩
    obtain ⟨serial, hserial, h⟩ := Effect.bind_eq_ok.mp h
    cases h
    obtain ⟨firstElement, hencoding, rfl⟩ := Der.read_eq_ok.mp hfirst
    by_cases htag : first.tag = explicitVersionTag
    · rw [if_pos htag] at hserial
      obtain ⟨element, helement, hrest⟩ := Der.read_eq_ok.mp hserial
      rw [htag] at hencoding
      refine ⟨firstElement ++ element, .versioned hencoding helement, ?_⟩
      rw [hrest, List.append_assoc]
    · rw [if_neg htag, hfirst] at hserial
      cases hserial
      exact ⟨firstElement, .plain hencoding htag, rfl⟩
  · rintro ⟨start, hstart, rfl⟩
    cases hstart with
    | plain h htag =>
        refine ⟨_, h.read_append rest, ?_⟩
        rw [if_neg htag, h.read_append]
        rfl
    | versioned hversion h =>
        rw [List.append_assoc]
        refine ⟨_, hversion.read_append _, ?_⟩
        rw [if_pos rfl, h.read_append]
        rfl

/-- Fields are read exactly if they are there. -/
theorem fields_eq_ok {fields : List UInt8} {names : Names} :
    (afterSerial fields >>= namesBehind) = .ok names ↔
      ∃ subject issuer, FieldsForm subject issuer fields ∧
        names = ⟨subject.flatten, issuer.flatten⟩ := by
  rw [Effect.bind_eq_ok]
  constructor
  · rintro ⟨rest, hrest, h⟩
    rw [namesBehind] at h
    obtain ⟨⟨algorithm, afterAlgorithm⟩, hreadAlgorithm, h⟩ := Effect.bind_eq_ok.mp h
    obtain ⟨⟨issuerContent, afterIssuer⟩, hreadIssuer, h⟩ := Effect.bind_eq_ok.mp h
    obtain ⟨⟨validity, afterValidity⟩, hreadValidity, h⟩ := Effect.bind_eq_ok.mp h
    obtain ⟨⟨subjectContent, further⟩, hreadSubject, h⟩ := Effect.bind_eq_ok.mp h
    obtain ⟨subjectEntries, hreadSubjectName, h⟩ := Effect.bind_eq_ok.mp h
    obtain ⟨issuerEntries, hreadIssuerName, h⟩ := Effect.bind_eq_ok.mp h
    cases h
    obtain ⟨start, hstart, rfl⟩ := afterSerial_eq_ok.mp hrest
    obtain ⟨_, halgorithm, rfl⟩ := Der.expect_eq_ok.mp hreadAlgorithm
    obtain ⟨_, hissuer, rfl⟩ := Der.expect_eq_ok.mp hreadIssuer
    obtain ⟨_, hvalidity, rfl⟩ := Der.expect_eq_ok.mp hreadValidity
    obtain ⟨_, hsubject, rfl⟩ := Der.expect_eq_ok.mp hreadSubject
    obtain ⟨subject, hsubjectName, rfl⟩ := readName_eq_ok.mp hreadSubjectName
    obtain ⟨issuer, hissuerName, rfl⟩ := readName_eq_ok.mp hreadIssuerName
    exact ⟨subject, issuer, .mk hstart halgorithm hissuerName hissuer hvalidity hsubjectName
      hsubject further, rfl⟩
  · rintro ⟨subject, issuer, hfields, rfl⟩
    cases hfields with
    | mk hstart halgorithm hissuerName hissuer hvalidity hsubjectName hsubject further =>
        refine ⟨_, afterSerial_eq_ok.mpr ⟨_, hstart, rfl⟩, ?_⟩
        refine Effect.bind_eq_ok.mpr ⟨_, halgorithm.expect_append _, ?_⟩
        refine Effect.bind_eq_ok.mpr ⟨_, hissuer.expect_append _, ?_⟩
        refine Effect.bind_eq_ok.mpr ⟨_, hvalidity.expect_append _, ?_⟩
        refine Effect.bind_eq_ok.mpr ⟨_, hsubject.expect_append further, ?_⟩
        refine Effect.bind_eq_ok.mpr ⟨_, readName_eq_ok.mpr ⟨subject, hsubjectName, rfl⟩, ?_⟩
        exact Effect.bind_eq_ok.mpr ⟨_, readName_eq_ok.mpr ⟨issuer, hissuerName, rfl⟩, rfl⟩

/-- The names of a certificate are read from its encodings and from nothing else. -/
theorem readNames_eq_ok {certificate : List UInt8} {names : Names} :
    readNames certificate = .ok names ↔
      ∃ subject issuer, CertificateForm subject issuer certificate ∧
        names = ⟨subject.flatten, issuer.flatten⟩ := by
  rw [readNames_eq, Effect.bind_eq_ok]
  constructor
  · rintro ⟨⟨signed, after⟩, hreadCertificate, h⟩
    obtain ⟨⟨fields, signature⟩, hreadFields, h⟩ := Effect.bind_eq_ok.mp h
    obtain ⟨subject, issuer, hform, rfl⟩ := fields_eq_ok.mp h
    obtain ⟨_, hcertificate, rfl⟩ := Der.expect_eq_ok.mp hreadCertificate
    obtain ⟨_, helement, rfl⟩ := Der.expect_eq_ok.mp hreadFields
    exact ⟨subject, issuer, .mk hform helement hcertificate after, rfl⟩
  · rintro ⟨subject, issuer, hform, rfl⟩
    cases hform with
    | mk hfields helement hcertificate after =>
        refine ⟨_, hcertificate.expect_append after, ?_⟩
        refine Effect.bind_eq_ok.mpr ⟨_, helement.expect_append _, ?_⟩
        exact fields_eq_ok.mpr ⟨subject, issuer, hfields, rfl⟩

/-! ## Names as texts -/

/-- A certificate with these names, whose texts are UTF-8. -/
def IsCertificate (subject issuer : List (List Attribute)) (bytes : List UInt8) : Prop :=
  CertificateForm (subject.map (·.map Attribute.entry)) (issuer.map (·.map Attribute.entry)) bytes

theorem IsCertificate.readNames {subject issuer : List (List Attribute)} {bytes : List UInt8}
    (h : IsCertificate subject issuer bytes) :
    readNames bytes =
      .ok ⟨subject.flatten.map Attribute.entry, issuer.flatten.map Attribute.entry⟩ := by
  refine readNames_eq_ok.mpr ⟨_, _, h, ?_⟩
  rw [List.map_flatten, List.map_flatten]

def attributeSet (a : Attribute) : List UInt8 :=
  Der.shortForm setTag (Der.shortForm sequenceTag
    (Der.shortForm oidTag a.oid ++ Der.shortForm 0x0C (Text.Utf8.encode a.text)))

theorem nameForm_attributeSets {attributes : List Attribute}
    (h : ∀ a ∈ attributes, a.oid.length + (Text.Utf8.encode a.text).length < 122) :
    NameForm (attributes.map fun a => [a.entry]) (attributes.flatMap attributeSet) := by
  induction attributes with
  | nil => exact .nil
  | cons a attributes ih =>
      obtain ⟨ha, hrest⟩ := List.forall_mem_cons.mp h
      have hentry : EntryForm a.entry
          (Der.shortForm oidTag a.oid ++ (Der.shortForm 0x0C (Text.Utf8.encode a.text) ++ [])) :=
        .mk (Der.encoding_shortForm (by omega) _) (Der.encoding_shortForm (by omega) _) []
      rw [List.append_nil] at hentry
      have hset := Der.Encodings.cons hentry
        (Der.encoding_shortForm (by simp; omega) sequenceTag) .nil
      rw [List.append_nil] at hset
      rw [List.map_cons, List.flatMap_cons]
      exact .cons hset (Der.encoding_shortForm (by simp; omega) setTag) (ih hrest)

def gridSubject : List Attribute :=
  [⟨[0x55, 0x04, 0x0A], "Grid"⟩, ⟨commonNameOid, "Jane"⟩, ⟨commonNameOid, "7"⟩]

def gridIssuer : List Attribute := [⟨[0x55, 0x04, 0x0A], "Grid"⟩]

/-- The fields of a certificate without a version. -/
def gridFields : List UInt8 :=
  Der.shortForm 0x02 [5] ++ (Der.shortForm sequenceTag [] ++
    (Der.shortForm sequenceTag (gridIssuer.flatMap attributeSet) ++
      (Der.shortForm sequenceTag [] ++
        (Der.shortForm sequenceTag (gridSubject.flatMap attributeSet) ++ []))))

def gridSigned : List UInt8 := Der.shortForm sequenceTag gridFields ++ Der.shortForm 0x03 [0]

/-- The certificate of a proxy.  The outermost length is in long form, with a leading zero. -/
def gridCertificate : List UInt8 :=
  sequenceTag :: [0x82, 0, 73] ++ gridSigned ++ []

theorem isCertificate_grid :
    IsCertificate (gridSubject.map ([·])) (gridIssuer.map ([·])) gridCertificate := by
  have hsubject : NameForm _ (gridSubject.flatMap attributeSet) :=
    nameForm_attributeSets (by decide)
  have hissuer : NameForm _ (gridIssuer.flatMap attributeSet) :=
    nameForm_attributeSets (by decide)
  have hempty : Encoding sequenceTag [] _ := Der.encoding_shortForm (by decide) _
  have hserial : SerialForm (Der.shortForm 0x02 [5]) :=
    .plain (Der.encoding_shortForm (by decide) _) (by decide)
  have hfields : FieldsForm _ _ gridFields :=
    .mk hserial hempty hissuer (Der.encoding_shortForm (by decide) _) hempty hsubject
      (Der.encoding_shortForm (by decide) _) []
  have hlength : Der.LengthEncoding gridSigned.length [0x82, 0, 73] :=
    .long (List.cons_ne_nil 0 [73]) (by decide)
  exact .mk hfields (Der.encoding_shortForm (by decide) _) (.mk hlength) []

/-! ## Chains -/

/-- A record is read exactly if the names of the first block are. -/
theorem readChain_eq_ok {pem : String} {record : Credential} :
    readChain pem = .ok record ↔ ∃ leaf later names,
      pemBlocks pem.toList = .ok (leaf :: later) ∧ readNames leaf = .ok names ∧
        names.record = record := by
  rw [readChain, Effect.bind_eq_ok]
  constructor
  · rintro ⟨blocks, hblocks, h⟩
    rw [Effect.mapError_eq_ok] at hblocks
    cases blocks with
    | nil => cases h
    | cons leaf later =>
        obtain ⟨names, hnames, h⟩ := Effect.bind_eq_ok.mp h
        cases h
        exact ⟨leaf, later, names, hblocks, Effect.mapError_eq_ok.mp hnames, rfl⟩
  · rintro ⟨leaf, later, names, hblocks, hnames, rfl⟩
    refine ⟨leaf :: later, Effect.mapError_eq_ok.mpr hblocks, ?_⟩
    exact Effect.bind_eq_ok.mpr ⟨names, Effect.mapError_eq_ok.mpr hnames, rfl⟩

/-- A chain that is not read is refused as an invalid certificate. -/
theorem certificate_refuses {pem : String} {reason : ChainError} {c : GrantContext}
    (hread : readChain pem = .error reason) (htext : Grant.chainText c = .ok pem) :
    (Grant.certificate readChain).authenticate c =
      .error (.certificateInvalid reason.message) := by
  change (Grant.chainText c >>= _) = _
  rw [htext]
  change ((readChain pem).mapError _ >>= _) = _
  rw [hread]
  rfl

/-- What a record tells of a certificate's names: the line of the issuer, and the line of the
subject without the common names of proxies behind it.  Where no text of the subject holds a slash,
these are its last attributes, as many of them as are a proxy's. -/
structure Tells (record : Credential) (subject issuer : List Attribute) : Prop where
  names : ∃ dn isProxy, record =
      { dn := some (String.ofList dn)
        attributes := [("isProxy", .bool isProxy), ("issuer", .str (line issuer))] } ∧
    Strips (line subject).toList dn isProxy
  attributes : (∀ a ∈ subject, '/' ∉ a.text.toList) → record =
      { dn := some (line (subject.rdropWhile Attribute.isProxy))
        attributes := [("isProxy", .bool (subject.getLast?.any Attribute.isProxy)),
          ("issuer", .str (line issuer))] }

theorem tells_record (subject issuer : List Attribute) :
    Tells (Names.record ⟨subject.map Attribute.entry, issuer.map Attribute.entry⟩)
      subject issuer := by
  have hrecord : Names.record ⟨subject.map Attribute.entry, issuer.map Attribute.entry⟩ =
      { dn := some (String.ofList (stripProxyChars (line subject).toList).1)
        attributes := [("isProxy", .bool (stripProxyChars (line subject).toList).2),
          ("issuer", .str (line issuer))] } := by
    simp only [Names.record, stripProxy, renderName_entries]
  refine ⟨⟨_, _, hrecord, strips_stripProxyChars _⟩, fun hslash => ?_⟩
  rw [hrecord, stripProxyChars_line hslash, String.ofList_toList]

/-- The record of a chain tells the names that its first certificate was written with, whatever
stands behind them in the certificate or behind the certificate in the chain.  Every other text
is refused unless names are encoded in its first block. -/
theorem written_names_return :
    (∀ {subject issuer : List (List Attribute)} {leaf : List UInt8} {block rest : List Char}
        {later : List (List UInt8)}, IsCertificate subject issuer leaf → IsBlock leaf block →
        pemBlocks rest = .ok later →
      ∃ record, readChain (String.ofList (block ++ rest)) = .ok record ∧
        Tells record subject.flatten issuer.flatten) ∧
    ∀ pem : String,
      (∃ leaf later subject issuer, pemBlocks pem.toList = .ok (leaf :: later) ∧
        CertificateForm subject issuer leaf ∧
        readChain pem = .ok (Names.record ⟨subject.flatten, issuer.flatten⟩)) ∨
      ((∀ leaf later, pemBlocks pem.toList = .ok (leaf :: later) →
          ∀ subject issuer, ¬ CertificateForm subject issuer leaf) ∧
        ∃ reason, readChain pem = .error reason ∧
          ∀ c, Grant.chainText c = .ok pem → (Grant.certificate readChain).authenticate c =
            .error (.certificateInvalid reason.message)) := by
  constructor
  · intro subject issuer leaf block rest later hleaf hblock hrest
    refine ⟨_, readChain_eq_ok.mpr ⟨leaf, later, _, ?_, hleaf.readNames, rfl⟩, tells_record _ _⟩
    rw [String.toList_ofList, pemBlocks_append hblock, hrest]
    rfl
  · intro pem
    cases hread : readChain pem with
    | ok record =>
        left
        obtain ⟨leaf, later, names, hblocks, hnames, rfl⟩ := readChain_eq_ok.mp hread
        obtain ⟨subject, issuer, hform, rfl⟩ := readNames_eq_ok.mp hnames
        exact ⟨leaf, later, subject, issuer, hblocks, hform, rfl⟩
    | error reason =>
        right
        refine ⟨fun leaf later hblocks subject issuer hform => ?_, reason, rfl, fun c htext => ?_⟩
        · have hnames := readNames_eq_ok.mpr ⟨subject, issuer, hform, rfl⟩
          rw [readChain_eq_ok.mpr ⟨leaf, later, _, hblocks, hnames, rfl⟩] at hread
          cases hread
        · exact certificate_refuses hread htext

theorem gridCertificate_returns :
    readChain (armour gridCertificate) = .ok
      { dn := some "/O=Grid/CN=Jane"
        attributes := [("isProxy", .bool true), ("issuer", .str "/O=Grid")] } := by
  obtain ⟨block, hblock, htext⟩ := isBlock_armour gridCertificate
  have hrest : pemBlocks ['\n'] = .ok [] := pemBlocks_of_dash_not_mem (by decide)
  obtain ⟨record, hread, htells⟩ := written_names_return.1 isCertificate_grid hblock hrest
  rw [← htext, String.ofList_toList, htells.attributes (by decide)] at hread
  rw [hread]
  rfl

end Gatehouse.Certificate
