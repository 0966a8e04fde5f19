import Gatehouse.Proofs.Certificate.Subject
import Gatehouse.Proofs.Certificate.Types
import Mathlib.Logic.Relation

/-!
# Subjects by their lines

A text may hold what another attribute begins with, and its line is then that of two attributes as
well.  Apart from this, and from the common names of proxies behind it, a subject is told by the dn
that is read from it.
-/

namespace Gatehouse.Certificate

open Relation (EqvGen)

variable {subject subject' : List Attribute}

/-! ## Reading a line back -/

/-- What an attribute of the type begins with on the line. -/
def typeMark (oid : List UInt8) : String := "/" ++ attributeName oid ++ "="

theorem toList_typeMark (oid : List UInt8) :
    (typeMark oid).toList = '/' :: ((attributeName oid).toList ++ ['=']) := by
  simp [typeMark]

theorem toList_line_cons (a : Attribute) (attributes : List Attribute) :
    (line (a :: attributes)).toList =
      (typeMark a.oid).toList ++ (a.text.toList ++ (line attributes).toList) := by
  simp [line, typeMark]

/-- No text holds what an attribute begins with. -/
def IsPlain (attributes : List Attribute) : Prop :=
  ∀ a ∈ attributes, ∀ oid, IsType oid → ¬ (typeMark oid).toList <:+: a.text.toList

/-- A text without an equals sign holds no beginning of an attribute. -/
theorem isPlain_of_equals_not_mem (h : ∀ a ∈ subject, '=' ∉ a.text.toList) : IsPlain subject := by
  intro a ha oid _ hheld
  have hequals : '=' ∈ (typeMark oid).toList := by simp [toList_typeMark]
  exact h a ha (hheld.subset hequals)

/-- All attributes have types that are told apart. -/
def AreTyped (attributes : List Attribute) : Prop := ∀ a ∈ attributes, IsType a.oid

theorem areTyped_of_shortNames (h : ∀ a ∈ subject, a.oid ∈ shortNames.map Prod.fst) :
    AreTyped subject :=
  fun a ha => isType_of_mem_shortNames (h a ha)

/-- What an attribute begins with does not reach into the next attribute. -/
theorem typeMark_begins_front {oid : List UInt8} {front rest : List Char}
    {attributes : List Attribute} (hfront : front ≠ [])
    (h : (typeMark oid).toList ++ rest = front ++ (line attributes).toList) :
    (typeMark oid).toList <+: front := by
  obtain ⟨further, hmark, -⟩ | ⟨further, hmark, hline⟩ := List.append_eq_append_iff.mp h
  · exact ⟨further, hmark.symm⟩
  · cases further with
    | nil => exact ⟨[], by rw [hmark, List.append_nil, List.append_nil]⟩
    | cons c further =>
        exfalso
        cases attributes with
        | nil => cases hline
        | cons a attributes =>
            rw [toList_line_cons, toList_typeMark] at hline
            obtain ⟨rfl, -⟩ := List.cons_eq_cons.mp hline
            cases front with
            | nil => exact hfront rfl
            | cons d front =>
                rw [toList_typeMark] at hmark
                have hslash : '/' ∈ (attributeName oid).toList ++ ['='] := by
                  rw [(List.cons_eq_cons.mp hmark).2]
                  simp
                simp [(attributeName_plain oid).1] at hslash

/-- Between the end of a plain text and the next attribute there is nothing. -/
theorem eq_nil_of_line_eq_append {text more : List Char} (htyped : AreTyped subject)
    (hplain : ∀ oid, IsType oid → ¬ (typeMark oid).toList <:+: text ++ more)
    (h : (line subject).toList = more ++ (line subject').toList) : more = [] := by
  by_contra hmore
  -- Otherwise the next attribute would begin within the text.
  cases subject with
  | nil => exact hmore (List.append_eq_nil_iff.mp h.symm).1
  | cons a attributes =>
      rw [toList_line_cons] at h
      have hbegins := typeMark_begins_front hmore h
      exact hplain a.oid (htyped a List.mem_cons_self)
        (hbegins.isInfix.trans (List.suffix_append text more).isInfix)

theorem text_eq_of_append_line_eq {text text' : List Char} (htyped : AreTyped subject)
    (htyped' : AreTyped subject')
    (hplain : ∀ oid, IsType oid → ¬ (typeMark oid).toList <:+: text)
    (hplain' : ∀ oid, IsType oid → ¬ (typeMark oid).toList <:+: text')
    (h : text ++ (line subject).toList = text' ++ (line subject').toList) : text = text' := by
  obtain ⟨more, rfl, hline⟩ | ⟨more, rfl, hline⟩ := List.append_eq_append_iff.mp h
  · rw [eq_nil_of_line_eq_append htyped hplain' hline, List.append_nil]
  · rw [eq_nil_of_line_eq_append htyped' hplain hline, List.append_nil]

theorem cons_eq_of_line_eq {a b : Attribute} {attributes others : List Attribute}
    (ha : IsType a.oid) (hb : IsType b.oid)
    (h : (line (a :: attributes)).toList = (line (b :: others)).toList) :
    a.oid = b.oid ∧
      a.text.toList ++ (line attributes).toList = b.text.toList ++ (line others).toList := by
  have hcut (c : Attribute) (rest : List Attribute) :
      Text.cut? '=' (line (c :: rest)).toList =
        some ('/' :: (attributeName c.oid).toList, c.text.toList ++ (line rest).toList) := by
    have hmark : (line (c :: rest)).toList =
        ('/' :: (attributeName c.oid).toList) ++
          '=' :: (c.text.toList ++ (line rest).toList) := by
      rw [toList_line_cons, toList_typeMark]
      simp
    rw [hmark]
    exact Text.cut?_append (by simp [(attributeName_plain c.oid).2]) _
  have hpair := hcut a attributes
  rw [h, hcut b others] at hpair
  obtain ⟨hname, hrest⟩ := Prod.mk.inj (Option.some.inj hpair)
  have hsame : attributeName a.oid = attributeName b.oid :=
    String.toList_inj.mp (List.cons_eq_cons.mp hname).2.symm
  exact ⟨attributeName_injective ha hb hsame, hrest.symm⟩

/-- A line has one reading with plain texts. -/
theorem eq_of_line_eq (htyped : AreTyped subject) (htyped' : AreTyped subject')
    (hplain : IsPlain subject) (hplain' : IsPlain subject')
    (h : (line subject).toList = (line subject').toList) : subject = subject' := by
  induction subject generalizing subject' with
  | nil =>
      cases subject' with
      | nil => rfl
      | cons b others =>
          rw [toList_line_cons, toList_typeMark] at h
          cases h
  | cons a attributes ih =>
      cases subject' with
      | nil =>
          rw [toList_line_cons, toList_typeMark] at h
          cases h
      | cons b others =>
          obtain ⟨ha, hattributes⟩ := List.forall_mem_cons.mp htyped
          obtain ⟨hb, hothers⟩ := List.forall_mem_cons.mp htyped'
          obtain ⟨hatext, hplain⟩ := List.forall_mem_cons.mp hplain
          obtain ⟨hbtext, hplain'⟩ := List.forall_mem_cons.mp hplain'
          obtain ⟨hoid, hrest⟩ := cons_eq_of_line_eq ha hb h
          have htext := text_eq_of_append_line_eq hattributes hothers hatext hbtext hrest
          have hline : (line attributes).toList = (line others).toList := by
            rwa [htext, List.append_cancel_left_eq] at hrest
          have hsame : a = b := by
            cases a
            cases b
            rw [Attribute.mk.injEq]
            exact ⟨hoid, String.toList_inj.mp htext⟩
          rw [hsame, ih hattributes hothers hplain hplain' hline]

/-! ## Subjects with one dn -/

def subjectDn (subject : List Attribute) : String := (stripProxy (line subject)).1

/-- A step towards the subject that the dn seems to be of: a text is cut where an attribute could
begin in it, or the common name of a proxy is taken off the end. -/
inductive Reduces : List Attribute → List Attribute → Prop where
  | cut (before after : List Attribute) (oid : List UInt8) (text : String) {oid' : List UInt8}
      (h : IsType oid') (text' : String) :
      Reduces (before ++ ⟨oid, text ++ typeMark oid' ++ text'⟩ :: after)
        (before ++ ⟨oid, text⟩ :: ⟨oid', text'⟩ :: after)
  | proxy (attributes : List Attribute) {a : Attribute} (h : a.isProxy = true) :
      Reduces (attributes ++ [a]) attributes

theorem Reduces.subjectDn_eq (h : Reduces subject subject') :
    subjectDn subject = subjectDn subject' := by
  cases h with
  | @cut before after oid text oid' _ text' =>
      have hline : line (before ++ ⟨oid, text ++ typeMark oid' ++ text'⟩ :: after) =
          line (before ++ ⟨oid, text⟩ :: ⟨oid', text'⟩ :: after) := by
        rw [← String.toList_inj, line_append, line_append, String.toList_append,
          String.toList_append, toList_line_cons, toList_line_cons, toList_line_cons]
        simp
      rw [subjectDn, subjectDn, hline]
  | proxy _ h =>
      have hname := (Bool.and_eq_true_iff.mp h).2
      simp only [subjectDn, stripProxy]
      rw [line_concat_of_isProxy _ h, stripProxyChars_append _ hname]

theorem subjectDn_eq_of_eqvGen (h : EqvGen Reduces subject subject') :
    subjectDn subject = subjectDn subject' := by
  induction h with
  | rel _ _ h => exact h.subjectDn_eq
  | refl => rfl
  | symm _ _ _ ih => exact ih.symm
  | trans _ _ _ _ _ ih ih' => exact ih.trans ih'

def textLength (attributes : List Attribute) : Nat :=
  (attributes.map fun a => a.text.toList.length).sum

/-- A subject that is not plain can be cut. -/
theorem exists_reduces_of_not_isPlain (htyped : AreTyped subject) (h : ¬ IsPlain subject) :
    ∃ subject', Reduces subject subject' ∧ AreTyped subject' ∧
      textLength subject' < textLength subject := by
  obtain ⟨a, ha, oid, hoid, front, behind, hheld⟩ :
      ∃ a ∈ subject, ∃ oid, IsType oid ∧ (typeMark oid).toList <:+: a.text.toList := by
    simpa [IsPlain] using h
  obtain ⟨before, after, rfl⟩ := List.append_of_mem ha
  have htext : a = ⟨a.oid, String.ofList front ++ typeMark oid ++ String.ofList behind⟩ := by
    have hsame : a.text = String.ofList front ++ typeMark oid ++ String.ofList behind := by
      rw [← String.toList_inj, ← hheld]
      simp
    rw [← hsame]
  obtain ⟨hbefore, hrest⟩ := List.forall_mem_append.mp htyped
  obtain ⟨htype, hafter⟩ := List.forall_mem_cons.mp hrest
  refine ⟨before ++ ⟨a.oid, String.ofList front⟩ :: ⟨oid, String.ofList behind⟩ :: after,
    ?_, ?_, ?_⟩
  · rw [htext]
    exact .cut before after a.oid _ hoid _
  · exact List.forall_mem_append.mpr ⟨hbefore,
      List.forall_mem_cons.mpr ⟨htype, List.forall_mem_cons.mpr ⟨hoid, hafter⟩⟩⟩
  · simp only [textLength, List.map_append, List.map_cons, List.sum_append, List.sum_cons,
      String.toList_ofList, ← hheld, List.length_append, toList_typeMark, List.length_cons]
    omega

/-- Every subject reduces to a plain one, since every cut makes the texts shorter. -/
theorem exists_isPlain (htyped : AreTyped subject) :
    ∃ plain, EqvGen Reduces subject plain ∧ AreTyped plain ∧ IsPlain plain := by
  induction hlength : textLength subject using Nat.strongRecOn generalizing subject with
  | ind n ih =>
      by_cases hplain : IsPlain subject
      · exact ⟨subject, .refl _, htyped, hplain⟩
      · obtain ⟨next, hnext, htypedNext, hshorter⟩ :=
          exists_reduces_of_not_isPlain htyped hplain
        obtain ⟨plain, hreduces, hplain⟩ := ih _ (hlength ▸ hshorter) htypedNext rfl
        exact ⟨plain, .trans _ _ _ (.rel _ _ hnext) hreduces, hplain⟩

/-- The attributes of proxies at the end are taken off. -/
theorem eqvGen_rdropWhile (subject : List Attribute) :
    EqvGen Reduces subject (subject.rdropWhile Attribute.isProxy) := by
  induction subject using List.reverseRecOn with
  | nil => exact .refl _
  | append_singleton attributes a ih =>
      cases hproxy : a.isProxy with
      | true =>
          rw [List.rdropWhile_concat_pos _ _ _ hproxy]
          exact .trans _ _ _ (.rel _ _ (.proxy attributes hproxy)) ih
      | false =>
          rw [List.rdropWhile_concat_neg _ _ _ (by rw [hproxy]; exact Bool.false_ne_true)]
          exact .refl _

theorem rdropWhile_of_getLast? (h : subject.getLast?.any Attribute.isProxy = false) :
    subject.rdropWhile Attribute.isProxy = subject := by
  cases subject using List.reverseRecOn with
  | nil => rfl
  | append_singleton attributes a =>
      rw [List.getLast?_concat, Option.any_some] at h
      exact List.rdropWhile_concat_neg _ _ _ (by rw [h]; exact Bool.false_ne_true)

theorem subjectDn_of_isPlain (h : IsPlain subject) :
    subjectDn subject = line (subject.rdropWhile Attribute.isProxy) := by
  have htexts : ∀ a ∈ subject, ¬ commonName <:+: a.text.toList :=
    fun a ha => h a ha commonNameOid isType_commonNameOid
  simp only [subjectDn, stripProxy]
  rw [stripProxyChars_line_of_unnamed htexts, String.ofList_toList]

/-- Plain subjects are told by their dn, but for the proxies behind them. -/
theorem rdropWhile_eq_of_subjectDn_eq (htyped : AreTyped subject) (htyped' : AreTyped subject')
    (hplain : IsPlain subject) (hplain' : IsPlain subject')
    (h : subjectDn subject = subjectDn subject') :
    subject.rdropWhile Attribute.isProxy = subject'.rdropWhile Attribute.isProxy := by
  have hkept (attributes : List Attribute) :
      ∀ a ∈ attributes.rdropWhile Attribute.isProxy, a ∈ attributes :=
    fun a ha => (List.rdropWhile_prefix _ _).subset ha
  rw [subjectDn_of_isPlain hplain, subjectDn_of_isPlain hplain'] at h
  exact eq_of_line_eq (fun a ha => htyped a (hkept _ a ha)) (fun a ha => htyped' a (hkept _ a ha))
    (fun a ha => hplain a (hkept _ a ha)) (fun a ha => hplain' a (hkept _ a ha))
    (congrArg String.toList h)

theorem subjectDn_eq_iff (htyped : AreTyped subject) (htyped' : AreTyped subject') :
    subjectDn subject = subjectDn subject' ↔ EqvGen Reduces subject subject' := by
  refine ⟨fun h => ?_, subjectDn_eq_of_eqvGen⟩
  -- Both reduce to plain subjects, and these to one without proxies behind it.
  obtain ⟨plain, hreduces, htypedPlain, hplain⟩ := exists_isPlain htyped
  obtain ⟨plain', hreduces', htypedPlain', hplain'⟩ := exists_isPlain htyped'
  have hdn : subjectDn plain = subjectDn plain' := by
    rw [← subjectDn_eq_of_eqvGen hreduces, h, subjectDn_eq_of_eqvGen hreduces']
  have hkept := rdropWhile_eq_of_subjectDn_eq htypedPlain htypedPlain' hplain hplain' hdn
  have hstripped := eqvGen_rdropWhile plain
  rw [hkept] at hstripped
  exact .trans _ _ _ hreduces (.trans _ _ _ hstripped
    (.trans _ _ _ (.symm _ _ (eqvGen_rdropWhile plain')) (.symm _ _ hreduces')))

/-! ## Chains -/

/-- The first certificate of a chain has this subject, its texts in UTF-8. -/
def HasSubject (pem : String) (subject : List Attribute) : Prop :=
  ∃ leaf later sets issuer, pemBlocks pem.toList = .ok (leaf :: later) ∧
    CertificateForm sets issuer leaf ∧ sets.flatten = subject.map Attribute.entry

theorem HasSubject.readChain_eq {pem : String} (h : HasSubject pem subject) :
    ∃ record, readChain pem = .ok record ∧ record.dn = some (subjectDn subject) := by
  obtain ⟨leaf, later, sets, issuer, hblocks, hform, hsubject⟩ := h
  have hnames := readNames_eq_ok.mpr ⟨sets, issuer, hform, rfl⟩
  refine ⟨_, readChain_eq_ok.mpr ⟨leaf, later, _, hblocks, hnames, rfl⟩, ?_⟩
  simp only [Names.record, hsubject, renderName_entries, subjectDn]

def briefFields (subject : List Attribute) : List UInt8 :=
  Der.shortForm 0x02 [5] ++ (Der.shortForm sequenceTag [] ++ (Der.shortForm sequenceTag [] ++
    (Der.shortForm sequenceTag [] ++
      (Der.shortForm sequenceTag (subject.flatMap attributeSet) ++ []))))

def briefCertificate (subject : List Attribute) : List UInt8 :=
  Der.shortForm sequenceTag (Der.shortForm sequenceTag (briefFields subject) ++ []) ++ []

theorem certificateForm_brief
    (hattributes : ∀ a ∈ subject, a.oid.length + (Text.Utf8.encode a.text).length < 122)
    (hlength : (subject.flatMap attributeSet).length < 115) :
    CertificateForm (subject.map fun a => [a.entry]) [] (briefCertificate subject) := by
  have hempty : Der.Encoding sequenceTag [] _ := Der.encoding_shortForm (by decide) _
  have hserial : SerialForm (Der.shortForm 0x02 [5]) :=
    .plain (Der.encoding_shortForm (by decide) _) (by decide)
  have hfields : FieldsForm _ [] (briefFields subject) :=
    .mk hserial hempty .nil hempty hempty (nameForm_attributeSets hattributes)
      (Der.encoding_shortForm (by omega) _) []
  have hshort : (briefFields subject).length < 126 := by
    simp [briefFields, -List.length_flatMap]
    omega
  exact .mk hfields (Der.encoding_shortForm (by omega) _)
    (Der.encoding_shortForm (by simp; omega) _) []

theorem hasSubject_brief
    (hattributes : ∀ a ∈ subject, a.oid.length + (Text.Utf8.encode a.text).length < 122)
    (hlength : (subject.flatMap attributeSet).length < 115) :
    HasSubject (armour (briefCertificate subject)) subject := by
  obtain ⟨block, hblock, htext⟩ := isBlock_armour (briefCertificate subject)
  refine ⟨_, [], _, [], ?_, certificateForm_brief hattributes hlength, ?_⟩
  · rw [htext, pemBlocks_append hblock, pemBlocks_of_dash_not_mem (by decide)]
    rfl
  · rw [← List.flatMap_def, ← List.map_eq_flatMap]

def organizationOid : List UInt8 := [0x55, 0x04, 0x0A]

def janeSubject : List Attribute := [⟨organizationOid, "Grid"⟩, ⟨commonNameOid, "Jane"⟩]

def hostSubject : List Attribute := [⟨organizationOid, "Grid"⟩, ⟨commonNameOid, "host/grid"⟩]

/-- An organization that has Jane's name in its own. -/
def posingSubject : List Attribute := [⟨organizationOid, "Grid/CN=Jane"⟩]

/-- Two subjects have one dn exactly if they become the same by cutting texts where an attribute
could begin in them and by taking off the common names of proxies.  A dn therefore tells a subject
where nothing can be cut or taken off. -/
theorem subjects_are_told_apart_by_dn {pem pem' : String} (h : HasSubject pem subject)
    (h' : HasSubject pem' subject') (htyped : AreTyped subject) (htyped' : AreTyped subject') :
    ∃ record record', readChain pem = .ok record ∧ readChain pem' = .ok record' ∧
      (record.dn = record'.dn ↔ EqvGen Reduces subject subject') ∧
      (IsPlain subject → IsPlain subject' → subject.getLast?.any Attribute.isProxy = false →
        subject'.getLast?.any Attribute.isProxy = false →
          (record.dn = record'.dn ↔ subject = subject')) := by
  obtain ⟨record, hread, hdn⟩ := h.readChain_eq
  obtain ⟨record', hread', hdn'⟩ := h'.readChain_eq
  have hsame : record.dn = record'.dn ↔ subjectDn subject = subjectDn subject' := by
    rw [hdn, hdn', Option.some_inj]
  refine ⟨record, record', hread, hread', ?_, fun hplain hplain' hend hend' => ?_⟩
  · rw [hsame, subjectDn_eq_iff htyped htyped']
  · rw [hsame]
    refine ⟨fun hdns => ?_, congrArg subjectDn⟩
    have hkept := rdropWhile_eq_of_subjectDn_eq htyped htyped' hplain hplain' hdns
    rwa [rdropWhile_of_getLast? hend, rdropWhile_of_getLast? hend'] at hkept

/-- A slash alone does not confuse. -/
theorem hostSubject_has_its_own_dn :
    ∃ record record', readChain (armour (briefCertificate hostSubject)) = .ok record ∧
      readChain (armour (briefCertificate janeSubject)) = .ok record' ∧
      record.dn ≠ record'.dn := by
  have hhost : HasSubject (armour (briefCertificate hostSubject)) hostSubject :=
    hasSubject_brief (by decide) (by decide)
  have hjane : HasSubject (armour (briefCertificate janeSubject)) janeSubject :=
    hasSubject_brief (by decide) (by decide)
  obtain ⟨record, record', hread, hread', -, htold⟩ := subjects_are_told_apart_by_dn hhost hjane
    (areTyped_of_shortNames (by decide)) (areTyped_of_shortNames (by decide))
  have hplain : IsPlain hostSubject := isPlain_of_equals_not_mem (by decide)
  have hplain' : IsPlain janeSubject := isPlain_of_equals_not_mem (by decide)
  refine ⟨record, record', hread, hread', fun hdn => ?_⟩
  exact absurd ((htold hplain hplain' (by decide) (by decide)).mp hdn) (by decide)

theorem posingSubject_has_dn_of_jane :
    HasSubject (armour (briefCertificate posingSubject)) posingSubject ∧
    HasSubject (armour (briefCertificate janeSubject)) janeSubject ∧
    posingSubject.getLast?.any Attribute.isProxy = false ∧
    janeSubject.getLast?.any Attribute.isProxy = false ∧
    posingSubject ≠ janeSubject ∧
    ∃ record record', readChain (armour (briefCertificate posingSubject)) = .ok record ∧
      readChain (armour (briefCertificate janeSubject)) = .ok record' ∧
      record.dn = some "/O=Grid/CN=Jane" ∧ record'.dn = some "/O=Grid/CN=Jane" := by
  have hposing : HasSubject (armour (briefCertificate posingSubject)) posingSubject :=
    hasSubject_brief (by decide) (by decide)
  have hjane : HasSubject (armour (briefCertificate janeSubject)) janeSubject :=
    hasSubject_brief (by decide) (by decide)
  obtain ⟨record, hread, hdn⟩ := hposing.readChain_eq
  obtain ⟨record', hread', hdn'⟩ := hjane.readChain_eq
  have hline : subjectDn janeSubject = "/O=Grid/CN=Jane" := by
    rw [subjectDn_of_isPlain (isPlain_of_equals_not_mem (by decide))]
    decide
  have hcut : Reduces posingSubject janeSubject :=
    .cut [] [] organizationOid "Grid" isType_commonNameOid "Jane"
  rw [hcut.subjectDn_eq, hline] at hdn
  rw [hline] at hdn'
  exact ⟨hposing, hjane, by decide, by decide, by decide, record, record', hread, hread', hdn, hdn'⟩

end Gatehouse.Certificate
