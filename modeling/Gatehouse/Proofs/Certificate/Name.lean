import Gatehouse.Certificate.Name
import Gatehouse.Proofs.Certificate.Der
import Gatehouse.Proofs.Text.Split
import Gatehouse.Proofs.Text.Utf8

/-!
# Names and their lines

A name is read exactly if its bytes are an encoding of it, whatever the lengths look like.  On its
line the common names of proxies are told from the rest by the slash before them, which none of
them holds; where no text holds one either, the attributes of proxies are what is taken off.
-/

namespace Gatehouse.Certificate

open Der (Encoding Encodings)

/-! ## Reading -/

/-- The contents of an attribute: its type, its text under any tag, and what nobody looks at. -/
inductive EntryForm : NameEntry → List UInt8 → Prop where
  | mk {oid value typeElement textElement : List UInt8} {tag : UInt8}
      (htype : Encoding oidTag oid typeElement) (htext : Encoding tag value textElement)
      (after : List UInt8) : EntryForm ⟨oid, value⟩ (typeElement ++ (textElement ++ after))

theorem readEntry_eq_ok {e : NameEntry} {content : List UInt8} :
    readEntry content = .ok e ↔ EntryForm e content := by
  constructor
  · intro h
    obtain ⟨⟨oid, rest⟩, hexpect, h⟩ := Effect.bind_eq_ok.mp h
    obtain ⟨value, hread, h⟩ := Effect.bind_eq_ok.mp h
    cases h
    obtain ⟨typeElement, htype, rfl⟩ := Der.expect_eq_ok.mp hexpect
    obtain ⟨textElement, htext, rfl⟩ := Der.read_eq_ok.mp hread
    exact .mk htype htext value.rest
  · intro h
    cases h with
    | mk htype htext after =>
        refine Effect.bind_eq_ok.mpr ⟨_, htype.expect_append _, ?_⟩
        exact Effect.bind_eq_ok.mpr ⟨_, htext.read_append after, rfl⟩

/-- The contents of a name: sets of attributes. -/
def NameForm : List (List NameEntry) → List UInt8 → Prop :=
  Encodings setTag (Encodings sequenceTag EntryForm)

/-- A name is read exactly if the bytes are one. -/
theorem readName_eq_ok {entries : List NameEntry} {content : List UInt8} :
    readName content = .ok entries ↔ ∃ sets, NameForm sets content ∧ sets.flatten = entries := by
  have hsets {sets : List (List NameEntry)} :
      Der.each setTag (Der.each sequenceTag readEntry) content = .ok sets ↔
        NameForm sets content :=
    Der.each_eq_ok (Der.each_eq_ok readEntry_eq_ok)
  rw [readName, Effect.map_eq_ok]
  simp only [hsets]

/-! ## Lines -/

structure Attribute where
  oid : List UInt8
  text : String
  deriving DecidableEq, Repr

def Attribute.entry (a : Attribute) : NameEntry := ⟨a.oid, Text.Utf8.encode a.text⟩

def line (attributes : List Attribute) : String :=
  String.join (attributes.map fun a => "/" ++ attributeName a.oid ++ "=" ++ a.text)

/-- The bytes of a text are written as the text. -/
theorem renderName_entries (attributes : List Attribute) :
    renderName (attributes.map Attribute.entry) = line attributes := by
  rw [renderName, line, List.map_map]
  refine congrArg String.join (List.map_congr_left fun a _ => ?_)
  rw [Function.comp_apply, NameEntry.text, Attribute.entry, Text.Utf8.decodeLossy_encode]

theorem line_append (before after : List Attribute) :
    line (before ++ after) = line before ++ line after := by
  rw [line, List.map_append, String.join_append]
  rfl

/-! ## Common names of proxies -/

theorem slash_not_mem_of_isProxyName {name : List Char} (h : isProxyName name = true) :
    '/' ∉ name := by
  intro hslash
  simp only [isProxyName, Bool.or_eq_true, Bool.and_eq_true, beq_iff_eq, List.all_eq_true] at h
  obtain (rfl | rfl) | ⟨-, hdigits⟩ := h
  · revert hslash
    decide
  · revert hslash
    decide
  · exact absurd (hdigits _ hslash) (by decide)

/-- A text that ends in no common name of a proxy. -/
def EndsInNoProxy (dn : List Char) : Prop :=
  ∀ before name, isProxyName name = true → dn ≠ before ++ commonName ++ name

/-- The text is `dn` with common names of proxies behind it, all there are of them. -/
structure Strips (text dn : List Char) (isProxy : Bool) : Prop where
  names : ∃ names : List (List Char), (∀ name ∈ names, isProxyName name = true) ∧
    text = dn ++ names.flatMap (commonName ++ ·) ∧ isProxy = !names.isEmpty
  endsInNoProxy : EndsInNoProxy dn

/-- A proxy's common name at the end is what the text is cut at. -/
theorem cutAtLast?_commonName (before : List Char) {name : List Char}
    (h : isProxyName name = true) :
    Text.cutAtLast? commonName (before ++ commonName ++ name) = some (before, name) :=
  Text.cutAtLast?_append before (by decide) (slash_not_mem_of_isProxyName h)

theorem endsInNoProxy_iff {dn : List Char} : EndsInNoProxy dn ↔
    ∀ before name, Text.cutAtLast? commonName dn = some (before, name) →
      ¬ isProxyName name = true := by
  constructor
  · intro h before name hcut hproxy
    exact h before name hproxy (Text.cutAtLast?_eq_some hcut)
  · rintro h before name hproxy rfl
    exact h before name (cutAtLast?_commonName before hproxy) hproxy

theorem stripProxyChars_append (before : List Char) {name : List Char}
    (h : isProxyName name = true) :
    stripProxyChars (before ++ commonName ++ name) = ((stripProxyChars before).1, true) := by
  rw [stripProxyChars]
  split
  · next hnone =>
      rw [cutAtLast?_commonName before h] at hnone
      cases hnone
  · next hsome =>
      rw [cutAtLast?_commonName before h] at hsome
      cases hsome
      rw [if_pos h]

theorem stripProxyChars_of_endsInNoProxy {dn : List Char} (h : EndsInNoProxy dn) :
    stripProxyChars dn = (dn, false) := by
  rw [stripProxyChars]
  split
  · rfl
  · next before name hcut => rw [if_neg (endsInNoProxy_iff.mp h before name hcut)]

/-- What is taken off are common names of proxies, all there are. -/
theorem strips_stripProxyChars (text : List Char) :
    Strips text (stripProxyChars text).1 (stripProxyChars text).2 := by
  fun_induction stripProxyChars text with
  | case1 dn hnone =>
      refine ⟨⟨[], by simp⟩, endsInNoProxy_iff.mpr fun before name hcut => ?_⟩
      rw [hnone] at hcut
      cases hcut
  | case2 dn before name hcut hproxy ih =>
      obtain ⟨⟨names, hnames, htext, -⟩, hend⟩ := ih
      refine ⟨⟨names ++ [name], ?_, ?_, by simp⟩, hend⟩
      · exact List.forall_mem_append.mpr ⟨hnames, List.forall_mem_singleton.mpr hproxy⟩
      · calc
          dn = before ++ commonName ++ name := Text.cutAtLast?_eq_some hcut
          _ = (stripProxyChars before).1 ++ names.flatMap (commonName ++ ·) ++
              commonName ++ name := by rw [← htext]
          _ = _ := by simp
  | case3 dn before name hcut hnot =>
      refine ⟨⟨[], by simp⟩, endsInNoProxy_iff.mpr fun before' name' hcut' => ?_⟩
      rw [hcut] at hcut'
      cases hcut'
      exact hnot

/-- There is one way to take them off. -/
theorem Strips.eq_stripProxyChars {text dn : List Char} {isProxy : Bool}
    (h : Strips text dn isProxy) : stripProxyChars text = (dn, isProxy) := by
  obtain ⟨⟨names, hnames, rfl, rfl⟩, hend⟩ := h
  induction names using List.reverseRecOn with
  | nil => simpa using stripProxyChars_of_endsInNoProxy hend
  | append_singleton names name ih =>
      obtain ⟨hnames, hname⟩ := List.forall_mem_append.mp hnames
      have hproxy := List.forall_mem_singleton.mp hname
      have htext : dn ++ (names ++ [name]).flatMap (commonName ++ ·) =
          dn ++ names.flatMap (commonName ++ ·) ++ commonName ++ name := by simp
      rw [htext, stripProxyChars_append _ hproxy, ih hnames]
      simp

/-! ## What an attribute type is called -/

theorem mem_intercalate_dot {c : Char} {pieces : List (List Char)}
    (h : c ∈ ['.'].intercalate pieces) : c = '.' ∨ ∃ piece ∈ pieces, c ∈ piece := by
  induction pieces with
  | nil => simp at h
  | cons piece pieces ih =>
      cases pieces with
      | nil => exact .inr ⟨piece, List.mem_cons_self, by simpa using h⟩
      | cons next more =>
          rw [List.intercalate_cons_cons] at h
          simp only [List.append_assoc, List.mem_append, List.mem_singleton] at h
          obtain hpiece | rfl | hmore := h
          · exact .inr ⟨piece, List.mem_cons_self, hpiece⟩
          · exact .inl rfl
          · obtain hdot | ⟨other, hother, hc⟩ := ih hmore
            · exact .inl hdot
            · exact .inr ⟨other, List.mem_cons_of_mem _ hother, hc⟩

/-- A dotted identifier holds dots and digits. -/
theorem isDigit_of_mem_dotted {oid : List UInt8} {c : Char} (h : c ∈ (dotted oid).toList) :
    c = '.' ∨ c.isDigit = true := by
  cases oid with
  | nil => cases h
  | cons first rest =>
      rw [dotted, String.toList_intercalate] at h
      obtain rfl | ⟨piece, hpiece, hc⟩ := mem_intercalate_dot h
      · exact .inl rfl
      · rw [List.map_map] at hpiece
        obtain ⟨n, -, rfl⟩ := List.mem_map.mp hpiece
        change c ∈ n.repr.toList at hc
        rw [Nat.toList_repr] at hc
        exact .inr (Nat.isDigit_of_mem_toDigits (by decide) (by decide) hc)

theorem attributeName_cases (oid : List UInt8) :
    (oid, attributeName oid) ∈ shortNames ∨ attributeName oid = dotted oid := by
  cases hlookup : shortNames.lookup oid with
  | none =>
      right
      rw [attributeName, hlookup]
      rfl
  | some name =>
      left
      obtain ⟨before, after, htable, -⟩ := List.lookup_eq_some_iff.mp hlookup
      rw [attributeName, hlookup, htable]
      exact List.mem_append_right before List.mem_cons_self

/-- It holds neither of the characters around it on the line. -/
theorem attributeName_plain (oid : List UInt8) :
    '/' ∉ (attributeName oid).toList ∧ '=' ∉ (attributeName oid).toList := by
  have hshort : ∀ row ∈ shortNames, '/' ∉ row.2.toList ∧ '=' ∉ row.2.toList := by decide
  obtain hrow | hdotted := attributeName_cases oid
  · exact hshort _ hrow
  · rw [hdotted]
    constructor
    · intro h
      exact absurd (isDigit_of_mem_dotted h) (by decide)
    · intro h
      exact absurd (isDigit_of_mem_dotted h) (by decide)

def commonNameOid : List UInt8 := [0x55, 0x04, 0x03]

/-- Nothing else is called as common names are. -/
theorem attributeName_eq_iff {oid : List UInt8} :
    attributeName oid = "CN" ↔ oid = commonNameOid := by
  constructor
  · intro h
    have hshort : ∀ row ∈ shortNames, row.2 = "CN" → row.1 = commonNameOid := by decide
    obtain hrow | hdotted := attributeName_cases oid
    · exact hshort _ hrow h
    · have hletter : 'C' ∈ (dotted oid).toList := by
        rw [← hdotted, h]
        decide
      exact absurd (isDigit_of_mem_dotted hletter) (by decide)
  · rintro rfl
    rfl

/-! ## Attributes of proxies -/

/-- A common name that a proxy adds, as an attribute. -/
def Attribute.isProxy (a : Attribute) : Bool :=
  a.oid == commonNameOid && isProxyName a.text.toList

theorem toList_line_concat (attributes : List Attribute) (a : Attribute) :
    (line (attributes ++ [a])).toList =
      (line attributes).toList ++ ['/'] ++
        ((attributeName a.oid).toList ++ '=' :: a.text.toList) := by
  rw [line_append, String.toList_append]
  simp [line]

theorem line_concat_of_isProxy (attributes : List Attribute) {a : Attribute}
    (h : a.isProxy = true) :
    (line (attributes ++ [a])).toList =
      (line attributes).toList ++ commonName ++ a.text.toList := by
  obtain ⟨hoid, -⟩ := Bool.and_eq_true_iff.mp h
  rw [toList_line_concat, attributeName_eq_iff.mpr (beq_iff_eq.mp hoid)]
  simp [commonName]

/-- A text without a slash, in an attribute that is none of a proxy, hides no proxy. -/
theorem endsInNoProxy_line_concat (attributes : List Attribute) {a : Attribute}
    (hslash : '/' ∉ a.text.toList) (h : a.isProxy = false) :
    EndsInNoProxy (line (attributes ++ [a])).toList := by
  intro before name hname heq
  obtain ⟨hplain, hequals⟩ := attributeName_plain a.oid
  -- Both sides are cut at their last slash, and what is behind it at the first equals sign.
  have hlast : (attributeName a.oid).toList ++ '=' :: a.text.toList =
      "CN".toList ++ '=' :: name := by
    have hleft : Text.cutAtLast? ['/'] (line (attributes ++ [a])).toList =
        some ((line attributes).toList, (attributeName a.oid).toList ++ '=' :: a.text.toList) := by
      rw [toList_line_concat]
      exact Text.cutAtLast?_append _ List.not_mem_nil (by simp [hplain, hslash])
    have hright : Text.cutAtLast? ['/'] (before ++ commonName ++ name) =
        some (before, "CN".toList ++ '=' :: name) := by
      have hbehind : '/' ∉ "CN".toList ++ '=' :: name := by
        simp [slash_not_mem_of_isProxyName hname]
      have hcut := Text.cutAtLast?_append before List.not_mem_nil hbehind
      simpa [commonName] using hcut
    rw [heq, hright] at hleft
    exact (congrArg Prod.snd (Option.some.inj hleft)).symm
  have hfirst := Text.cut?_append hequals a.text.toList
  rw [hlast, Text.cut?_append (by decide) name] at hfirst
  obtain ⟨htype, htext⟩ := Prod.mk.inj (Option.some.inj hfirst)
  have hoid : a.oid = commonNameOid := attributeName_eq_iff.mp (String.toList_inj.mp htype.symm)
  rw [Attribute.isProxy, hoid, ← htext, hname, beq_self_eq_true] at h
  cases h

/-- The same of a text that holds no common name. -/
theorem endsInNoProxy_line_concat_of_unnamed (attributes : List Attribute) {a : Attribute}
    (htext : ¬ commonName <:+: a.text.toList) (h : a.isProxy = false) :
    EndsInNoProxy (line (attributes ++ [a])).toList := by
  by_cases hslash : '/' ∈ a.text.toList
  · intro before name hname heq
    have hleft : a.text.toList <:+ (line (attributes ++ [a])).toList := by
      refine ⟨(line attributes).toList ++ ['/'] ++ (attributeName a.oid).toList ++ ['='], ?_⟩
      rw [toList_line_concat]
      simp
    have hright : commonName ++ name <:+ (line (attributes ++ [a])).toList := by
      rw [heq, List.append_assoc]
      exact List.suffix_append _ _
    -- The text ends in the common name of the proxy, or is no longer than the name's slash allows.
    obtain hlong | hshort := List.suffix_or_suffix_of_suffix hright hleft
    · exact htext ((List.prefix_append commonName name).isInfix.trans hlong.isInfix)
    · obtain hwhole | htail := List.suffix_cons_iff.mp hshort
      · exact htext ⟨[], name, hwhole.symm⟩
      · have hbehind : '/' ∉ "CN=".toList ++ name := by
          simp [slash_not_mem_of_isProxyName hname]
        exact hbehind (htail.subset hslash)
  · exact endsInNoProxy_line_concat attributes hslash h

/-- Where no text holds a common name, the attributes of proxies at the end are what is taken
off. -/
theorem stripProxyChars_line_of_unnamed {attributes : List Attribute}
    (h : ∀ a ∈ attributes, ¬ commonName <:+: a.text.toList) :
    stripProxyChars (line attributes).toList =
      ((line (attributes.rdropWhile Attribute.isProxy)).toList,
        attributes.getLast?.any Attribute.isProxy) := by
  induction attributes using List.reverseRecOn with
  | nil =>
      refine stripProxyChars_of_endsInNoProxy fun before name _ heq => ?_
      have hlength := congrArg List.length heq
      simp [line, commonName] at hlength
  | append_singleton attributes a ih =>
      obtain ⟨hbefore, hlast⟩ := List.forall_mem_append.mp h
      rw [List.getLast?_concat, Option.any_some]
      cases hproxy : a.isProxy with
      | true =>
          have hname := (Bool.and_eq_true_iff.mp hproxy).2
          rw [line_concat_of_isProxy attributes hproxy, stripProxyChars_append _ hname,
            ih hbefore, List.rdropWhile_concat_pos _ _ _ hproxy]
      | false =>
          have htext := List.forall_mem_singleton.mp hlast
          rw [List.rdropWhile_concat_neg _ _ _ (by rw [hproxy]; exact Bool.false_ne_true)]
          exact stripProxyChars_of_endsInNoProxy
            (endsInNoProxy_line_concat_of_unnamed attributes htext hproxy)

/-- Where no text holds a slash, the attributes of proxies at the end are what is taken off. -/
theorem stripProxyChars_line {attributes : List Attribute}
    (h : ∀ a ∈ attributes, '/' ∉ a.text.toList) :
    stripProxyChars (line attributes).toList =
      ((line (attributes.rdropWhile Attribute.isProxy)).toList,
        attributes.getLast?.any Attribute.isProxy) :=
  stripProxyChars_line_of_unnamed fun a ha hheld =>
    h a ha (hheld.subset List.mem_cons_self)

end Gatehouse.Certificate
