import Gatehouse.Proofs.Certificate.Name

/-!
# Identities behind proxies

A text is taken apart into an identity and the common names that proxies have added behind it.  None
of these names holds the slash which the next one begins with, so there is one way to do it, and the
identity that is left ends in no common name of a proxy.
-/

namespace Gatehouse.Certificate

/-! ## Names of proxies -/

/-- The common names that proxies add: two words, and all numbers. -/
inductive ProxyName : String → Prop where
  | proxy : ProxyName "proxy"
  | limitedProxy : ProxyName "limited proxy"
  | number {name : String} (hsome : name ≠ "") (hdigits : ∀ c ∈ name.toList, '0' ≤ c ∧ c ≤ '9') :
      ProxyName name

theorem isProxyName_iff {name : String} : isProxyName name.toList = true ↔ ProxyName name := by
  simp only [isProxyName, Bool.or_eq_true, Bool.and_eq_true, beq_iff_eq, String.toList_inj,
    Bool.not_eq_true', List.isEmpty_eq_false_iff, List.all_eq_true, Char.isDigit_iff_toNat]
  have hsome : name.toList ≠ [] ↔ name ≠ "" := not_congr String.toList_eq_nil_iff
  constructor
  · intro h
    obtain (rfl | rfl) | ⟨hname, hdigits⟩ := h
    · exact .proxy
    · exact .limitedProxy
    · exact .number (hsome.mp hname) hdigits
  · intro h
    cases h with
    | proxy => exact .inl (.inl rfl)
    | limitedProxy => exact .inl (.inr rfl)
    | number hname hdigits => exact .inr ⟨hsome.mpr hname, hdigits⟩

/-! ## Taking names off -/

/-- The text is the base with common names of proxies behind it, all that there are. -/
structure TakenApart (text base : String) (names : List String) : Prop where
  proxies : ∀ name ∈ names, ProxyName name
  text : text = base ++ String.join (names.map fun name => "/CN=" ++ name)
  whole : ∀ front name, ProxyName name → base ≠ front ++ "/CN=" ++ name

theorem toList_join_commonNames (names : List String) :
    (String.join (names.map fun name => "/CN=" ++ name)).toList =
      (names.map String.toList).flatMap (commonName ++ ·) := by
  induction names with
  | nil => rfl
  | cons name names ih =>
      rw [List.map_cons, String.join_cons, String.toList_append, ih, List.map_cons,
        List.flatMap_cons, String.toList_append]
      rfl

theorem endsInNoProxy_toList {base : String} : EndsInNoProxy base.toList ↔
    ∀ front name, ProxyName name → base ≠ front ++ "/CN=" ++ name := by
  constructor
  · intro h front name hname hbase
    apply h front.toList name.toList (isProxyName_iff.mpr hname)
    rw [hbase, String.toList_append, String.toList_append]
    rfl
  · intro h front name hname hbase
    have hproxy : ProxyName (String.ofList name) := by
      rwa [← isProxyName_iff, String.toList_ofList]
    apply h (String.ofList front) (String.ofList name) hproxy
    rw [← String.toList_inj, hbase]
    simp [commonName]

theorem takenApart_iff {text base : String} {names : List String} :
    TakenApart text base names ↔ (∀ name ∈ names.map String.toList, isProxyName name = true) ∧
      text.toList = base.toList ++ (names.map String.toList).flatMap (commonName ++ ·) ∧
      EndsInNoProxy base.toList := by
  rw [List.forall_mem_map, ← toList_join_commonNames, ← String.toList_append, String.toList_inj,
    endsInNoProxy_toList]
  simp only [isProxyName_iff]
  exact ⟨fun h => ⟨h.proxies, h.text, h.whole⟩, fun h => ⟨h.1, h.2.1, h.2.2⟩⟩

/-- What is taken off, and whether anything is, is told by the names behind the base. -/
theorem TakenApart.stripProxy_eq {text base : String} {names : List String}
    (h : TakenApart text base names) : stripProxy text = (base, !names.isEmpty) := by
  obtain ⟨hproxies, htext, hwhole⟩ := takenApart_iff.mp h
  have hstrips : Strips text.toList base.toList (!(names.map String.toList).isEmpty) :=
    ⟨⟨names.map String.toList, hproxies, htext, rfl⟩, hwhole⟩
  rw [stripProxy, hstrips.eq_stripProxyChars]
  simp

theorem exists_takenApart (text : String) : ∃ names, TakenApart text (stripProxy text).1 names := by
  obtain ⟨⟨names, hproxies, htext, -⟩, hwhole⟩ := strips_stripProxyChars text.toList
  have hnames : (names.map String.ofList).map String.toList = names :=
    Text.map_toList_ofList names
  refine ⟨names.map String.ofList, takenApart_iff.mpr ?_⟩
  rw [hnames]
  change _ ∧ text.toList = (String.ofList (stripProxyChars text.toList).1).toList ++ _ ∧
    EndsInNoProxy (String.ofList (stripProxyChars text.toList).1).toList
  rw [String.toList_ofList]
  exact ⟨hproxies, htext, hwhole⟩

/-! ## One way to take them off -/

/-- Common names of proxies are told apart where one stands behind the other. -/
theorem commonNames_injective {names names' : List (List Char)}
    (h : ∀ name ∈ names, isProxyName name = true) (h' : ∀ name ∈ names', isProxyName name = true)
    (hsame : names.flatMap (commonName ++ ·) = names'.flatMap (commonName ++ ·)) :
    names = names' := by
  induction names using List.reverseRecOn generalizing names' with
  | nil =>
      cases names' with
      | nil => rfl
      | cons name' names' => cases hsame
  | append_singleton names name ih =>
      cases names' using List.reverseRecOn with
      | nil => simp [commonName] at hsame
      | append_singleton names' name' =>
          obtain ⟨hnames, hlast⟩ := List.forall_mem_append.mp h
          obtain ⟨hnames', hlast'⟩ := List.forall_mem_append.mp h'
          have hname : isProxyName name = true := hlast name List.mem_cons_self
          have hname' : isProxyName name' = true := hlast' name' List.mem_cons_self
          -- Both texts are cut at the last common name in them.
          have hcut := cutAtLast?_commonName (names.flatMap (commonName ++ ·)) hname
          have hcut' := cutAtLast?_commonName (names'.flatMap (commonName ++ ·)) hname'
          simp only [List.flatMap_append, List.flatMap_singleton, ← List.append_assoc] at hsame
          rw [hsame, hcut'] at hcut
          obtain ⟨hfront, rfl⟩ := Prod.mk.inj (Option.some.inj hcut)
          rw [ih hnames hnames' hfront.symm]

theorem TakenApart.names_unique {text base : String} {names names' : List String}
    (h : TakenApart text base names) (h' : TakenApart text base names') : names = names' := by
  obtain ⟨hproxies, htext, -⟩ := takenApart_iff.mp h
  obtain ⟨hproxies', htext', -⟩ := takenApart_iff.mp h'
  have hsame := List.append_cancel_left (htext.symm.trans htext')
  exact List.map_injective_iff.mpr (fun _ _ => String.toList_inj.mp)
    (commonNames_injective hproxies hproxies' hsame)

/-- Stripping takes off all common names of proxies behind a text and nothing else: there is one way
to take the text apart, and it is the one that stripping goes.  It reports whether there was a name,
and finds none in what is left. -/
theorem proxies_are_taken_off (dn : String) :
    ∃ names, (∀ base names',
        TakenApart dn base names' ↔ base = (stripProxy dn).1 ∧ names' = names) ∧
      ((stripProxy dn).2 = true ↔ names ≠ []) ∧
      stripProxy (stripProxy dn).1 = ((stripProxy dn).1, false) := by
  obtain ⟨names, hapart⟩ := exists_takenApart dn
  refine ⟨names, fun base names' => ⟨fun h => ?_, ?_⟩, ?_, ?_⟩
  · have hbase : base = (stripProxy dn).1 := by rw [h.stripProxy_eq]
    subst hbase
    exact ⟨rfl, h.names_unique hapart⟩
  · rintro ⟨rfl, rfl⟩
    exact hapart
  · rw [hapart.stripProxy_eq]
    simp
  · have hleft : TakenApart (stripProxy dn).1 (stripProxy dn).1 [] :=
      ⟨List.forall_mem_nil _, String.append_empty.symm, hapart.whole⟩
    exact hleft.stripProxy_eq

end Gatehouse.Certificate
