import Gatehouse.Table
import Mathlib

/-!
# What is found in a table

In a table that is made of pairs the last pair of a name counts.  The bindings of such a table are in
the order of their names, so what is found in it is what it holds.
-/

namespace Gatehouse.Table

variable {α : Type u} {name : String} {value : α} {pairs table : List (String × α)}

/-! ## The last pair of a name -/

/-- Of the pairs of a name, the last has a value. -/
def LastBound (pairs : List (String × α)) (name : String) (value : α) : Prop :=
  ∃ before after, pairs = before ++ (name, value) :: after ∧ ∀ later ∈ after, later.1 ≠ name

theorem lastBound_or_unbound (pairs : List (String × α)) (name : String) :
    (∃ value, LastBound pairs name value) ∨ ∀ pair ∈ pairs, pair.1 ≠ name := by
  induction pairs with
  | nil => exact .inr (List.forall_mem_nil _)
  | cons first rest ih =>
      obtain ⟨value, before, after, rfl, hafter⟩ | hrest := ih
      · exact .inl ⟨value, first :: before, after, rfl, hafter⟩
      · by_cases hfirst : first.1 = name
        · subst hfirst
          exact .inl ⟨first.2, [], rest, rfl, hrest⟩
        · exact .inr (List.forall_mem_cons.mpr ⟨hfirst, hrest⟩)

theorem LastBound.mem (h : LastBound pairs name value) : (name, value) ∈ pairs := by
  obtain ⟨before, after, rfl, -⟩ := h
  exact List.mem_append_right _ List.mem_cons_self

/-- The names that have a last value are those that occur. -/
theorem exists_lastBound_iff :
    (∃ value, LastBound pairs name value) ↔ name ∈ pairs.map Prod.fst := by
  constructor
  · rintro ⟨value, h⟩
    exact List.mem_map_of_mem h.mem
  · intro h
    obtain ⟨pair, hpair, hname⟩ := List.mem_map.mp h
    obtain hbound | hunbound := lastBound_or_unbound pairs name
    · exact hbound
    · exact absurd hname (hunbound pair hpair)

/-- In pairs that are made from names in order, the last of a key is made from the greatest. -/
theorem lastBound_filterMap_iff {names : List String} (h : names.Pairwise (· < ·))
    {pair? : String → Option (String × α)} {key : String} :
    LastBound (names.filterMap pair?) key value ↔
      ∃ name ∈ names, pair? name = some (key, value) ∧
        ∀ other ∈ names, ∀ later, pair? other = some (key, later) → other ≤ name := by
  constructor
  · rintro ⟨before, after, hpairs, hafter⟩
    obtain ⟨front, back, rfl, -, hback⟩ := List.filterMap_eq_append_iff.mp hpairs
    obtain ⟨passed, name, behind, rfl, hpassed, hname, rfl⟩ := List.filterMap_eq_cons_iff.mp hback
    refine ⟨name, by simp, hname, fun other hother later hlater => ?_⟩
    -- Names in front are smaller, and no other name has a pair of the key.
    simp only [List.mem_append, List.mem_cons] at hother
    obtain hfront | hskipped | rfl | hbehind := hother
    · exact ((List.pairwise_append.mp h).2.2 other hfront name (by simp)).le
    · rw [hpassed other hskipped] at hlater
      cases hlater
    · exact le_rfl
    · exact absurd rfl (hafter _ (List.mem_filterMap.mpr ⟨other, hbehind, hlater⟩))
  · rintro ⟨name, hmem, hname, hgreatest⟩
    obtain ⟨front, behind, rfl⟩ := List.append_of_mem hmem
    refine ⟨front.filterMap pair?, behind.filterMap pair?, ?_, ?_⟩
    · rw [List.filterMap_append, List.filterMap_cons_some hname]
    · rintro ⟨_, later⟩ hpair rfl
      obtain ⟨other, hother, hpair⟩ := List.mem_filterMap.mp hpair
      have hle := hgreatest other (by simp [hother]) later hpair
      have hlt := (List.pairwise_cons.mp (List.pairwise_append.mp h).2.1).1 other hother
      exact absurd hlt (not_lt.mpr hle)

theorem get?_extend_of_unbound (h : ∀ pair ∈ pairs, pair.1 ≠ name) (table : Table α) :
    get? name (extend table pairs) = get? name table := by
  induction pairs generalizing table with
  | nil => rfl
  | cons first rest ih =>
      obtain ⟨hfirst, hrest⟩ := List.forall_mem_cons.mp h
      exact (ih hrest _).trans (get?_insert_of_ne hfirst.symm _ _)

theorem LastBound.get? (h : LastBound pairs name value) :
    get? name (ofList pairs) = some value := by
  obtain ⟨before, after, rfl, hafter⟩ := h
  rw [ofList, List.foldl_append, List.foldl_cons]
  exact (get?_extend_of_unbound hafter _).trans (get?_insert_self _ _ _)

theorem get?_ofList_of_unbound (h : ∀ pair ∈ pairs, pair.1 ≠ name) :
    get? name (ofList pairs) = none :=
  get?_extend_of_unbound h []

theorem get?_ofList_eq_some_iff : get? name (ofList pairs) = some value ↔
    LastBound pairs name value := by
  refine ⟨fun h => ?_, LastBound.get?⟩
  obtain ⟨other, hbound⟩ | hunbound := lastBound_or_unbound pairs name
  · obtain rfl := Option.some.inj (hbound.get?.symm.trans h)
    exact hbound
  · rw [get?_ofList_of_unbound hunbound] at h
    cases h

theorem extend_ofList (pairs extra : List (String × α)) :
    extend (ofList pairs) extra = ofList (pairs ++ extra) :=
  List.foldl_append.symm

theorem mem_of_get? (h : get? name pairs = some value) : (name, value) ∈ pairs := by
  induction pairs with
  | nil => cases h
  | cons first rest ih =>
      rw [get?] at h
      split at h
      · next hname =>
          obtain rfl := Option.some.inj h
          subst hname
          exact List.mem_cons_self
      · exact List.mem_cons_of_mem first (ih h)

theorem get?_map {β : Type u} (f : α → β) (name : String) (pairs : List (String × α)) :
    get? name (pairs.map fun pair => (pair.1, f pair.2)) = (get? name pairs).map f := by
  induction pairs with
  | nil => rfl
  | cons first rest ih =>
      rw [List.map_cons, get?, get?]
      split
      · rfl
      · exact ih

theorem get?_filter (keep : String → Bool) (name : String) (pairs : List (String × α)) :
    get? name (pairs.filter fun pair => keep pair.1) =
      if keep name then get? name pairs else none := by
  induction pairs with
  | nil => exact (ite_self none).symm
  | cons first rest ih =>
      rw [List.filter_cons]
      by_cases hname : first.1 = name
      · subst hname
        cases hkeep : keep first.1 with
        | true =>
            rw [if_pos rfl, if_pos rfl, get?, get?, if_pos rfl, if_pos rfl]
        | false =>
            rw [hkeep] at ih
            exact ih
      · have hpassed (more : List (String × α)) : get? name (first :: more) = get? name more :=
          if_neg hname
        rw [hpassed, ← ih]
        split
        · exact hpassed _
        · rfl

theorem unbound_of_get?_eq_none (h : get? name pairs = none) :
    ∀ pair ∈ pairs, pair.1 ≠ name := by
  induction pairs with
  | nil => exact List.forall_mem_nil _
  | cons first rest ih =>
      rw [get?] at h
      split at h
      · cases h
      · next hname => exact List.forall_mem_cons.mpr ⟨hname, ih h⟩

/-- Among pairs of different names, what is found of a name is the value of its pair. -/
theorem get?_eq_some_iff_of_nodup (h : (pairs.map Prod.fst).Nodup) :
    get? name pairs = some value ↔ (name, value) ∈ pairs := by
  induction pairs with
  | nil => simp [get?]
  | cons first rest ih =>
      obtain ⟨hfirst, hrest⟩ := List.nodup_cons.mp h
      rw [get?, List.mem_cons]
      by_cases hname : first.1 = name
      · subst hname
        have hnot : (first.1, value) ∉ rest := fun hmem =>
          hfirst (List.mem_map.mpr ⟨_, hmem, rfl⟩)
        simp [hnot, Prod.ext_iff, eq_comm]
      · have hne : (name, value) ≠ first := fun heq => hname (heq ▸ rfl)
        simp only [hname, if_false, hne, false_or, ih hrest]

theorem get?_ofList_of_nodup (h : (pairs.map Prod.fst).Nodup) :
    get? name (ofList pairs) = some value ↔ (name, value) ∈ pairs := by
  rw [get?_ofList_eq_some_iff]
  refine ⟨LastBound.mem, fun hmem => ?_⟩
  obtain ⟨before, after, rfl⟩ := List.append_of_mem hmem
  refine ⟨before, after, rfl, fun later hlater hname => ?_⟩
  rw [List.map_append, List.map_cons] at h
  have hafter := (List.nodup_cons.mp (List.nodup_append.mp h).2.1).1
  exact hafter (List.mem_map.mpr ⟨later, hlater, hname⟩)

theorem get?_ofList_eq_of_nodup (h : (pairs.map Prod.fst).Nodup) (name : String) :
    get? name (ofList pairs) = get? name pairs := by
  apply Option.ext
  intro value
  rw [get?_ofList_of_nodup h, get?_eq_some_iff_of_nodup h]

/-! ## Order -/

def Ordered (table : Table α) : Prop := table.Pairwise fun a b => a.1 < b.1

instance (table : Table α) : Decidable (Ordered table) :=
  inferInstanceAs (Decidable (List.Pairwise _ table))

theorem ordered_of_names (names : List String) (hnames : table.map Prod.fst = names)
    (h : names.Pairwise (· < ·)) : Ordered table := by
  subst hnames
  exact List.pairwise_map.mp h

theorem mem_insert {binding : String × α} (h : binding ∈ insert name value table) :
    binding = (name, value) ∨ binding ∈ table := by
  induction table with
  | nil => exact .inl (List.mem_singleton.mp h)
  | cons first rest ih =>
      rw [insert] at h
      split at h
      · exact List.mem_cons.mp h
      · split at h
        · exact (List.mem_cons.mp h).imp_right (List.mem_cons_of_mem _)
        · obtain rfl | hrest := List.mem_cons.mp h
          · exact .inr List.mem_cons_self
          · exact (ih hrest).imp_right (List.mem_cons_of_mem _)

theorem nodup_insert (h : (table.map Prod.fst).Nodup) (hnew : get? name table = none)
    (value : α) : ((insert name value table).map Prod.fst).Nodup := by
  replace hnew := unbound_of_get?_eq_none hnew
  induction table with
  | nil => exact List.nodup_singleton name
  | cons first rest ih =>
      obtain ⟨hfirst, hrest⟩ := List.forall_mem_cons.mp hnew
      obtain ⟨hfresh, hnodup⟩ := List.nodup_cons.mp h
      rw [insert]
      split
      · refine List.nodup_cons.mpr ⟨fun hmem => ?_, h⟩
        obtain ⟨binding, hbinding, hname⟩ := List.mem_map.mp hmem
        exact hnew binding hbinding hname
      · split
        · next heq => exact absurd heq.symm hfirst
        · refine List.nodup_cons.mpr ⟨fun hmem => ?_, ih hnodup hrest⟩
          obtain ⟨binding, hbinding, hname⟩ := List.mem_map.mp hmem
          obtain rfl | hbinding := mem_insert hbinding
          · exact hfirst hname.symm
          · exact hfresh (List.mem_map.mpr ⟨binding, hbinding, hname⟩)

theorem Ordered.insert (h : Ordered table) (name : String) (value : α) :
    Ordered (insert name value table) := by
  induction table with
  | nil => exact List.pairwise_singleton _ _
  | cons first rest ih =>
      obtain ⟨hfirst, hrest⟩ := List.pairwise_cons.mp h
      rw [Table.insert]
      split
      · next hlt =>
          refine List.pairwise_cons.mpr ⟨List.forall_mem_cons.mpr ⟨hlt, ?_⟩, h⟩
          exact fun later hlater => hlt.trans (hfirst later hlater)
      · next hnot =>
          split
          · next heq =>
              exact List.pairwise_cons.mpr ⟨fun later hlater => heq ▸ hfirst later hlater, hrest⟩
          · next hne =>
              refine List.pairwise_cons.mpr ⟨fun later hlater => ?_, ih hrest⟩
              obtain rfl | hmem := mem_insert hlater
              · exact lt_of_le_of_ne (not_lt.mp hnot) (Ne.symm hne)
              · exact hfirst later hmem

theorem ordered_ofList (pairs : List (String × α)) : Ordered (ofList pairs) := by
  rw [ofList]
  have hnil : Ordered ([] : Table α) := List.Pairwise.nil
  generalize [] = table at hnil
  induction pairs generalizing table with
  | nil => exact hnil
  | cons first rest ih => exact ih _ (hnil.insert first.1 first.2)

/-- A name behind all others is bound behind them. -/
theorem insert_of_last (h : ∀ binding ∈ table, binding.1 < name) (value : α) :
    insert name value table = table ++ [(name, value)] := by
  induction table with
  | nil => rfl
  | cons first rest ih =>
      obtain ⟨hfirst, hrest⟩ := List.forall_mem_cons.mp h
      rw [Table.insert, if_neg (lt_asymm hfirst), if_neg hfirst.ne', ih hrest]
      rfl

theorem Ordered.nodup_names (h : Ordered table) : (table.map Prod.fst).Nodup :=
  List.pairwise_map.mpr (h.imp fun hlt => hlt.ne)

theorem Ordered.mem_iff (h : Ordered table) :
    (name, value) ∈ table ↔ get? name table = some value :=
  (get?_eq_some_iff_of_nodup h.nodup_names).symm

theorem mem_of_mem_ofList {binding : String × α} (h : binding ∈ ofList pairs) :
    binding ∈ pairs :=
  (get?_ofList_eq_some_iff.mp ((ordered_ofList pairs).mem_iff.mp h)).mem

theorem mem_names_ofList : name ∈ names (ofList pairs) ↔ name ∈ pairs.map Prod.fst := by
  rw [← exists_lastBound_iff, names, List.mem_map]
  constructor
  · rintro ⟨⟨_, value⟩, hmem, rfl⟩
    exact ⟨value, get?_ofList_eq_some_iff.mp ((ordered_ofList pairs).mem_iff.mp hmem)⟩
  · rintro ⟨value, h⟩
    exact ⟨(name, value), (ordered_ofList pairs).mem_iff.mpr h.get?, rfl⟩

/-- Tables in which the same is found are the same. -/
theorem Ordered.ext {other : Table α} (h : Ordered table) (hother : Ordered other)
    (hfound : ∀ name value, get? name table = some value ↔ get? name other = some value) :
    table = other := by
  have hperm : table.Perm other := by
    apply (List.perm_ext_iff_of_nodup h.nodup_names.of_map hother.nodup_names.of_map).mpr
    rintro ⟨name, value⟩
    rw [h.mem_iff, hother.mem_iff, hfound]
  exact hperm.eq_of_pairwise (fun a b _ _ hab hba => absurd hab (lt_asymm hba)) h hother

/-- The order of pairs makes no difference if no name occurs twice. -/
theorem ofList_eq_of_perm {other : List (String × α)} (hperm : pairs.Perm other)
    (h : (pairs.map Prod.fst).Nodup) : ofList pairs = ofList other := by
  apply (ordered_ofList pairs).ext (ordered_ofList other)
  intro name value
  have hother : (other.map Prod.fst).Nodup := (hperm.map Prod.fst).nodup_iff.mp h
  rw [get?_ofList_of_nodup h, get?_ofList_of_nodup hother, hperm.mem_iff]

/-- What is kept of a table by name may as well be kept of its pairs. -/
theorem filter_ofList (h : (pairs.map Prod.fst).Nodup) (keep : String → Bool) :
    (ofList pairs).filter (fun pair => keep pair.1) =
      ofList (pairs.filter fun pair => keep pair.1) := by
  have hordered := ordered_ofList pairs
  have hkept : ((pairs.filter fun pair => keep pair.1).map Prod.fst).Nodup :=
    (List.filter_sublist.map Prod.fst).nodup h
  apply Ordered.ext (List.Pairwise.filter _ hordered) (ordered_ofList _)
  intro name value
  calc get? name ((ofList pairs).filter fun pair => keep pair.1) = some value
      ↔ (name, value) ∈ (ofList pairs).filter fun pair => keep pair.1 :=
        (Ordered.mem_iff (List.Pairwise.filter _ hordered)).symm
    _ ↔ (name, value) ∈ pairs.filter fun pair => keep pair.1 := by
        rw [List.mem_filter, List.mem_filter, hordered.mem_iff, get?_ofList_of_nodup h]
    _ ↔ get? name (ofList (pairs.filter fun pair => keep pair.1)) = some value :=
        (get?_ofList_of_nodup hkept).symm

theorem Ordered.ofList_eq (h : Ordered table) : ofList table = table := by
  apply (ordered_ofList table).ext h
  intro name value
  rw [get?_ofList_of_nodup h.nodup_names, h.mem_iff]

end Gatehouse.Table
