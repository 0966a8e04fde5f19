import Gatehouse.Proofs.Certificate.Name

/-!
# Attribute types

An identifier stands as one byte for its first arcs and the further arcs in base 128.  Whoever
writes every arc in as few bytes as it takes gets names that tell all types apart.
-/

namespace Gatehouse.Certificate

/-! ## Arcs -/

/-- The bytes of an arc in front of the last one: nothing for zero. -/
def arcFront (n : Nat) : List UInt8 :=
  if n = 0 then [] else arcFront (n / 128) ++ [UInt8.ofNat (n % 128 + 128)]
termination_by n
decreasing_by omega

/-- An arc in base 128, in as few bytes as it takes. -/
def arcBytes (n : Nat) : List UInt8 := arcFront (n / 128) ++ [UInt8.ofNat (n % 128)]

section

variable {acc n : Nat}

/-- A byte that another one follows adds seven bits. -/
theorem oidArcs_more (h : acc * 128 + n % 128 < 2 ^ 64) (rest : List UInt8) :
    oidArcs acc (UInt8.ofNat (n % 128 + 128) :: rest) = oidArcs (acc * 128 + n % 128) rest := by
  have hbyte : (UInt8.ofNat (n % 128 + 128)).toNat = n % 128 + 128 :=
    UInt8.toNat_ofNat_of_lt' (by change _ < 256; omega)
  have hdigit : (acc * 128 + (n % 128 + 128) % 128) % 2 ^ 64 = acc * 128 + n % 128 := by omega
  rw [oidArcs, hbyte]
  simp only [Nat.pow_eq, hdigit]
  rw [if_neg (by omega)]

/-- The last byte of an arc adds seven bits. -/
theorem oidArcs_last (h : acc * 128 + n % 128 < 2 ^ 64) (rest : List UInt8) :
    oidArcs acc (UInt8.ofNat (n % 128) :: rest) = (acc * 128 + n % 128) :: oidArcs 0 rest := by
  have hbyte : (UInt8.ofNat (n % 128)).toNat = n % 128 :=
    UInt8.toNat_ofNat_of_lt' (by change _ < 256; omega)
  have hdigit : (acc * 128 + n % 128 % 128) % 2 ^ 64 = acc * 128 + n % 128 := by omega
  rw [oidArcs, hbyte]
  simp only [Nat.pow_eq, hdigit]
  rw [if_pos (by omega)]

end

theorem oidArcs_front {n : Nat} (h : n < 2 ^ 64) (rest : List UInt8) :
    oidArcs 0 (arcFront n ++ rest) = oidArcs n rest := by
  induction n using Nat.strongRecOn generalizing rest with
  | ind n ih =>
      rw [arcFront]
      split
      · next hzero => rw [hzero, List.nil_append]
      · next hzero =>
          have hdigits : n / 128 * 128 + n % 128 = n := Nat.div_add_mod' n 128
          rw [List.append_assoc, List.singleton_append, ih _ (by omega) (by omega),
            oidArcs_more (by rwa [hdigits]), hdigits]

theorem oidArcs_arcBytes {n : Nat} (h : n < 2 ^ 64) (rest : List UInt8) :
    oidArcs 0 (arcBytes n ++ rest) = n :: oidArcs 0 rest := by
  have hdigits : n / 128 * 128 + n % 128 = n := Nat.div_add_mod' n 128
  rw [arcBytes, List.append_assoc, List.singleton_append, oidArcs_front (by omega),
    oidArcs_last (by rwa [hdigits]), hdigits]

/-- Arcs of 64 bits return. -/
theorem oidArcs_flatMap_arcBytes {arcs : List Nat} (h : ∀ n ∈ arcs, n < 2 ^ 64) :
    oidArcs 0 (arcs.flatMap arcBytes) = arcs := by
  induction arcs with
  | nil => rfl
  | cons n arcs ih =>
      obtain ⟨hfirst, hrest⟩ := List.forall_mem_cons.mp h
      rw [List.flatMap_cons, oidArcs_arcBytes hfirst, ih hrest]

/-! ## Dotted decimals -/

def decimal (arcs : List Nat) : String := ".".intercalate (arcs.map toString)

/-- The pieces between the dots are the numbers. -/
theorem splitOn_decimal {arcs : List Nat} (h : arcs ≠ []) :
    (decimal arcs).toList.splitOn '.' = arcs.map fun n => n.repr.toList := by
  rw [decimal, String.toList_intercalate, List.map_map]
  refine List.splitOn_intercalate '.' (List.forall_mem_map.mpr fun n _ hdot => ?_) ?_
  · change '.' ∈ n.repr.toList at hdot
    rw [Nat.toList_repr] at hdot
    exact absurd (Nat.isDigit_of_mem_toDigits (by decide) (by decide) hdot) (by decide)
  · exact mt List.map_eq_nil_iff.mp h

theorem decimal_inj {arcs arcs' : List Nat} (h : arcs ≠ []) (h' : arcs' ≠ []) :
    decimal arcs = decimal arcs' ↔ arcs = arcs' := by
  constructor
  · intro hsame
    have hpieces : arcs.map (fun n => n.repr.toList) = arcs'.map fun n => n.repr.toList := by
      rw [← splitOn_decimal h, hsame, splitOn_decimal h']
    exact List.map_injective_iff.mpr
      (fun _ _ hrepr => Nat.repr_inj.mp (String.toList_inj.mp hrepr)) hpieces
  · intro hsame
    rw [hsame]

theorem dotted_cons (first : UInt8) (rest : List UInt8) :
    dotted (first :: rest) = decimal (first.toNat / 40 :: first.toNat % 40 :: oidArcs 0 rest) :=
  rfl

/-! ## Identifiers -/

/-- Behind the first byte stand arcs of 64 bits, each in as few bytes as it takes. -/
def IsType (oid : List UInt8) : Prop :=
  ∃ arcs : List Nat, (∀ n ∈ arcs, n < 2 ^ 64) ∧ oid.tail = arcs.flatMap arcBytes

theorem isType_of_mem_shortNames {oid : List UInt8} (h : oid ∈ shortNames.map Prod.fst) :
    IsType oid := by
  simp only [shortNames, List.map_cons, List.map_nil, List.mem_cons, List.not_mem_nil,
    or_false] at h
  obtain rfl | rfl | rfl | rfl | rfl | rfl | rfl | rfl := h
  · exact ⟨[4, 3], by decide, by simp [arcBytes, arcFront]⟩
  · exact ⟨[4, 6], by decide, by simp [arcBytes, arcFront]⟩
  · exact ⟨[4, 7], by decide, by simp [arcBytes, arcFront]⟩
  · exact ⟨[4, 8], by decide, by simp [arcBytes, arcFront]⟩
  · exact ⟨[4, 10], by decide, by simp [arcBytes, arcFront]⟩
  · exact ⟨[4, 11], by decide, by simp [arcBytes, arcFront]⟩
  · exact ⟨[840, 113549, 1, 9, 1], by decide, by simp [arcBytes, arcFront]⟩
  · exact ⟨[2342, 19200300, 100, 1, 25], by decide, by simp [arcBytes, arcFront]⟩

theorem isType_commonNameOid : IsType commonNameOid :=
  isType_of_mem_shortNames (by decide)

theorem dotted_eq_empty_iff {oid : List UInt8} : dotted oid = "" ↔ oid = [] := by
  constructor
  · intro h
    cases oid with
    | nil => rfl
    | cons first rest =>
        have hpieces := splitOn_decimal
          (List.cons_ne_nil (first.toNat / 40) (first.toNat % 40 :: oidArcs 0 rest))
        rw [← dotted_cons, h] at hpieces
        simp at hpieces
  · rintro rfl
    rfl

theorem dotted_injective {oid oid' : List UInt8} (h : IsType oid) (h' : IsType oid')
    (hname : dotted oid = dotted oid') : oid = oid' := by
  cases oid with
  | nil => exact (dotted_eq_empty_iff.mp hname.symm).symm
  | cons first rest =>
      cases oid' with
      | nil => exact dotted_eq_empty_iff.mp hname
      | cons first' rest' =>
          obtain ⟨arcs, harcs, hrest⟩ := h
          obtain ⟨arcs', harcs', hrest'⟩ := h'
          rw [List.tail_cons] at hrest hrest'
          rw [dotted_cons, dotted_cons, decimal_inj (List.cons_ne_nil _ _) (List.cons_ne_nil _ _),
            hrest, hrest', oidArcs_flatMap_arcBytes harcs,
            oidArcs_flatMap_arcBytes harcs'] at hname
          obtain ⟨hquotient, hremainder, rfl⟩ : _ ∧ _ ∧ arcs = arcs' := by
            simpa using hname
          have hfirst : first.toNat = first'.toNat := by omega
          rw [UInt8.toNat_inj.mp hfirst, hrest, hrest']

/-- Every short name has a letter in it, and no dotted identifier has. -/
theorem ne_dotted_of_mem_shortNames {row : List UInt8 × String} (h : row ∈ shortNames)
    (oid : List UInt8) : row.2 ≠ dotted oid := by
  intro hdotted
  have hletter : ∀ row ∈ shortNames, row.2.toList.any fun c => !(c == '.') && !c.isDigit := by
    decide
  obtain ⟨c, hc, hnot⟩ := List.any_eq_true.mp (hletter row h)
  rw [hdotted] at hc
  obtain rfl | hdigit := isDigit_of_mem_dotted hc
  · cases hnot
  · simp [hdigit] at hnot

/-- Types are told apart by what they are called. -/
theorem attributeName_injective {oid oid' : List UInt8} (h : IsType oid) (h' : IsType oid')
    (hname : attributeName oid = attributeName oid') : oid = oid' := by
  have hunique : ∀ row ∈ shortNames, ∀ row' ∈ shortNames,
      row.2 = row'.2 → row.1 = row'.1 := by
    decide +kernel
  obtain hrow | hdotted := attributeName_cases oid
  · obtain hrow' | hdotted' := attributeName_cases oid'
    · exact hunique _ hrow _ hrow' hname
    · exact absurd (hname.trans hdotted') (ne_dotted_of_mem_shortNames hrow oid')
  · obtain hrow' | hdotted' := attributeName_cases oid'
    · exact absurd (hname.symm.trans hdotted) (ne_dotted_of_mem_shortNames hrow' oid)
    · exact dotted_injective h h' (by rw [← hdotted, hname, hdotted'])

end Gatehouse.Certificate
