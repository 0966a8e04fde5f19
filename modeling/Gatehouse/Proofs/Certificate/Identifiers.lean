import Gatehouse.Proofs.Certificate.Types
import Mathlib.Data.Nat.Log

/-!
# Object identifiers

An identifier is a root, an arc below it and further arcs.  It is encoded as numbers, the first of
them forty times the root and the arc below it.  Reading takes the first byte for the first number:
of a number that has more bytes the first byte is split into two arcs, and what the others are worth
is read as a third.  So an identifier is written exactly if the arc below its root is less than
forty, and two are written alike where their first numbers begin alike and are followed alike.
-/

namespace Gatehouse.Certificate

/-! ## Identifiers and their encoding -/

/-- An object identifier.  Below the first two roots there are forty arcs, and every number that is
encoded has at most 64 bits. -/
@[ext]
structure ObjectIdentifier where
  root : Nat
  second : Nat
  later : List Nat
  root_le : root ≤ 2
  second_lt : root < 2 → second < 40
  first_lt : 40 * root + second < 2 ^ 64
  later_lt : ∀ n ∈ later, n < 2 ^ 64
  deriving DecidableEq

namespace ObjectIdentifier

variable {o o' : ObjectIdentifier}

def arcs (o : ObjectIdentifier) : List Nat := o.root :: o.second :: o.later

theorem arcs_ne_nil (o : ObjectIdentifier) : o.arcs ≠ [] := List.cons_ne_nil _ _

/-- The number that the root and the arc below it are encoded as. -/
def first (o : ObjectIdentifier) : Nat := 40 * o.root + o.second

def octets (o : ObjectIdentifier) : List UInt8 := (o.first :: o.later).flatMap arcBytes

/-- The first number tells the root and the arc below it. -/
theorem eq_iff_first : o = o' ↔ o.first = o'.first ∧ o.later = o'.later := by
  constructor
  · intro h
    rw [h]
    exact ⟨rfl, rfl⟩
  · intro h
    obtain ⟨hfirst, hlater⟩ := h
    rw [first, first] at hfirst
    have hroot := o.root_le
    have hroot' := o'.root_le
    have hsecond := o.second_lt
    have hsecond' := o'.second_lt
    ext1
    · omega
    · omega
    · exact hlater

end ObjectIdentifier

/-! ## The first digit of a number -/

def leadingDigit (n : Nat) : Nat := n / 128 ^ Nat.log 128 n

/-- What the digits behind the first one are worth. -/
def behindLeading (n : Nat) : Nat := n % 128 ^ Nat.log 128 n

theorem leadingDigit_of_lt {n : Nat} (h : n < 128) : leadingDigit n = n := by
  rw [leadingDigit, Nat.log_of_lt h, Nat.pow_zero, Nat.div_one]

theorem behindLeading_of_lt {n : Nat} (h : n < 128) : behindLeading n = 0 := by
  rw [behindLeading, Nat.log_of_lt h, Nat.pow_zero, Nat.mod_one]

theorem leadingDigit_of_le {n : Nat} (h : 128 ≤ n) :
    leadingDigit n = leadingDigit (n / 128) := by
  rw [leadingDigit, leadingDigit, Nat.log_of_one_lt_of_le (by decide) h, Nat.pow_succ',
    Nat.div_div_eq_div_mul]

theorem behindLeading_of_le {n : Nat} (h : 128 ≤ n) :
    behindLeading n = behindLeading (n / 128) * 128 + n % 128 := by
  rw [behindLeading, behindLeading, Nat.log_of_one_lt_of_le (by decide) h, Nat.pow_succ',
    Nat.mod_mul, Nat.mul_comm, Nat.add_comm]

theorem leadingDigit_lt (n : Nat) : leadingDigit n < 128 := by
  apply Nat.div_lt_of_lt_mul
  rw [← Nat.pow_succ]
  exact Nat.lt_pow_succ_log_self (by decide) n

/-- The bytes in front of the last one begin with the first digit, and the others are worth what
stands behind it. -/
theorem arcFront_eq_cons {n : Nat} (hpos : 0 < n) (h : n < 2 ^ 64) :
    ∃ tail, arcFront n = UInt8.ofNat (leadingDigit n + 128) :: tail ∧
      ∀ rest, oidArcs 0 (tail ++ rest) = oidArcs (behindLeading n) rest := by
  induction n using Nat.strongRecOn with
  | ind n ih =>
      rw [arcFront, if_neg (by omega)]
      by_cases hsmall : n < 128
      · rw [leadingDigit_of_lt hsmall, behindLeading_of_lt hsmall, Nat.div_eq_of_lt hsmall,
          Nat.mod_eq_of_lt hsmall, arcFront, if_pos rfl, List.nil_append]
        exact ⟨[], rfl, fun rest => rfl⟩
      · have hlarge : 128 ≤ n := by omega
        obtain ⟨tail, hfront, htail⟩ := ih (n / 128) (by omega) (by omega) (by omega)
        refine ⟨tail ++ [UInt8.ofNat (n % 128 + 128)], ?_, fun rest => ?_⟩
        · rw [hfront, leadingDigit_of_le hlarge, List.cons_append]
        · have hbehind : behindLeading n ≤ n := Nat.mod_le _ _
          rw [behindLeading_of_le hlarge] at hbehind ⊢
          rw [List.append_assoc, List.singleton_append, htail,
            oidArcs_more (Nat.lt_of_le_of_lt hbehind h)]

theorem arcBytes_of_lt {n : Nat} (h : n < 128) : arcBytes n = [UInt8.ofNat n] := by
  rw [arcBytes, Nat.div_eq_of_lt h, Nat.mod_eq_of_lt h, arcFront, if_pos rfl, List.nil_append]

theorem arcBytes_of_le {n : Nat} (hlarge : 128 ≤ n) (h : n < 2 ^ 64) :
    ∃ tail, arcBytes n = UInt8.ofNat (leadingDigit n + 128) :: tail ∧
      ∀ rest, oidArcs 0 (tail ++ rest) = behindLeading n :: oidArcs 0 rest := by
  obtain ⟨tail, hfront, htail⟩ := arcFront_eq_cons (n := n / 128) (by omega) (by omega)
  refine ⟨tail ++ [UInt8.ofNat (n % 128)], ?_, fun rest => ?_⟩
  · rw [arcBytes, hfront, leadingDigit_of_le hlarge, List.cons_append]
  · have hbehind : behindLeading n ≤ n := Nat.mod_le _ _
    rw [behindLeading_of_le hlarge] at hbehind ⊢
    rw [List.append_assoc, List.singleton_append, htail,
      oidArcs_last (Nat.lt_of_le_of_lt hbehind h)]

/-! ## The arcs that are read -/

namespace ObjectIdentifier

variable {o o' : ObjectIdentifier}

def readArcs (o : ObjectIdentifier) : List Nat :=
  if o.first < 128 then
    o.first / 40 :: o.first % 40 :: o.later
  else
    (leadingDigit o.first + 128) / 40 :: (leadingDigit o.first + 128) % 40 ::
      behindLeading o.first :: o.later

theorem readArcs_ne_nil (o : ObjectIdentifier) : o.readArcs ≠ [] := by
  rw [readArcs]
  split
  · exact List.cons_ne_nil _ _
  · exact List.cons_ne_nil _ _

theorem dotted_octets (o : ObjectIdentifier) : dotted o.octets = decimal o.readArcs := by
  rw [octets, List.flatMap_cons, readArcs]
  split
  · next hsmall =>
      have hbyte : (UInt8.ofNat o.first).toNat = o.first :=
        UInt8.toNat_ofNat_of_lt' (by change _ < 256; omega)
      rw [arcBytes_of_lt hsmall, List.singleton_append, dotted_cons, hbyte,
        oidArcs_flatMap_arcBytes o.later_lt]
  · next hlarge =>
      have hbyte : (UInt8.ofNat (leadingDigit o.first + 128)).toNat = leadingDigit o.first + 128 :=
        UInt8.toNat_ofNat_of_lt' (by have := leadingDigit_lt o.first; change _ < 256; omega)
      obtain ⟨tail, hbytes, htail⟩ := arcBytes_of_le (Nat.not_lt.mp hlarge) o.first_lt
      rw [hbytes, List.cons_append, dotted_cons, hbyte, htail, oidArcs_flatMap_arcBytes o.later_lt]

/-- The arcs are read as they are where there are less than forty below the root, and else they are
not those of any identifier. -/
theorem readArcs_eq_iff : o.readArcs = o'.arcs ↔ o' = o ∧ o.second < 40 := by
  have hroot := o.root_le
  have hroot' := o'.root_le
  have hsecond := o.second_lt
  have hfirst : o.first = 40 * o.root + o.second := rfl
  rw [readArcs, arcs]
  split
  · next hsmall =>
      rw [List.cons.injEq, List.cons.injEq]
      constructor
      · intro h
        obtain ⟨hquotient, hremainder, hlater⟩ := h
        have hfirst' : o'.first = 40 * o'.root + o'.second := rfl
        exact ⟨eq_iff_first.mpr ⟨by omega, hlater.symm⟩, by omega⟩
      · intro h
        obtain ⟨rfl, hbelow⟩ := h
        exact ⟨by omega, by omega, rfl⟩
  · next hlarge =>
      -- The first arc that is read is more than any root.
      constructor
      · intro h
        have hquotient := (List.cons.inj h).1
        omega
      · intro h
        omega

/-- Two encodings begin with the same byte of several, and the bytes that follow it are read
alike. -/
structure LooksLike (o o' : ObjectIdentifier) : Prop where
  long : 128 ≤ o.first
  long' : 128 ≤ o'.first
  leading : leadingDigit o.first = leadingDigit o'.first
  behind : behindLeading o.first = behindLeading o'.first
  later : o.later = o'.later

theorem readArcs_eq_readArcs_iff : o.readArcs = o'.readArcs ↔ o = o' ∨ LooksLike o o' := by
  constructor
  · intro h
    rw [readArcs, readArcs] at h
    -- The first two arcs make up the first byte, and its high bit tells whether there are more.
    split at h
    · next hsmall =>
        split at h
        · next hsmall' =>
            obtain ⟨hquotient, hremainder, hlater⟩ : _ ∧ _ ∧ o.later = o'.later := by
              simpa using h
            exact .inl (eq_iff_first.mpr ⟨by omega, hlater⟩)
        · next hlarge' =>
            obtain ⟨hquotient, hremainder, -⟩ : _ ∧ _ ∧ o.later = _ := by
              simpa using h
            omega
    · next hlarge =>
        split at h
        · next hsmall' =>
            obtain ⟨hquotient, hremainder, -⟩ : _ ∧ _ ∧ _ = o'.later := by
              simpa using h
            omega
        · next hlarge' =>
            obtain ⟨hquotient, hremainder, hbehind, hlater⟩ :
                _ ∧ _ ∧ behindLeading o.first = behindLeading o'.first ∧ o.later = o'.later := by
              simpa using h
            exact .inr ⟨by omega, by omega, by omega, hbehind, hlater⟩
  · intro h
    obtain rfl | h := h
    · rfl
    · rw [readArcs, readArcs, if_neg (Nat.not_lt.mpr h.long), if_neg (Nat.not_lt.mpr h.long'),
        h.leading, h.behind, h.later]

end ObjectIdentifier

/-! ## Names of types -/

theorem attributeName_of_unnamed {oid : List UInt8} (h : oid ∉ shortNames.map Prod.fst) :
    attributeName oid = dotted oid := by
  obtain hrow | hdotted := attributeName_cases oid
  · exact absurd (List.mem_map_of_mem hrow) h
  · exact hdotted

/-- A type without a short name is called by the arcs that are read.  They are those of an
identifier only if they are its own and there are less than forty below the root, they are never a
short name, and two types are called alike exactly if they are the same or begin and go on alike. -/
theorem types_below_forty_are_called_by_their_arcs (o : ObjectIdentifier)
    (hunnamed : o.octets ∉ shortNames.map Prod.fst) :
    attributeName o.octets = decimal o.readArcs ∧
      (∀ o' : ObjectIdentifier, attributeName o.octets = decimal o'.arcs ↔
        o' = o ∧ o.second < 40) ∧
      (∀ row ∈ shortNames, attributeName o.octets ≠ row.2) ∧
      ∀ o' : ObjectIdentifier, o'.octets ∉ shortNames.map Prod.fst →
        (attributeName o.octets = attributeName o'.octets ↔ o = o' ∨ o.LooksLike o') := by
  rw [attributeName_of_unnamed hunnamed]
  refine ⟨o.dotted_octets, fun o' => ?_, fun row hrow => ?_, fun o' hunnamed' => ?_⟩
  · rw [o.dotted_octets, decimal_inj o.readArcs_ne_nil o'.arcs_ne_nil]
    exact ObjectIdentifier.readArcs_eq_iff
  · exact (ne_dotted_of_mem_shortNames hrow o.octets).symm
  · rw [attributeName_of_unnamed hunnamed', o.dotted_octets, o'.dotted_octets,
      decimal_inj o.readArcs_ne_nil o'.readArcs_ne_nil]
    exact ObjectIdentifier.readArcs_eq_readArcs_iff

def userId : ObjectIdentifier where
  root := 0
  second := 9
  later := [2342, 19200300, 100, 1, 1]
  root_le := by decide
  second_lt := by decide
  first_lt := by decide
  later_lt := by decide

theorem octets_userId :
    userId.octets = [0x09, 0x92, 0x26, 0x89, 0x93, 0xF2, 0x2C, 0x64, 0x01, 0x01] := by
  simp [ObjectIdentifier.octets, ObjectIdentifier.first, userId, arcBytes, arcFront]

/-- An arc right below the last root. -/
def jointArc (second : UInt32) : ObjectIdentifier where
  root := 2
  second := second.toNat
  later := []
  root_le := le_rfl
  second_lt := fun hroot => absurd hroot (Nat.lt_irrefl 2)
  first_lt := by
    have hbound := second.toNat_lt
    omega
  later_lt := List.forall_mem_nil _

theorem octets_jointArc_999 : (jointArc 999).octets = [0x88, 0x37] := by
  simp [ObjectIdentifier.octets, ObjectIdentifier.first, jointArc, arcBytes, arcFront]

theorem userId_is_called_by_its_arcs :
    userId.octets ∉ shortNames.map Prod.fst ∧
      (jointArc 999).octets ∉ shortNames.map Prod.fst ∧
      attributeName userId.octets = "0.9.2342.19200300.100.1.1" ∧
      (∀ row ∈ shortNames, attributeName userId.octets ≠ row.2) ∧
      attributeName userId.octets ≠ attributeName (jointArc 999).octets := by
  have hunnamed : userId.octets ∉ shortNames.map Prod.fst := by
    rw [octets_userId]
    decide
  have hunnamed' : (jointArc 999).octets ∉ shortNames.map Prod.fst := by
    rw [octets_jointArc_999]
    decide
  obtain ⟨-, hown, hshort, halike⟩ := types_below_forty_are_called_by_their_arcs userId hunnamed
  refine ⟨hunnamed, hunnamed', (hown userId).mpr ⟨rfl, by decide⟩, hshort, fun hsame => ?_⟩
  obtain hidentifier | hlooks := (halike _ hunnamed').mp hsame
  · exact absurd (congrArg ObjectIdentifier.root hidentifier) (by decide)
  · exact absurd hlooks.long (by decide)

/-- The arc for examples is not called by its arcs, and two others below the same root are called
alike. -/
theorem jointArcs_are_called_by_other_arcs :
    (jointArc 999).octets ∉ shortNames.map Prod.fst ∧
      decimal (jointArc 999).arcs = "2.999" ∧
      attributeName (jointArc 999).octets = "3.16.55" ∧
      jointArc 49 ≠ jointArc 16305 ∧
      (jointArc 49).octets ∉ shortNames.map Prod.fst ∧
      (jointArc 16305).octets ∉ shortNames.map Prod.fst ∧
      attributeName (jointArc 49).octets = "3.9.1" ∧
      attributeName (jointArc 16305).octets = "3.9.1" := by
  have hone : (jointArc 49).octets = [0x81, 0x01] := by
    simp [ObjectIdentifier.octets, ObjectIdentifier.first, jointArc, arcBytes, arcFront]
  have hother : (jointArc 16305).octets = [0x81, 0x80, 0x01] := by
    simp [ObjectIdentifier.octets, ObjectIdentifier.first, jointArc, arcBytes, arcFront]
  rw [octets_jointArc_999, hone, hother]
  exact ⟨by decide, by decide, by decide, by decide, by decide, by decide, by decide, by decide⟩

end Gatehouse.Certificate
