import Gatehouse.Text.Upper
import Mathlib

/-!
# Upper case is stable

A text in upper case has no other upper-case form, so names that are compared by it may be put into
upper case any number of times.  That rests on a fact about the tables: no capital that they name
has itself a capital.  The tables name some fifteen hundred letters; their code points are collected
as the bits of two numbers, and that the numbers share no bit is one computation.
-/

namespace Gatehouse.Text

/-! ## Code points as bits -/

/-- The number whose bits are the members of a list. -/
def bits (points : List Nat) : Nat := points.foldr (fun n rest => 1 <<< n ||| rest) 0

theorem testBit_bits (points : List Nat) (n : Nat) :
    (bits points).testBit n = true ↔ n ∈ points := by
  induction points with
  | nil => simp [bits]
  | cons first rest ih =>
      have hfirst : (1 <<< first).testBit n = true ↔ n = first := by
        rw [Nat.one_shiftLeft, Nat.testBit_two_pow, decide_eq_true_eq, eq_comm]
      rw [bits, List.foldr_cons, Nat.testBit_or, Bool.or_eq_true, hfirst, List.mem_cons]
      exact or_congr_right ih

theorem not_mem_of_bits_disjoint {points others : List Nat} (h : bits points &&& bits others = 0)
    {n : Nat} (hn : n ∈ others) : n ∉ points := by
  intro hmem
  have hboth : (bits points &&& bits others).testBit n = true := by
    rw [Nat.testBit_and, (testBit_bits points n).mpr hmem, (testBit_bits others n).mpr hn]
    rfl
  rw [h, Nat.zero_testBit] at hboth
  cases hboth

/-! ## What the tables name -/

def runMembers : Nat × Nat × Nat × Int → List Nat
  | (first, count, step, _) => (List.range count).map fun j => first + step * j

def runCapitals (run : Nat × Nat × Nat × Int) : List Nat :=
  (runMembers run).map fun n : Nat => ((n : Int) + run.2.2.2).toNat

/-- The letters that have an upper-case form of their own. -/
def smallLetters : List Nat :=
  (List.range 26).map (97 + ·) ++ (upperExpansions.map Prod.fst ++ upperRuns.flatMap runMembers)

def capitals : List Nat :=
  upperExpansions.flatMap Prod.snd ++ upperRuns.flatMap runCapitals

theorem capitals_not_small {n : Nat} (h : n ∈ capitals) : n ∉ smallLetters :=
  not_mem_of_bits_disjoint (by decide +kernel) h

theorem isValidChar_capitals : ∀ n ∈ capitals, n.isValidChar := by
  decide +kernel

theorem toNat_capital {n : Nat} (h : n ∈ capitals) : (Char.ofNat n).toNat = n := by
  rw [Char.toNat_ofNat, if_pos (isValidChar_capitals n h)]

theorem run_positive : ∀ run ∈ upperRuns, 0 < run.2.1 ∧ 0 < run.2.2.1 := by
  decide +kernel

/-- A code point that a run covers is one of its members. -/
theorem mem_runMembers {run : Nat × Nat × Nat × Int} (h : run ∈ upperRuns) {n : Nat}
    (hcovers : (run.1 ≤ n && n ≤ run.1 + run.2.2.1 * (run.2.1 - 1) &&
      (n - run.1) % run.2.2.1 == 0) = true) : n ∈ runMembers run := by
  obtain ⟨hcount, hstep⟩ := run_positive run h
  obtain ⟨first, count, step, distance⟩ := run
  simp only [Bool.and_eq_true, decide_eq_true_eq, beq_iff_eq] at hcount hstep hcovers
  obtain ⟨⟨hfirst, hlast⟩, hspaced⟩ := hcovers
  obtain ⟨more, rfl⟩ : ∃ more, count = more + 1 := ⟨count - 1, by omega⟩
  refine List.mem_map.mpr ⟨(n - first) / step, List.mem_range.mpr ?_, ?_⟩
  · rw [Nat.div_lt_iff_lt_mul hstep, Nat.succ_mul, Nat.mul_comm]
    rw [Nat.add_sub_cancel] at hlast
    omega
  · have hdiv := Nat.div_add_mod (n - first) step
    omega

theorem runCapital?_eq_some {n capital : Nat} (h : runCapital? n = some capital) :
    capital ∈ capitals := by
  rw [runCapital?, Option.map_eq_some_iff] at h
  obtain ⟨run, hfind, hcapital⟩ := h
  have hrun : run ∈ upperRuns := List.mem_of_find?_eq_some hfind
  have hmember : n ∈ runMembers run := mem_runMembers hrun (by simpa using List.find?_some hfind)
  exact List.mem_append_right _ (List.mem_flatMap.mpr
    ⟨run, hrun, List.mem_map.mpr ⟨n, hmember, hcapital⟩⟩)

theorem runCapital?_eq_none {n : Nat} (h : n ∉ smallLetters) : runCapital? n = none := by
  rw [runCapital?, Option.map_eq_none_iff, List.find?_eq_none]
  intro run hrun hcovers
  have hmember : n ∈ runMembers run := mem_runMembers hrun (by simpa using hcovers)
  exact h (List.mem_append_right _ (List.mem_append_right _
    (List.mem_flatMap.mpr ⟨run, hrun, hmember⟩)))

theorem lookup_expansions_eq_some {n : Nat} {letters : List Nat}
    (h : upperExpansions.lookup n = some letters) : ∀ letter ∈ letters, letter ∈ capitals := by
  intro letter hletter
  obtain ⟨before, after, hentries, -⟩ := List.lookup_eq_some_iff.mp h
  refine List.mem_append_left _ (List.mem_flatMap.mpr ⟨(n, letters), ?_, hletter⟩)
  rw [hentries]
  exact List.mem_append_right _ List.mem_cons_self

theorem lookup_expansions_eq_none {n : Nat} (h : n ∉ smallLetters) :
    upperExpansions.lookup n = none := by
  rw [List.lookup_eq_none_iff]
  intro entry hentry
  rw [bne_iff_ne]
  rintro rfl
  exact h (List.mem_append_right _ (List.mem_append_left _ (List.mem_map_of_mem hentry)))

/-! ## Characters and texts -/

/-- A character that is no small letter is its own upper-case form. -/
theorem upperChar_of_not_small {c : Char} (h : c.toNat ∉ smallLetters) : upperChar c = [c] := by
  have hlower : ¬ c.isLower := by
    intro hlower
    simp only [Char.isLower, UInt32.le_iff_toNat_le, Bool.and_eq_true, decide_eq_true_eq] at hlower
    have hrange : 97 ≤ c.toNat ∧ c.toNat ≤ 122 := hlower
    exact h (List.mem_append_left _ (List.mem_map.mpr
      ⟨c.toNat - 97, List.mem_range.mpr (by omega), by omega⟩))
  rw [upperChar, lookup_expansions_eq_none h, runCapital?_eq_none h,
    Char.toUpper_eq_of_not_isLower hlower]
  exact ite_self _

theorem upperChar_capital {n : Nat} (h : n ∈ capitals) :
    upperChar (Char.ofNat n) = [Char.ofNat n] := by
  refine upperChar_of_not_small ?_
  rw [toNat_capital h]
  exact capitals_not_small h

/-- A character is its own upper-case form, or that form is made of capitals. -/
theorem upperChar_eq_or_capital {c d : Char} (h : d ∈ upperChar c) :
    upperChar c = [c] ∨ d.isUpper = true ∨ d.toNat ∈ capitals := by
  have hcapital : ∀ n ∈ capitals, (Char.ofNat n).toNat ∈ capitals := by
    intro n hn
    rwa [toNat_capital hn]
  -- The letters of the alphabet are not in the tables, so they are taken apart first.
  by_cases hascii : c.toNat < 0x80
  · rw [upperChar, if_pos hascii] at h ⊢
    by_cases hlower : c.isLower = true
    · have hupper : c.toUpper.isUpper = true := by
        rw [Char.isUpper_toUpper_eq_isAlpha, Char.isAlpha, hlower, Bool.or_true]
      exact .inr (.inl (List.mem_singleton.mp h ▸ hupper))
    · exact .inl (congrArg (fun e => [e]) (Char.toUpper_eq_of_not_isLower hlower))
  · rw [upperChar, if_neg hascii] at h ⊢
    cases hlookup : upperExpansions.lookup c.toNat with
    | some letters =>
        simp only [hlookup, List.mem_map] at h
        obtain ⟨letter, hletter, rfl⟩ := h
        exact .inr (.inr (hcapital letter (lookup_expansions_eq_some hlookup letter hletter)))
    | none =>
        cases hrun : runCapital? c.toNat with
        | some capital =>
            simp only [hlookup, hrun, Option.map_some, Option.getD_some, List.mem_singleton] at h
            exact .inr (.inr (h ▸ hcapital capital (runCapital?_eq_some hrun)))
        | none => exact .inl rfl

/-- The upper-case form of a character is in upper case. -/
theorem upperChar_of_mem {c d : Char} (h : d ∈ upperChar c) : upperChar d = [d] := by
  obtain hsame | hupper | hcapital := upperChar_eq_or_capital h
  · rw [hsame, List.mem_singleton] at h
    rwa [h]
  · have hupper' : 65 ≤ d.toNat ∧ d.toNat ≤ 90 := by
      simpa [Char.isUpper, UInt32.le_iff_toNat_le] using hupper
    have hlower : ¬ d.isLower = true := by
      simp only [Char.isLower, UInt32.le_iff_toNat_le, Bool.and_eq_true, decide_eq_true_eq]
      exact fun h => absurd (show 97 ≤ d.toNat from h.1) (by omega)
    rw [upperChar, if_pos (by omega), Char.toUpper_eq_of_not_isLower hlower]
  · have hd := upperChar_capital hcapital
    rwa [Char.ofNat_toNat] at hd

/-- No upper-case form holds an underscore but that of the underscore. -/
theorem underscore_not_mem_upperChar {c : Char} (h : c ≠ '_') : '_' ∉ upperChar c := by
  have hnone : '_'.toNat ∉ capitals := by
    decide +kernel
  intro hmem
  obtain hsame | hupper | hcapital := upperChar_eq_or_capital hmem
  · rw [hsame, List.mem_singleton] at hmem
    exact h hmem.symm
  · exact absurd hupper (by decide)
  · exact hnone hcapital

/-- A text in upper case stays as it is. -/
theorem upper_upper (s : String) : upper (upper s) = upper s := by
  rw [upper, upper, String.toList_ofList, List.flatMap_assoc]
  congr 1
  refine List.flatMap_congr fun c _ => ?_
  rw [List.flatMap_congr fun d hd => upperChar_of_mem hd]
  exact List.flatMap_singleton' _

end Gatehouse.Text
