import Gatehouse.Text.AsciiCase
import Mathlib

/-!
# Words in any case

A word is compared with a text in lower case.  That accepts the spellings of the word, in which some
of its letters stand as capitals, and nothing else.
-/

namespace Gatehouse.Text

/-- A text is a spelling of a word if some of the word's letters may stand in it as capitals. -/
def IsSpelling (word text : String) : Prop :=
  List.Forall₂ (fun letter c => c = letter ∨ c.isUpper ∧ letter.toNat = c.toNat + 32)
    word.toList text.toList

theorem toLower_eq_iff {c letter : Char} (h : letter.isUpper = false) :
    c.toLower = letter ↔ c = letter ∨ c.isUpper ∧ letter.toNat = c.toNat + 32 := by
  by_cases hupper : c.isUpper
  · have hne : c ≠ letter := by
      rintro rfl
      rw [hupper] at h
      cases h
    have hrange : c.toNat ≤ 90 := by
      simp only [Char.isUpper, UInt32.le_iff_toNat_le, decide_eq_true_eq] at hupper
      exact hupper.2
    have hnat : (Char.ofNat (c.toNat + 32)).toNat = c.toNat + 32 := by
      rw [Char.toNat_ofNat, if_pos (Or.inl (by omega))]
    rw [Char.toLower_eq_of_isUpper hupper, ← Char.toNat_inj, hnat]
    constructor
    · exact fun heq => .inr ⟨hupper, heq.symm⟩
    · rintro (heq | ⟨-, heq⟩)
      · exact absurd heq hne
      · exact heq.symm
  · rw [Char.toLower_eq_of_not_isUpper hupper]
    constructor
    · exact .inl
    · rintro (heq | ⟨hcapital, -⟩)
      · exact heq
      · exact absurd hcapital hupper

/-- The texts that come to a word in lower case are its spellings. -/
theorem lowerAscii_eq_iff {word : String} (h : ∀ letter ∈ word.toList, letter.isUpper = false)
    (text : String) : lowerAscii text = word ↔ IsSpelling word text := by
  rw [lowerAscii, ← String.toList_inj, String.toList_ofList, IsSpelling]
  generalize word.toList = letters at h
  induction text.toList generalizing letters with
  | nil => cases letters <;> simp
  | cons c cs ih =>
      cases letters with
      | nil => simp
      | cons letter letters =>
          have hletter := toLower_eq_iff (c := c) (h letter List.mem_cons_self)
          have hletters := ih letters fun other hother =>
            h other (List.mem_cons_of_mem letter hother)
          rw [List.map_cons, List.cons_eq_cons, List.forall₂_cons, hletter, hletters]

end Gatehouse.Text
