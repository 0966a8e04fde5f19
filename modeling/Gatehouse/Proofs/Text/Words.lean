import Gatehouse.Text.Blank
import Mathlib

/-!
# The words of a text

The words of a text are what stands between its blanks: each is as long as it can be, and all of the
text but the blanks is in one of them.
-/

namespace Gatehouse.Text

variable {c d : Char} {cs rest : List Char} {words : List (List Char)}

inductive HasWords : List Char → List (List Char) → Prop where
  | nil : HasWords [] []
  | blank {c : Char} {cs : List Char} {words : List (List Char)} (hc : isBlank c = true)
      (h : HasWords cs words) : HasWords (c :: cs) words
  /-- A word ends with the text or at a blank. -/
  | word {word cs : List Char} {words : List (List Char)} (hne : word ≠ [])
      (hword : ∀ c ∈ word, isBlank c = false) (hcs : ∀ c ∈ cs.head?, isBlank c = true)
      (h : HasWords cs words) : HasWords (word ++ cs) (word :: words)

theorem HasWords.single {word : List Char} (hne : word ≠ [])
    (hword : ∀ c ∈ word, isBlank c = false) : HasWords word [word] := by
  have h : HasWords (word ++ []) [word] := .word hne hword (by simp) .nil
  rwa [List.append_nil] at h

theorem wordsChars_blank (hc : isBlank c = true) : wordsChars (c :: rest) = wordsChars rest :=
  if_pos hc

theorem wordsChars_end (hc : isBlank c = false) (hrest : ∀ d ∈ rest.head?, isBlank d = true) :
    wordsChars (c :: rest) = [c] :: wordsChars rest := by
  have hnot : ¬ isBlank c = true := by simp [hc]
  refine (if_neg hnot).trans ?_
  cases rest with
  | nil => rfl
  | cons d rest => exact if_pos (hrest d rfl)

theorem wordsChars_more (hc : isBlank c = false) (hd : isBlank d = false) {word : List Char}
    (hrest : wordsChars (d :: rest) = word :: words) :
    wordsChars (c :: d :: rest) = (c :: word) :: words := by
  have hnot : ¬ isBlank c = true := by simp [hc]
  have hnot' : ¬ isBlank d = true := by simp [hd]
  refine (if_neg hnot).trans ((if_neg hnot').trans ?_)
  rw [hrest]

/-- A word ends at the first blank behind it. -/
theorem wordsChars_append {word : List Char} (hne : word ≠ [])
    (hword : ∀ c ∈ word, isBlank c = false) (hrest : ∀ c ∈ rest.head?, isBlank c = true) :
    wordsChars (word ++ rest) = word :: wordsChars rest := by
  induction word with
  | nil => exact absurd rfl hne
  | cons c word ih =>
      obtain ⟨hc, hword⟩ := List.forall_mem_cons.mp hword
      cases word with
      | nil => exact wordsChars_end hc hrest
      | cons d word =>
          have hd := (List.forall_mem_cons.mp hword).1
          exact wordsChars_more hc hd (ih (List.cons_ne_nil _ _) hword)

/-- A character in front of a word is part of it. -/
theorem HasWords.extend (hc : isBlank c = false) (hd : isBlank d = false)
    (h : HasWords (d :: rest) words) :
    ∃ word more, words = word :: more ∧ HasWords (c :: d :: rest) ((c :: word) :: more) := by
  generalize htext : d :: rest = text at h
  cases h with
  | nil => cases htext
  | blank hblank h =>
      cases htext
      rw [hd] at hblank
      cases hblank
  | @word word cs more hne hword hcs h =>
      exact ⟨word, more, rfl,
        .word (List.cons_ne_nil c word) (List.forall_mem_cons.mpr ⟨hc, hword⟩) hcs h⟩

theorem hasWords_wordsChars (cs : List Char) : HasWords cs (wordsChars cs) := by
  induction cs with
  | nil => exact .nil
  | cons c rest ih =>
      cases hc : isBlank c with
      | true =>
          rw [wordsChars_blank hc]
          exact .blank hc ih
      | false =>
          by_cases hrest : ∀ d ∈ rest.head?, isBlank d = true
          · rw [wordsChars_end hc hrest]
            exact .word (List.cons_ne_nil c []) (by simpa using hc) hrest ih
          · cases rest with
            | nil => exact absurd (fun _ hnone => nomatch hnone) hrest
            | cons d rest =>
                have hd : isBlank d = false := by simpa using hrest
                obtain ⟨word, more, hwords, h⟩ := ih.extend hc hd
                rwa [wordsChars_more hc hd hwords]

/-- A text is split into its words, and into nothing else. -/
theorem wordsChars_eq_iff : wordsChars cs = words ↔ HasWords cs words := by
  constructor
  · rintro rfl
    exact hasWords_wordsChars cs
  · intro h
    induction h with
    | nil => rfl
    | blank hc _ ih => rw [wordsChars_blank hc, ih]
    | word hne hword hcs _ ih => rw [wordsChars_append hne hword hcs, ih]

theorem isBlank_of_visible (h : 32 < c.toNat ∧ c.toNat < 127) : isBlank c = false := by
  have hall : ∀ n : Fin 127, 32 < n.val → isBlank (Char.ofNat n) = false := by decide
  have hc := hall ⟨c.toNat, h.2⟩ h.1
  rwa [Char.ofNat_toNat] at hc

end Gatehouse.Text
