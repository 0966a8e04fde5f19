import Gatehouse.Text.Blank
import Mathlib.Data.List.DropRight

/-!
# What trimming leaves

A text is taken apart into a core and the blanks around it, where the core has no blank at its own
ends.  There is one core, and trimming leaves it.
-/

namespace Gatehouse.Text

variable {cs core lead trail : List Char}

def Blanks (cs : List Char) : Prop := ∀ c ∈ cs, isBlank c = true

structure IsTight (cs : List Char) : Prop where
  front : ∀ c ∈ cs.head?, isBlank c = false
  back : ∀ c ∈ cs.getLast?, isBlank c = false

/-- The text is a core with blanks around it, all that there are. -/
structure TrimsTo (cs core : List Char) : Prop where
  around : ∃ lead trail, Blanks lead ∧ Blanks trail ∧ cs = lead ++ core ++ trail
  tight : IsTight core

theorem isTight_nil : IsTight [] := ⟨by simp, by simp⟩

theorem IsTight.trimsTo (h : IsTight cs) : TrimsTo cs cs where
  around := ⟨[], [], List.forall_mem_nil _, List.forall_mem_nil _, by simp⟩
  tight := h

theorem Blanks.trimsTo (h : Blanks cs) : TrimsTo cs [] where
  around := ⟨cs, [], h, List.forall_mem_nil _, by simp⟩
  tight := isTight_nil

/-! ## One end -/

theorem trimStartChars_eq_dropWhile (cs : List Char) :
    trimStartChars cs = cs.dropWhile isBlank := by
  induction cs with
  | nil => rfl
  | cons c cs ih =>
      rw [trimStartChars, ih, List.dropWhile_cons]

theorem trimStartChars_append (hlead : Blanks lead) (cs : List Char) :
    trimStartChars (lead ++ cs) = trimStartChars cs := by
  rw [trimStartChars_eq_dropWhile, trimStartChars_eq_dropWhile,
    List.dropWhile_append_of_pos hlead]

theorem trimStartChars_of_front (h : ∀ c ∈ cs.head?, isBlank c = false) :
    trimStartChars cs = cs := by
  cases cs with
  | nil => rfl
  | cons c cs =>
      have hc : isBlank c = false := h c rfl
      rw [trimStartChars, hc]
      rfl

/-- What is dropped in front is blank, and all of it is dropped. -/
theorem exists_lead (cs : List Char) :
    ∃ lead, Blanks lead ∧ cs = lead ++ trimStartChars cs ∧
      ∀ c ∈ (trimStartChars cs).head?, isBlank c = false := by
  refine ⟨cs.takeWhile isBlank, fun c hc => List.mem_takeWhile_imp hc, ?_, ?_⟩
  · rw [trimStartChars_eq_dropWhile, List.takeWhile_append_dropWhile]
  · intro c hc
    have hstop := List.head?_dropWhile_not isBlank cs
    rw [trimStartChars_eq_dropWhile] at hc
    rwa [Option.mem_def.mp hc] at hstop

/-- A character stays at the end unless it is blank and nothing behind it stays. -/
theorem trimEndChars_cons (c : Char) (cs : List Char) :
    trimEndChars (c :: cs) =
      if trimEndChars cs = [] ∧ isBlank c = true then [] else c :: trimEndChars cs := by
  rw [trimEndChars]
  cases trimEndChars cs with
  | nil => simp
  | cons d kept => simp

/-- Trimming the end is trimming the front of the text read backwards. -/
theorem trimEndChars_eq_reverse (cs : List Char) :
    trimEndChars cs = (trimStartChars cs.reverse).reverse := by
  induction cs with
  | nil => rfl
  | cons c cs ih =>
      rw [trimStartChars_eq_dropWhile] at ih ⊢
      rw [trimEndChars_cons, ih, List.reverse_cons, List.dropWhile_append]
      by_cases hkept : cs.reverse.dropWhile isBlank = []
      · cases hc : isBlank c <;> simp [hkept, hc]
      · simp [hkept]

theorem trimEndChars_append (cs : List Char) (htrail : Blanks trail) :
    trimEndChars (cs ++ trail) = trimEndChars cs := by
  have hreverse : Blanks trail.reverse := fun c hc => htrail c (List.mem_reverse.mp hc)
  rw [trimEndChars_eq_reverse, List.reverse_append, trimStartChars_append hreverse,
    ← trimEndChars_eq_reverse]

theorem trimEndChars_of_back (h : ∀ c ∈ cs.getLast?, isBlank c = false) :
    trimEndChars cs = cs := by
  rw [← List.head?_reverse] at h
  rw [trimEndChars_eq_reverse, trimStartChars_of_front h, List.reverse_reverse]

theorem exists_trail (cs : List Char) :
    ∃ trail, Blanks trail ∧ cs = trimEndChars cs ++ trail ∧
      ∀ c ∈ (trimEndChars cs).getLast?, isBlank c = false := by
  obtain ⟨lead, hlead, hcs, hfront⟩ := exists_lead cs.reverse
  refine ⟨lead.reverse, fun c hc => hlead c (List.mem_reverse.mp hc), ?_, ?_⟩
  · rw [trimEndChars_eq_reverse, ← List.reverse_append, ← hcs, List.reverse_reverse]
  · rwa [trimEndChars_eq_reverse, List.getLast?_reverse]

/-! ## Both ends -/

theorem TrimsTo.trimChars_eq (h : TrimsTo cs core) : trimChars cs = core := by
  obtain ⟨lead, trail, hlead, htrail, rfl⟩ := h.around
  cases core with
  | nil =>
      have hblanks : Blanks (lead ++ trail) := List.forall_mem_append.mpr ⟨hlead, htrail⟩
      have hnone := trimStartChars_append hblanks []
      rw [List.append_nil] at hnone
      rw [List.append_nil, trimChars, hnone]
      rfl
  | cons c core =>
      have hfront : ∀ d ∈ (c :: core ++ trail).head?, isBlank d = false := h.tight.front
      calc trimChars (lead ++ (c :: core) ++ trail)
          = trimEndChars (trimStartChars (lead ++ (c :: core ++ trail))) := by
            rw [List.append_assoc, trimChars]
        _ = trimEndChars (c :: core ++ trail) := by
            rw [trimStartChars_append hlead, trimStartChars_of_front hfront]
        _ = trimEndChars (c :: core) := trimEndChars_append (c :: core) htrail
        _ = c :: core := trimEndChars_of_back h.tight.back

theorem trimsTo_trimChars (cs : List Char) : TrimsTo cs (trimChars cs) := by
  obtain ⟨lead, hlead, hcs, hfront⟩ := exists_lead cs
  obtain ⟨trail, htrail, hkept, hback⟩ := exists_trail (trimStartChars cs)
  refine ⟨⟨lead, trail, hlead, htrail, ?_⟩, ?_, hback⟩
  · calc cs = lead ++ trimStartChars cs := hcs
      _ = lead ++ (trimChars cs ++ trail) := congrArg (lead ++ ·) hkept
      _ = lead ++ trimChars cs ++ trail := (List.append_assoc _ _ _).symm
  · -- The front of what is kept is the front of what was kept before the end was trimmed.
    intro c hc
    apply hfront
    rw [hkept]
    exact List.mem_head?_append_of_mem_head? hc

/-- Trimming leaves the core of a text. -/
theorem trimChars_eq_iff : trimChars cs = core ↔ TrimsTo cs core := by
  constructor
  · rintro rfl
    exact trimsTo_trimChars cs
  · exact TrimsTo.trimChars_eq

theorem trim_eq_iff {s t : String} : trim s = t ↔ TrimsTo s.toList t.toList := by
  rw [← trimChars_eq_iff, trim, ← String.toList_inj, String.toList_ofList]

theorem trim_eq_empty {s : String} (h : Blanks s.toList) : trim s = "" := by
  apply trim_eq_iff.mpr
  rw [String.toList_empty]
  exact h.trimsTo

end Gatehouse.Text
