/-!
# Splitting at a separator

`splitChars sep` cuts at every occurrence of one character, so a text with `n` separators has
`n + 1` pieces and joining them gives the text back.
-/

namespace Gatehouse.Text

/-- The pieces between the occurrences of `sep`; never empty. -/
def splitChars (sep : Char) : List Char → List (List Char)
  | [] => [[]]
  | c :: rest =>
    if c = sep then [] :: splitChars sep rest
    else
      match splitChars sep rest with
      | [] => [[c]]
      | piece :: more => (c :: piece) :: more

/-- The pieces between the occurrences of `sep`; never empty. -/
def split (sep : Char) (s : String) : List String :=
  (splitChars sep s.toList).map String.ofList

/-- The text before the first `sep` and the text after it. -/
def cut? (sep : Char) : List Char → Option (List Char × List Char)
  | [] => none
  | c :: rest =>
    if c = sep then some ([], rest)
    else (cut? sep rest).map fun (before, after) => (c :: before, after)

/-- What follows `lead`, if the text begins with it. -/
def stripLead? : List Char → List Char → Option (List Char)
  | [], cs => some cs
  | _ :: _, [] => none
  | l :: lead, c :: cs => if l = c then stripLead? lead cs else none

/-- What precedes `tail`, if the text ends with it. -/
def stripTail? (tail cs : List Char) : Option (List Char) :=
  (stripLead? tail.reverse cs.reverse).map List.reverse

/-- The text before the first occurrence of `mark` and the text after it. -/
def cutAt? (mark : List Char) : List Char → Option (List Char × List Char)
  | [] => (stripLead? mark []).map fun rest => ([], rest)
  | c :: cs =>
    match stripLead? mark (c :: cs) with
    | some rest => some ([], rest)
    | none => (cutAt? mark cs).map fun (before, after) => (c :: before, after)

/-- The text before the last occurrence of `mark` and the text after it. -/
def cutAtLast? (mark : List Char) : List Char → Option (List Char × List Char)
  | [] => (stripLead? mark []).map fun rest => ([], rest)
  | c :: cs =>
    match cutAtLast? mark cs with
    | some (before, after) => some (c :: before, after)
    | none => (stripLead? mark (c :: cs)).map fun rest => ([], rest)

def dropLeading (c : Char) (cs : List Char) : List Char :=
  cs.dropWhile (· == c)

def dropTrailing (c : Char) (cs : List Char) : List Char :=
  (dropLeading c cs.reverse).reverse

theorem stripLead?_eq_some {lead cs rest : List Char} (h : stripLead? lead cs = some rest) :
    cs = lead ++ rest := by
  induction lead generalizing cs with
  | nil => simpa [stripLead?] using h
  | cons l lead ih =>
    cases cs with
    | nil => simp [stripLead?] at h
    | cons c cs =>
      by_cases hc : l = c
      · simp only [stripLead?, hc, if_true] at h
        simp [hc, ih h]
      · simp [stripLead?, hc] at h

theorem stripLead?_append (lead rest : List Char) :
    stripLead? lead (lead ++ rest) = some rest := by
  induction lead with
  | nil => rfl
  | cons l lead ih => simp [stripLead?, ih]

theorem cut?_of_not_mem {sep : Char} {cs : List Char} (h : sep ∉ cs) : cut? sep cs = none := by
  induction cs with
  | nil => rfl
  | cons c cs ih =>
      rw [List.mem_cons, not_or] at h
      rw [cut?, if_neg (Ne.symm h.1), ih h.2]
      rfl

theorem cut?_append {sep : Char} {before : List Char} (h : sep ∉ before) (after : List Char) :
    cut? sep (before ++ sep :: after) = some (before, after) := by
  induction before with
  | nil => rw [List.nil_append, cut?, if_pos rfl]
  | cons c before ih =>
      rw [List.mem_cons, not_or] at h
      rw [List.cons_append, cut?, if_neg (Ne.symm h.1), ih h.2]
      rfl

/-- Both cuts take a text apart without losing anything. -/
theorem cutAt?_eq_some {mark cs before after : List Char}
    (h : cutAt? mark cs = some (before, after)) : cs = before ++ mark ++ after := by
  induction cs generalizing before with
  | nil =>
    simp only [cutAt?, Option.map_eq_some_iff, Prod.mk.injEq] at h
    obtain ⟨rest, hrest, rfl, rfl⟩ := h
    simpa using stripLead?_eq_some hrest
  | cons c cs ih =>
    unfold cutAt? at h
    split at h
    · next rest hrest =>
      simp only [Option.some.injEq, Prod.mk.injEq] at h
      obtain ⟨rfl, rfl⟩ := h
      simpa using stripLead?_eq_some hrest
    · simp only [Option.map_eq_some_iff, Prod.mk.injEq, Prod.exists] at h
      obtain ⟨b, a, hcut, rfl, rfl⟩ := h
      simpa using ih hcut

theorem cutAtLast?_eq_some {mark cs before after : List Char}
    (h : cutAtLast? mark cs = some (before, after)) : cs = before ++ mark ++ after := by
  induction cs generalizing before with
  | nil =>
    simp only [cutAtLast?, Option.map_eq_some_iff, Prod.mk.injEq] at h
    obtain ⟨rest, hrest, rfl, rfl⟩ := h
    simpa using stripLead?_eq_some hrest
  | cons c cs ih =>
    unfold cutAtLast? at h
    split at h
    · next b a hcut =>
      simp only [Option.some.injEq, Prod.mk.injEq] at h
      obtain ⟨rfl, rfl⟩ := h
      simpa using ih hcut
    · simp only [Option.map_eq_some_iff, Prod.mk.injEq] at h
      obtain ⟨rest, hrest, rfl, rfl⟩ := h
      simpa using stripLead?_eq_some hrest

end Gatehouse.Text
