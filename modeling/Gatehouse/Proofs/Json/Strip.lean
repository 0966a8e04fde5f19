import Gatehouse.Json.Diagnostics

/-!
# Stripped values

Stripping a value removes its diagnostic members at every depth, and nothing else: a value without
any is left as it is.
-/

namespace Gatehouse.Json

mutual

/-- No diagnostic member is left at any depth. -/
theorem hasDiagnostics_strip (value : Json) : value.strip.hasDiagnostics = false := by
  cases value with
  | obj members =>
      rw [strip, hasDiagnostics]
      exact membersHaveDiagnostics_stripMembers members
  | arr items =>
      rw [strip, hasDiagnostics]
      exact itemsHaveDiagnostics_stripItems items
  | _ => simp [strip, hasDiagnostics]

theorem itemsHaveDiagnostics_stripItems (items : List Json) :
    itemsHaveDiagnostics (stripItems items) = false := by
  cases items with
  | nil => simp [stripItems, itemsHaveDiagnostics]
  | cons item rest =>
      rw [stripItems, itemsHaveDiagnostics, hasDiagnostics_strip item,
        itemsHaveDiagnostics_stripItems rest]
      rfl

theorem membersHaveDiagnostics_stripMembers (members : List (String × Json)) :
    membersHaveDiagnostics (stripMembers members) = false := by
  cases members with
  | nil => simp [stripMembers, membersHaveDiagnostics]
  | cons member rest =>
      obtain ⟨name, value⟩ := member
      have hrest := membersHaveDiagnostics_stripMembers rest
      rw [stripMembers]
      by_cases hname : isDiagnostic name
      · rwa [if_pos hname]
      · rw [if_neg hname, membersHaveDiagnostics, hasDiagnostics_strip value, hrest]
        simpa using hname

end

mutual

/-- A value without diagnostic members stays as it is. -/
theorem strip_of_clean (value : Json) (h : value.hasDiagnostics = false) :
    value.strip = value := by
  cases value with
  | obj members =>
      rw [hasDiagnostics] at h
      rw [strip, stripMembers_of_clean members h]
  | arr items =>
      rw [hasDiagnostics] at h
      rw [strip, stripItems_of_clean items h]
  | _ => simp [strip]

theorem stripItems_of_clean (items : List Json) (h : itemsHaveDiagnostics items = false) :
    stripItems items = items := by
  cases items with
  | nil => simp [stripItems]
  | cons item rest =>
      simp only [itemsHaveDiagnostics, Bool.or_eq_false_iff] at h
      rw [stripItems, strip_of_clean item h.1, stripItems_of_clean rest h.2]

theorem stripMembers_of_clean (members : List (String × Json))
    (h : membersHaveDiagnostics members = false) : stripMembers members = members := by
  cases members with
  | nil => simp [stripMembers]
  | cons member rest =>
      obtain ⟨name, value⟩ := member
      simp only [membersHaveDiagnostics, Bool.or_eq_false_iff] at h
      obtain ⟨⟨hname, hvalue⟩, hrest⟩ := h
      rw [stripMembers, if_neg (by simp [hname]), strip_of_clean value hvalue,
        stripMembers_of_clean rest hrest]

end

/-- Stripping once is enough. -/
@[simp]
theorem strip_strip (value : Json) : value.strip.strip = value.strip :=
  strip_of_clean value.strip (hasDiagnostics_strip value)

end Gatehouse.Json
