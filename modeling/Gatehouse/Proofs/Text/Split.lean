import Gatehouse.Text.Split

/-!
# Cutting at a mark, at separators and at the ends

A text is cut at the first occurrence of a mark, and not at all where the mark does not occur.  A
mark whose first character occurs nowhere in a text is not found in it, so that a text is cut at the
mark that is known to be the first or the last one.  Pieces between separators are joined to the
text again, so that a text which begins with the pieces of another begins with the other.  Copies of
a character at an end are taken off all at once, so that nothing is left to take off.
-/

namespace Gatehouse.Text

theorem stripLead?_of_ne {c d : Char} (h : c ≠ d) (mark cs : List Char) :
    stripLead? (c :: mark) (d :: cs) = none := by
  rw [stripLead?, if_neg h]

/-! ## The first mark -/

section

variable {c : Char} {mark : List Char}

theorem cutAt?_of_not_mem {cs : List Char} (h : c ∉ cs) : cutAt? (c :: mark) cs = none := by
  induction cs with
  | nil => rfl
  | cons d cs ih =>
      rw [List.mem_cons, not_or] at h
      obtain ⟨hne, hrest⟩ := h
      rw [cutAt?, stripLead?_of_ne hne, ih hrest]
      rfl

/-- A text is cut at its first mark. -/
theorem cutAt?_append {before : List Char} (h : c ∉ before) (after : List Char) :
    cutAt? (c :: mark) (before ++ c :: mark ++ after) = some (before, after) := by
  induction before with
  | nil =>
      have hlead := stripLead?_append (c :: mark) after
      rw [List.nil_append, List.cons_append, cutAt?]
      rw [List.cons_append] at hlead
      rw [hlead]
  | cons d before ih =>
      rw [List.mem_cons, not_or] at h
      obtain ⟨hne, hrest⟩ := h
      have hcut := ih hrest
      rw [List.append_assoc] at hcut
      rw [List.append_assoc, List.cons_append, cutAt?, stripLead?_of_ne hne, hcut]
      rfl

end

/-! ## What a cut finds -/

section

variable {mark cs before after : List Char}

/-- The text is cut at the first occurrence of the mark in it. -/
structure FirstCut (mark cs before after : List Char) : Prop where
  whole : cs = before ++ mark ++ after
  first : ∀ before' after', cs = before' ++ mark ++ after' → before.length ≤ before'.length

theorem stripLead?_eq_none_iff : stripLead? mark cs = none ↔ ¬ mark <+: cs := by
  constructor
  · rintro h ⟨rest, rfl⟩
    rw [stripLead?_append] at h
    cases h
  · intro h
    cases hlead : stripLead? mark cs with
    | none => rfl
    | some rest => exact absurd ⟨rest, (stripLead?_eq_some hlead).symm⟩ h

theorem cutAt?_eq_none_iff : cutAt? mark cs = none ↔ ¬ mark <:+: cs := by
  induction cs with
  | nil =>
      rw [cutAt?, Option.map_eq_none_iff, stripLead?_eq_none_iff, List.infix_nil,
        List.prefix_nil]
  | cons c cs ih =>
      rw [List.infix_cons_iff, not_or, ← ih, ← stripLead?_eq_none_iff, cutAt?]
      cases stripLead? mark (c :: cs) with
      | none => simp
      | some rest => simp

theorem FirstCut.unique {before' after' : List Char} (h : FirstCut mark cs before after)
    (h' : FirstCut mark cs before' after') : before = before' ∧ after = after' := by
  have hlength : before.length = before'.length :=
    Nat.le_antisymm (h.first _ _ h'.whole) (h'.first _ _ h.whole)
  have hsame := h.whole.symm.trans h'.whole
  rw [List.append_assoc, List.append_assoc] at hsame
  obtain ⟨hbefore, hrest⟩ := List.append_inj hsame hlength
  exact ⟨hbefore, List.append_cancel_left hrest⟩

theorem firstCut_of_cutAt? (h : cutAt? mark cs = some (before, after)) :
    FirstCut mark cs before after := by
  refine ⟨cutAt?_eq_some h, ?_⟩
  intro before' after' hcs
  induction cs generalizing before before' with
  | nil =>
      obtain ⟨_, -, hsame⟩ := Option.map_eq_some_iff.mp h
      cases hsame
      exact Nat.zero_le _
  | cons c cs ih =>
      rw [cutAt?] at h
      split at h
      · cases h
        exact Nat.zero_le _
      · next hlead =>
          obtain ⟨⟨front, behind⟩, hcut, hsame⟩ := Option.map_eq_some_iff.mp h
          cases hsame
          cases before' with
          | nil => exact absurd ⟨after', hcs.symm⟩ (stripLead?_eq_none_iff.mp hlead)
          | cons d before' =>
              obtain ⟨-, hrest⟩ := List.cons_eq_cons.mp hcs
              exact Nat.succ_le_succ (ih hcut before' hrest)

theorem cutAt?_eq_some_iff :
    cutAt? mark cs = some (before, after) ↔ FirstCut mark cs before after := by
  refine ⟨firstCut_of_cutAt?, fun h => ?_⟩
  cases hcut : cutAt? mark cs with
  | none => exact absurd ⟨before, after, h.whole.symm⟩ (cutAt?_eq_none_iff.mp hcut)
  | some parts =>
      obtain ⟨hbefore, hafter⟩ := (firstCut_of_cutAt? hcut).unique h
      rw [← hbefore, ← hafter]

end

/-! ## The last mark -/

section

variable {c : Char} {mark : List Char}

theorem cutAtLast?_of_not_mem {cs : List Char} (h : c ∉ cs) :
    cutAtLast? (c :: mark) cs = none := by
  induction cs with
  | nil => rfl
  | cons d cs ih =>
      rw [List.mem_cons, not_or] at h
      obtain ⟨hne, hrest⟩ := h
      rw [cutAtLast?, ih hrest]
      change (stripLead? (c :: mark) (d :: cs)).map _ = none
      rw [stripLead?_of_ne hne]
      rfl

/-- A text is cut at its last mark, which is one behind whose first character that character does
not occur again. -/
theorem cutAtLast?_append (before : List Char) {after : List Char} (hmark : c ∉ mark)
    (hafter : c ∉ after) :
    cutAtLast? (c :: mark) (before ++ c :: mark ++ after) = some (before, after) := by
  induction before with
  | nil =>
      have hlead := stripLead?_append (c :: mark) after
      have hrest : c ∉ mark ++ after := by
        rw [List.mem_append, not_or]
        exact ⟨hmark, hafter⟩
      rw [List.cons_append] at hlead
      rw [List.nil_append, List.cons_append, cutAtLast?, cutAtLast?_of_not_mem hrest]
      change (stripLead? (c :: mark) (c :: (mark ++ after))).map _ = _
      rw [hlead]
      rfl
  | cons d before ih => rw [List.cons_append, List.cons_append, cutAtLast?, ih]

end

/-- What is found behind a front is found with the front before it. -/
theorem cutAtLast?_behind {mark cs before after : List Char}
    (h : cutAtLast? mark cs = some (before, after)) (front : List Char) :
    cutAtLast? mark (front ++ cs) = some (front ++ before, after) := by
  induction front with
  | nil => exact h
  | cons c front ih => rw [List.cons_append, cutAtLast?, ih, List.cons_append]

theorem cutAtLast?_eq_none_iff {mark cs : List Char} :
    cutAtLast? mark cs = none ↔ ¬ mark <:+: cs := by
  induction cs with
  | nil =>
      rw [cutAtLast?, Option.map_eq_none_iff, stripLead?_eq_none_iff, List.infix_nil,
        List.prefix_nil]
  | cons c cs ih =>
      rw [List.infix_cons_iff, not_or, ← ih, ← stripLead?_eq_none_iff, cutAtLast?]
      cases cutAtLast? mark cs with
      | none => simp
      | some parts => simp

/-! ## The end of a text -/

theorem stripTail?_eq_some_iff {tail cs front : List Char} :
    stripTail? tail cs = some front ↔ cs = front ++ tail := by
  rw [stripTail?, Option.map_eq_some_iff]
  constructor
  · rintro ⟨rest, hlead, rfl⟩
    rw [← List.reverse_inj, List.reverse_append, List.reverse_reverse]
    exact stripLead?_eq_some hlead
  · rintro rfl
    refine ⟨front.reverse, ?_, List.reverse_reverse front⟩
    rw [List.reverse_append, stripLead?_append]

/-! ## Pieces -/

theorem splitChars_eq_splitOn (sep : Char) (cs : List Char) :
    splitChars sep cs = cs.splitOn sep := by
  induction cs with
  | nil => rfl
  | cons c cs ih =>
      rw [splitChars, ih, List.splitOn_cons_eq_if_modifyHead]
      by_cases h : c = sep
      · rw [if_pos h, if_pos (beq_iff_eq.mpr h)]
      · rw [if_neg h, if_neg fun hsame => h (beq_iff_eq.mp hsame)]
        cases hpieces : cs.splitOn sep with
        | nil => exact absurd hpieces (List.splitOn_ne_nil sep cs)
        | cons piece more => rfl

theorem intercalate_append {sep : Char} {pieces more : List (List Char)} (hpieces : pieces ≠ [])
    (hmore : more ≠ []) : [sep].intercalate (pieces ++ more) =
      [sep].intercalate pieces ++ sep :: [sep].intercalate more := by
  induction pieces with
  | nil => exact absurd rfl hpieces
  | cons piece pieces ih =>
      cases pieces with
      | nil =>
          rw [List.singleton_append, List.intercalate_cons_of_ne_nil hmore,
            List.intercalate_singleton, List.append_assoc, List.singleton_append]
      | cons next pieces =>
          rw [List.cons_append, List.cons_append, List.intercalate_cons_cons, ← List.cons_append,
            ih (List.cons_ne_nil _ _), List.intercalate_cons_cons]
          simp only [List.append_assoc]

/-- The pieces of a text begin with those of another exactly if the text is the other or goes on
with a separator behind it. -/
theorem splitOn_prefix_iff {sep : Char} {front text : List Char} :
    front.splitOn sep <+: text.splitOn sep ↔
      text = front ∨ ∃ rest, text = front ++ sep :: rest := by
  constructor
  · rintro ⟨more, hmore⟩
    have htext := congrArg [sep].intercalate hmore
    rw [List.intercalate_splitOn] at htext
    cases more with
    | nil =>
        rw [List.append_nil, List.intercalate_splitOn] at htext
        exact .inl htext.symm
    | cons piece more =>
        rw [intercalate_append (List.splitOn_ne_nil sep front) (List.cons_ne_nil _ _),
          List.intercalate_splitOn] at htext
        exact .inr ⟨_, htext.symm⟩
  · rintro (rfl | ⟨rest, rfl⟩)
    · exact List.prefix_rfl
    · rw [List.splitOn_append_cons_self]
      exact List.prefix_append _ _

/-- All pieces of a text are empty if it consists of separators. -/
theorem forall_mem_splitOn_eq_nil_iff {sep : Char} {cs : List Char} :
    (∀ piece ∈ cs.splitOn sep, piece = []) ↔ ∀ c ∈ cs, c = sep := by
  induction cs with
  | nil => simp
  | cons c cs ih =>
      rw [List.splitOn_cons_eq_if_modifyHead]
      by_cases h : c = sep
      · rw [if_pos (beq_iff_eq.mpr h), List.forall_mem_cons, List.forall_mem_cons, ih]
        exact and_congr (iff_of_true rfl h) Iff.rfl
      · rw [if_neg fun hsame => h (beq_iff_eq.mp hsame)]
        cases hpieces : cs.splitOn sep with
        | nil => exact absurd hpieces (List.splitOn_ne_nil sep cs)
        | cons piece more =>
            rw [List.modifyHead_cons, List.forall_mem_cons, List.forall_mem_cons]
            exact iff_of_false (fun hall => List.cons_ne_nil c piece hall.1) fun hall => h hall.1

/-- No separator is left in a piece. -/
theorem not_mem_of_mem_splitOn {sep : Char} {cs piece : List Char} (h : piece ∈ cs.splitOn sep) :
    sep ∉ piece := by
  induction cs generalizing piece with
  | nil =>
      rw [List.splitOn_nil, List.mem_singleton] at h
      rw [h]
      exact List.not_mem_nil
  | cons c cs ih =>
      rw [List.splitOn_cons_eq_if_modifyHead] at h
      by_cases hc : c = sep
      · rw [if_pos (beq_iff_eq.mpr hc), List.mem_cons] at h
        obtain rfl | hpiece := h
        · exact List.not_mem_nil
        · exact ih hpiece
      · rw [if_neg fun hsame => hc (beq_iff_eq.mp hsame)] at h
        cases hpieces : cs.splitOn sep with
        | nil => exact absurd hpieces (List.splitOn_ne_nil sep cs)
        | cons first more =>
            rw [hpieces] at h ih
            rw [List.modifyHead_cons, List.mem_cons] at h
            obtain rfl | hpiece := h
            · rw [List.mem_cons, not_or]
              exact ⟨Ne.symm hc, ih List.mem_cons_self⟩
            · exact ih (List.mem_cons_of_mem first hpiece)

/-! ## Pieces of texts -/

theorem map_toList_ofList (pieces : List (List Char)) :
    (pieces.map String.ofList).map String.toList = pieces := by
  rw [List.map_map]
  exact (List.map_congr_left fun piece _ => String.toList_ofList).trans (List.map_id pieces)

theorem split_eq_splitOn (sep : Char) (s : String) :
    split sep s = (s.toList.splitOn sep).map String.ofList := by
  rw [split, splitChars_eq_splitOn]

/-- A text that goes on behind a separator has the pieces of both parts. -/
theorem split_append (sep : Char) (front behind : String) :
    split sep (front ++ String.singleton sep ++ behind) = split sep front ++ split sep behind := by
  have htext : (front ++ String.singleton sep ++ behind).toList =
      front.toList ++ sep :: behind.toList := by
    simp
  rw [split_eq_splitOn, split_eq_splitOn, split_eq_splitOn, htext, List.splitOn_append_cons_self,
    List.map_append]

theorem split_intercalate {sep : Char} {pieces : List String} (hsome : pieces ≠ [])
    (h : ∀ piece ∈ pieces, sep ∉ piece.toList) :
    split sep ((String.singleton sep).intercalate pieces) = pieces := by
  have hpieces : ((String.singleton sep).intercalate pieces).toList.splitOn sep =
      pieces.map String.toList := by
    rw [String.toList_intercalate, String.toList_singleton]
    apply List.splitOn_intercalate sep (List.forall_mem_map.mpr h)
    rwa [ne_eq, List.map_eq_nil_iff]
  rw [split_eq_splitOn, hpieces, List.map_map]
  have hsame : String.ofList ∘ String.toList = id := funext fun _ => String.ofList_toList
  rw [hsame, List.map_id]

theorem not_mem_of_mem_split {sep : Char} {s piece : String} (h : piece ∈ split sep s) :
    sep ∉ piece.toList := by
  rw [split_eq_splitOn] at h
  obtain ⟨cs, hcs, rfl⟩ := List.mem_map.mp h
  rw [String.toList_ofList]
  exact not_mem_of_mem_splitOn hcs

/-! ## The ends -/

theorem dropLeading_replicate (c : Char) (n : Nat) {cs : List Char} (h : cs.head? ≠ some c) :
    dropLeading c (List.replicate n c ++ cs) = cs := by
  have hall : ∀ d ∈ List.replicate n c, (d == c) = true := by
    intro d hd
    rw [List.eq_of_mem_replicate hd, beq_self_eq_true]
  rw [dropLeading, List.dropWhile_append_of_pos hall]
  cases cs with
  | nil => rfl
  | cons d cs =>
      have hne : (d == c) = false := by
        rw [beq_eq_false_iff_ne]
        rintro rfl
        exact h rfl
      rw [List.dropWhile_cons_of_neg (by rw [hne]; exact Bool.false_ne_true)]

theorem dropTrailing_replicate (c : Char) (n : Nat) {cs : List Char} (h : cs.getLast? ≠ some c) :
    dropTrailing c (cs ++ List.replicate n c) = cs := by
  rw [dropTrailing, List.reverse_append, List.reverse_replicate,
    dropLeading_replicate c n (by rwa [List.head?_reverse]), List.reverse_reverse]

/-- Dropping copies of a character takes off all that stand in front. -/
theorem exists_replicate_dropLeading (c : Char) (cs : List Char) :
    ∃ n, cs = List.replicate n c ++ dropLeading c cs ∧
      (dropLeading c cs).head? ≠ some c := by
  induction cs with
  | nil => exact ⟨0, rfl, by simp [dropLeading]⟩
  | cons d cs ih =>
      by_cases hd : d = c
      · obtain ⟨n, hn, hhead⟩ := ih
        have hdrop : dropLeading c (d :: cs) = dropLeading c cs := by
          simp [dropLeading, hd]
        rw [hdrop]
        refine ⟨n + 1, ?_, hhead⟩
        rw [List.replicate_succ, List.cons_append, ← hn, hd]
      · have hdrop : dropLeading c (d :: cs) = d :: cs := by
          simp [dropLeading, hd]
        rw [hdrop]
        exact ⟨0, rfl, by simpa using hd⟩

theorem exists_replicate_dropTrailing (c : Char) (cs : List Char) :
    ∃ n, cs = dropTrailing c cs ++ List.replicate n c ∧
      (dropTrailing c cs).getLast? ≠ some c := by
  obtain ⟨n, hn, hhead⟩ := exists_replicate_dropLeading c cs.reverse
  refine ⟨n, ?_, by rwa [dropTrailing, List.getLast?_reverse]⟩
  rw [dropTrailing, ← List.reverse_replicate, ← List.reverse_append, ← hn,
    List.reverse_reverse]

theorem dropTrailing_idempotent (c : Char) (cs : List Char) :
    dropTrailing c (dropTrailing c cs) = dropTrailing c cs := by
  obtain ⟨_, -, hlast⟩ := exists_replicate_dropTrailing c cs
  simpa using dropTrailing_replicate c 0 hlast

theorem dropTrailing_append_replicate (c : Char) (cs : List Char) (n : Nat) :
    dropTrailing c (cs ++ List.replicate n c) = dropTrailing c cs := by
  obtain ⟨m, hm, hlast⟩ := exists_replicate_dropTrailing c cs
  calc dropTrailing c (cs ++ List.replicate n c)
      = dropTrailing c (dropTrailing c cs ++ List.replicate (m + n) c) := by
        rw [← List.replicate_append_replicate, ← List.append_assoc, ← hm]
    _ = dropTrailing c cs := dropTrailing_replicate c (m + n) hlast

/-- Texts have the same left of them if they are the same but for copies at their ends. -/
theorem dropTrailing_eq_dropTrailing_iff {c : Char} {cs ds : List Char} :
    dropTrailing c cs = dropTrailing c ds ↔ ∃ core m n,
      cs = core ++ List.replicate m c ∧ ds = core ++ List.replicate n c := by
  constructor
  · intro h
    obtain ⟨m, hm, -⟩ := exists_replicate_dropTrailing c cs
    obtain ⟨n, hn, -⟩ := exists_replicate_dropTrailing c ds
    exact ⟨dropTrailing c cs, m, n, hm, h ▸ hn⟩
  · rintro ⟨core, m, n, rfl, rfl⟩
    rw [dropTrailing_append_replicate, dropTrailing_append_replicate]

/-- Two copies stand at an end only if both of them were put there. -/
theorem pair_suffix_iff {c : Char} {cs : List Char} (h : cs.getLast? ≠ some c) (n : Nat) :
    [c, c] <:+ cs ++ List.replicate n c ↔ 2 ≤ n := by
  constructor
  · rintro ⟨before, hbefore⟩
    match n with
    | 0 =>
        rw [List.replicate_zero, List.append_nil] at hbefore
        exact absurd (by rw [← hbefore]; simp) h
    | 1 =>
        have hsplit : before ++ [c] ++ [c] = cs ++ [c] := by simpa using hbefore
        exact absurd (by rw [← List.append_cancel_right hsplit]; simp) h
    | n + 2 => exact Nat.le_add_left 2 n
  · intro hn
    obtain ⟨m, rfl⟩ := Nat.exists_eq_add_of_le' hn
    refine ⟨cs ++ List.replicate m c, ?_⟩
    rw [← List.replicate_append_replicate, ← List.append_assoc]
    rfl

end Gatehouse.Text
