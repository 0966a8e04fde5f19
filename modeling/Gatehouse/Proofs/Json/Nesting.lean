import Gatehouse.Proofs.Json.Passing
import Gatehouse.Proofs.Json.Values

/-!
# Passing over nested values

Passing goes step by step through a stack of open brackets, and every two steps take a byte.  The
lemmas follow the loops of the reader: what each has read, the steps have passed, and they are back
at the brackets that were open before.
-/

namespace Gatehouse.Json.Reader

variable {α β : Type}

/-! ## Steps -/

/-- From one stage to another `k` steps pass `m` of the bytes, whatever follows. -/
def Passes (k m : Nat) (s s' : Stage) (brackets brackets' : List Bracket)
    (bytes : List UInt8) : Prop :=
  ∀ fuel (c : Cursor), c.rest = bytes →
    passFrom (fuel + k) s brackets c = passFrom fuel s' brackets' (c.advanceBy m)

section

variable {k k' m m' n : Nat} {s s' s'' : Stage} {brackets brackets' brackets'' : List Bracket}
  {bytes : List UInt8} {bracket : Bracket} {b : UInt8}

theorem Passes.trans (h : Passes k m s s' brackets brackets' bytes)
    (h' : Passes k' m' s' s'' brackets' brackets'' (bytes.drop m)) :
    Passes (k' + k) (m + m') s s'' brackets brackets'' bytes := by
  intro fuel c hc
  have hrest : (c.advanceBy m).rest = bytes.drop m := by rw [Cursor.rest_advanceBy, hc]
  rw [← Nat.add_assoc, h _ c hc, h' fuel _ hrest, Cursor.advanceBy_add]

theorem advanceBy_blanks (c : Cursor) (n : Nat) :
    c.advanceBy (blanks c.rest + n) = c.pastBlanks.advanceBy n :=
  Cursor.advanceBy_add _ _ c

/-- A value may stand behind blanks. -/
theorem Passes.of_unblanked (h : Passes (k + 1) m .value s brackets brackets' (unblanked bytes)) :
    Passes (k + 1) (blanks bytes + m) .value s brackets brackets' bytes := by
  rintro fuel c rfl
  rw [advanceBy_blanks, ← h fuel c.pastBlanks (rest_pastBlanks c)]
  have hfirst : first c.pastBlanks = first c := bind_congr _ (next?_pastBlanks c)
  exact bind_congr _ hfirst.symm

theorem passes_list (h : (unblanked bytes).head? = some 91) :
    Passes 1 (blanks bytes + 1) .value .opened brackets (.list :: brackets) bytes := by
  rintro fuel c rfl
  refine (bind_of_ok (first_eq_ok.mpr ⟨h, rfl⟩)).trans ?_
  rw [advanceBy_blanks]
  rfl

theorem passes_object (h : (unblanked bytes).head? = some 123) :
    Passes 1 (blanks bytes + 1) .value .opened brackets (.object :: brackets) bytes := by
  rintro fuel c rfl
  refine (bind_of_ok (first_eq_ok.mpr ⟨h, rfl⟩)).trans ?_
  rw [advanceBy_blanks]
  rfl

theorem passes_scalar (h : (unblanked bytes).head? = some b) (hlist : b ≠ 91) (hobject : b ≠ 123)
    (hspans : Spans passScalar (unblanked bytes) n ()) :
    Passes 1 (blanks bytes + n) .value .passed brackets brackets bytes := by
  rintro fuel c rfl
  refine (bind_of_ok (first_eq_ok.mpr ⟨h, rfl⟩)).trans ?_
  rw [advanceBy_blanks]
  split
  · exact absurd rfl hlist
  · exact absurd rfl hobject
  · exact bind_of_ok (hspans c.pastBlanks (rest_pastBlanks c))

theorem passes_end (hstage : s = .opened ∨ s = .passed)
    (h : (unblanked bytes).head? = some bracket.close) :
    Passes 1 (blanks bytes + 1) s .passed (bracket :: brackets) brackets bytes := by
  rintro fuel c rfl
  rw [advanceBy_blanks]
  rcases hstage with rfl | rfl
  · refine (bind_of_ok (next?_run c)).trans ?_
    simp only [h, if_true]
    rfl
  · refine (bind_of_ok (next?_run c)).trans ?_
    simp only [h, if_true]
    rfl

theorem passes_front (h : (unblanked bytes).head? = some b) (hclose : b ≠ bracket.close)
    (hspans : Spans bracket.passName (unblanked bytes) n ()) :
    Passes 1 (blanks bytes + n) .opened .value (bracket :: brackets) (bracket :: brackets)
      bytes := by
  rintro fuel c rfl
  refine (bind_of_ok (next?_run c)).trans ?_
  rw [advanceBy_blanks]
  simp only [h, if_neg hclose]
  exact bind_of_ok (hspans c.pastBlanks (rest_pastBlanks c))

theorem passes_comma (h : (unblanked bytes).head? = some 44)
    (hspans : Spans bracket.passName (unblanked bytes).tail n ()) :
    Passes 1 (blanks bytes + (1 + n)) .passed .value (bracket :: brackets) (bracket :: brackets)
      bytes := by
  have hclose : 44 ≠ bracket.close := by cases bracket <;> decide
  rintro fuel c rfl
  have hrest : c.pastBlanks.advance.rest = (unblanked c.rest).tail := by
    rw [Cursor.rest_advance, rest_pastBlanks]
  refine (bind_of_ok (next?_run c)).trans ?_
  rw [advanceBy_blanks, Cursor.advanceBy_add]
  simp only [h, if_neg hclose, if_true]
  exact bind_of_ok (hspans c.pastBlanks.advance hrest)

end

/-! ## Loops -/

/-- The reader goes past a value in front of which it stands, and passing the value takes fewer than
two steps for each byte. -/
def PassedBy (c c' : Cursor) : Prop :=
  ∃ k m, c' = c.advanceBy m ∧ k + 1 + 2 * c'.rest.length < 2 * c.rest.length ∧
    ∀ brackets, Passes (k + 1) m .value .passed brackets brackets c.rest

/-- Behind an opening bracket, or behind a value in it, the reader stands before what is left of
the bracket, and goes past it. -/
def ClosedBy (bracket : Bracket) (isFirst : Bool) (c c' : Cursor) : Prop :=
  ∃ k m, c' = c.advanceBy m ∧ k + 2 * c'.rest.length < 2 * c.rest.length ∧
    ∀ brackets, Passes k m (if isFirst then .opened else .passed) .passed (bracket :: brackets)
      brackets c.rest

/-- A byte that is seen is there. -/
theorem length_pos_of_head {bytes : List UInt8} {b : UInt8}
    (h : (unblanked bytes).head? = some b) : 0 < bytes.length := by
  cases bytes with
  | nil => cases h
  | cons _ _ => exact Nat.succ_pos _

theorem closedBy_end {bracket : Bracket} {isFirst : Bool} {c : Cursor}
    (h : (unblanked c.rest).head? = some bracket.close) :
    ClosedBy bracket isFirst c c.pastBlanks.advance := by
  have hbehind : c.pastBlanks.advance = c.advanceBy (blanks c.rest + 1) :=
    (advanceBy_blanks c 1).symm
  refine ⟨1, blanks c.rest + 1, hbehind, ?_, fun brackets => ?_⟩
  · have hpos := length_pos_of_head h
    rw [hbehind, Cursor.rest_advanceBy, List.length_drop]
    omega
  apply passes_end _ h
  cases isFirst with
  | true => exact .inl rfl
  | false => exact .inr rfl

/-- Where a loop that has ended stands, its bracket ends. -/
theorem closedBy_ended {bracket : Bracket} {isFirst : Bool} {c : Cursor}
    (h : (unblanked c.pastBlanks.rest).head? = some bracket.close) :
    ClosedBy bracket isFirst c c.pastBlanks.pastBlanks.advance := by
  rw [rest_pastBlanks, unblanked_unblanked] at h
  rw [pastBlanks_pastBlanks]
  exact closedBy_end h

/-- One value more is passed in front of what is left of a bracket. -/
theorem ClosedBy.of_value {bracket : Bracket} {isFirst : Bool} {c behind c' : Cursor} {n : Nat}
    (hstep : ∀ brackets, Passes 1 n (if isFirst then .opened else .passed) .value
      (bracket :: brackets) (bracket :: brackets) c.rest)
    (hvalue : PassedBy (c.advanceBy n) behind) (hrest : ClosedBy bracket false behind c') :
    ClosedBy bracket isFirst c c' := by
  obtain ⟨k, m, rfl, hk, hpasses⟩ := hvalue
  obtain ⟨k', m', rfl, hk', hcloses⟩ := hrest
  refine ⟨k' + (k + 1) + 1, n + (m + m'), ?_, ?_, fun brackets => ?_⟩
  · rw [Cursor.advanceBy_add, Cursor.advanceBy_add]
  · have hle : (c.advanceBy n).rest.length ≤ c.rest.length := by
      rw [Cursor.rest_advanceBy, List.length_drop]
      omega
    omega
  · simp only [Cursor.rest_advanceBy] at hpasses hcloses
    exact (hstep brackets).trans ((hpasses (bracket :: brackets)).trans (hcloses brackets))

/-- A value may stand behind blanks. -/
theorem PassedBy.of_pastBlanks {c c' : Cursor} (h : PassedBy c.pastBlanks c') :
    PassedBy c c' := by
  obtain ⟨k, m, rfl, hk, hpasses⟩ := h
  refine ⟨k, blanks c.rest + m, (advanceBy_blanks c m).symm, ?_, fun brackets => ?_⟩
  · have hle : c.pastBlanks.rest.length ≤ c.rest.length := by
      rw [rest_pastBlanks]
      exact List.length_dropWhile_le _ _
    omega
  apply Passes.of_unblanked
  rw [← rest_pastBlanks]
  exact hpasses brackets

/-- The reader stands behind a value that it has passed. -/
def Passing (r : Reader α) : Prop := ∀ c a c', r c = .ok a c' → PassedBy c c'

theorem items_closed {item : Reader α} (hitem : Passing item) {fuel : Nat} {isFirst : Bool}
    {c last : Cursor} {found : List α} (h : itemsFrom item fuel isFirst c = .ok found last)
    (hend : (unblanked last.rest).head? = some 93) :
    ClosedBy .list isFirst c last.pastBlanks.advance := by
  induction fuel generalizing isFirst c found with
  | zero =>
      cases h
      exact closedBy_end hend
  | succ fuel ih =>
      obtain ⟨more, between, hnext, h⟩ := bind_eq_ok.mp h
      cases itemFollows_of_nextItem hnext with
      | ended hhead =>
          cases h
          exact closedBy_ended hend
      | front hhead hclose =>
          obtain ⟨a, behind, ha, h⟩ := bind_eq_ok.mp h
          obtain ⟨rest, _, hrest, ⟨rfl, rfl⟩⟩ := bind_eq_ok.mp h
          refine .of_value (n := blanks c.rest + 0) (fun _ => ?_) (hitem _ _ _ ha) (ih hrest)
          exact passes_front hhead hclose (.pure () _)
      | behindComma hhead =>
          obtain ⟨a, behind, ha, h⟩ := bind_eq_ok.mp h
          obtain ⟨rest, _, hrest, ⟨rfl, rfl⟩⟩ := bind_eq_ok.mp h
          refine .of_value (n := blanks c.rest + (1 + 0)) (fun _ => ?_) ?_ (ih hrest)
          · exact passes_comma hhead (.pure () _)
          · rw [advanceBy_blanks]
            exact (hitem _ _ _ ha).of_pastBlanks

/-- A member is read from behind the opening quote of its name: the name, the colon, the value. -/
def PassingMember (member : α → Reader α) : Prop :=
  ∀ s c s' c', member s c = .ok s' c' → ∃ n value, value = c.advanceBy n ∧
    Spans (do passQuoted; colon) c.rest n () ∧ PassedBy value c'

theorem spans_passName {bytes : List UInt8} {n : Nat} (h : (unblanked bytes).head? = some 34)
    (hspans : Spans (do passQuoted; colon) (unblanked bytes).tail n ()) :
    Spans (Bracket.passName .object) bytes (blanks bytes + (1 + n)) () := by
  refine (Spans.next? bytes).bind ?_
  rw [h, drop_blanks]
  refine (Spans.skip _).bind ?_
  rw [List.drop_one]
  exact hspans

theorem members_closed {member : α → Reader α} (hmember : PassingMember member) {fuel : Nat}
    {isFirst : Bool} {c last : Cursor} {s s' : α}
    (h : membersFrom member fuel isFirst s c = .ok s' last)
    (hend : (unblanked last.rest).head? = some 125) :
    ClosedBy .object isFirst c last.pastBlanks.advance := by
  induction fuel generalizing isFirst c s with
  | zero =>
      cases h
      exact closedBy_end hend
  | succ fuel ih =>
      obtain ⟨more, between, hnext, h⟩ := bind_eq_ok.mp h
      cases nameFollows_of_nextName hnext with
      | ended hhead =>
          cases h
          exact closedBy_ended hend
      | front hquote =>
          obtain ⟨s₁, behind, hs, h⟩ := bind_eq_ok.mp h
          obtain ⟨n, value, rfl, hspans, hvalue⟩ := hmember _ _ _ _ hs
          rw [Cursor.rest_advance, rest_pastBlanks, ← unblanked_unblanked] at hspans
          have hname := spans_passName (by rw [unblanked_unblanked]; exact hquote) hspans
          rw [blanks_unblanked, Nat.zero_add] at hname
          refine .of_value (n := blanks c.rest + (1 + n)) (fun _ => ?_) ?_ (ih h)
          · exact passes_front hquote (by decide) hname
          · rw [advanceBy_blanks, Cursor.advanceBy_add]
            exact hvalue
      | behindComma hcomma hquote =>
          obtain ⟨s₁, behind, hs, h⟩ := bind_eq_ok.mp h
          obtain ⟨n, value, rfl, hspans, hvalue⟩ := hmember _ _ _ _ hs
          rw [Cursor.rest_advance, rest_pastBlanks, Cursor.rest_advance, rest_pastBlanks] at hspans
          rw [Cursor.rest_advance, rest_pastBlanks] at hquote
          have hname := spans_passName hquote hspans
          refine .of_value (n := blanks c.rest + (1 + (blanks (unblanked c.rest).tail + (1 + n))))
            (fun _ => passes_comma hcomma hname) ?_ (ih h)
          have hbehind : c.pastBlanks.advance.rest = (unblanked c.rest).tail := by
            rw [Cursor.rest_advance, rest_pastBlanks]
          rw [advanceBy_blanks, Cursor.advanceBy_add, ← hbehind]
          change PassedBy (c.pastBlanks.advance.advanceBy _) _
          rw [advanceBy_blanks, Cursor.advanceBy_add]
          exact hvalue

/-! ## Whole values -/

/-- A bracket whose contents are passed is passed. -/
theorem passedBy_bracket {bracket : Bracket} {c last : Cursor} {depth : Nat}
    (hopen : ∀ brackets, Passes 1 (blanks c.rest + 1) .value .opened brackets
      (bracket :: brackets) c.rest)
    (hdepth : c.pastBlanks.depth = depth + 1)
    (hclosed : ClosedBy bracket true (c.pastBlanks.advance.atDepth depth) last.pastBlanks.advance) :
    PassedBy c (last.pastBlanks.advance.atDepth (last.depth + 1)) := by
  obtain ⟨k, m, hlast, hk, hcloses⟩ := hclosed
  have hinside : c.advanceBy (blanks c.rest + 1) = c.pastBlanks.advance := advanceBy_blanks c 1
  refine ⟨k, blanks c.rest + 1 + m, ?_, ?_, fun brackets => ?_⟩
  · have hlevel : last.depth = depth := by
      have hsame := congrArg Cursor.depth hlast
      rwa [Cursor.depth_advance, depth_pastBlanks, Cursor.depth_advanceBy] at hsame
    rw [hlast, hlevel, Cursor.advanceBy_atDepth, Cursor.atDepth_atDepth, Cursor.advanceBy_add,
      hinside]
    apply Cursor.atDepth_of_eq
    rw [Cursor.depth_advanceBy, Cursor.depth_advance, hdepth]
  · rw [← hinside, Cursor.rest_atDepth, Cursor.rest_advanceBy, List.length_drop] at hk
    rw [Cursor.rest_atDepth]
    omega
  · have hrest : (c.pastBlanks.advance.atDepth depth).rest = c.rest.drop (blanks c.rest + 1) := by
      rw [← hinside, Cursor.rest_atDepth, Cursor.rest_advanceBy]
    rw [hrest] at hcloses
    exact (hopen brackets).trans (hcloses brackets)

theorem passedBy_list {item : Reader α} (hitem : Passing item) {c c' : Cursor} {found : List α}
    (hhead : (unblanked c.rest).head? = some 91)
    (h : inList (items item) c.pastBlanks = .ok found c') : PassedBy c c' := by
  obtain ⟨depth, last, hdepth, hitems, hclose⟩ := bracketed_eq_ok.mp h
  obtain ⟨hend, rfl⟩ := endList_eq_ok.mp hclose
  obtain ⟨_, _, ⟨rfl, rfl⟩, hitems⟩ := bind_eq_ok.mp hitems
  rw [pastBlanks_atDepth, Cursor.advance_atDepth]
  exact passedBy_bracket (fun _ => passes_list hhead) hdepth (items_closed hitem hitems hend)

theorem passedBy_object {member : α → Reader α} (hmember : PassingMember member) {f : α → β}
    {c c' : Cursor} {s : α} {found : β} (hhead : (unblanked c.rest).head? = some 123)
    (h : inObject (do return f (← members member s)) c.pastBlanks = .ok found c') :
    PassedBy c c' := by
  obtain ⟨depth, last, hdepth, hcontents, hclose⟩ := bracketed_eq_ok.mp h
  obtain ⟨hend, rfl⟩ := endObject_eq_ok.mp hclose
  obtain ⟨_, _, hmembers, ⟨rfl, rfl⟩⟩ := bind_eq_ok.mp hcontents
  obtain ⟨_, _, ⟨rfl, rfl⟩, hmembers⟩ := bind_eq_ok.mp hmembers
  rw [pastBlanks_atDepth, Cursor.advance_atDepth]
  exact passedBy_bracket (fun _ => passes_object hhead) hdepth
    (members_closed hmember hmembers hend)

theorem passedBy_scalar {c c' : Cursor} {b : UInt8} {d : Document}
    (hhead : (unblanked c.rest).head? = some b) (hlist : b ≠ 91) (hobject : b ≠ 123)
    (h : scalar c.pastBlanks = .ok d c') : PassedBy c c' := by
  obtain ⟨n, ⟨⟩, rfl, hspans⟩ := scalar_passes _ _ _ h
  rw [rest_pastBlanks] at hspans
  refine ⟨0, blanks c.rest + (1 + n), (advanceBy_blanks c _).symm, ?_, fun brackets => ?_⟩
  · have hpos := length_pos_of_head hhead
    rw [← advanceBy_blanks, Cursor.rest_advanceBy, List.length_drop]
    omega
  exact passes_scalar hhead hlist hobject hspans

theorem passingMember_entry {value : Reader α} (hvalue : Passing value) :
    PassingMember (entry value) := by
  intro before c found c' h
  obtain ⟨name, a, behindName, behindColon, hname, hcolon, ha, rfl⟩ := entry_eq_ok.mp h
  have hboth : (do let _ ← quoted; colon : Reader Unit) c = .ok () behindColon :=
    bind_eq_ok.mpr ⟨name, behindName, hname, hcolon⟩
  have hpasses : PassesLike (do let _ ← quoted; colon) (do passQuoted; colon) :=
    quoted_passes.bind fun _ _ => .of_looksAtBytes .colon
  obtain ⟨n, ⟨⟩, hbehind, hspans⟩ := hpasses _ _ _ hboth
  exact ⟨n, behindColon, hbehind, hspans, hvalue _ _ _ ha⟩

/-- A value is passed as far as it is read. -/
theorem document_passing (levels : Nat) : Passing (documentWithin levels) := by
  induction levels with
  | zero =>
      intro c d c' h
      cases h
  | succ levels ih =>
      intro c d c' h
      cases valueFollows_of_document h with
      | list hhead hlist => exact passedBy_list ih hhead hlist
      | object hhead hobject => exact passedBy_object (passingMember_entry ih) hhead hobject
      | scalar hhead hlist hobject hscalar => exact passedBy_scalar hhead hlist hobject hscalar

theorem passFrom_ended (fuel : Nat) (c : Cursor) : passFrom fuel .passed [] c = .ok () c := by
  cases fuel with
  | zero => rfl
  | succ fuel => rfl

/-- What can be read as a value can be passed, and ends where the value ends. -/
theorem pass_of_document {levels : Nat} {c c' : Cursor} {d : Document}
    (h : documentWithin levels c = .ok d c') : pass c = .ok () c' := by
  obtain ⟨k, m, rfl, hk, hpasses⟩ := document_passing levels c d c' h
  obtain ⟨fuel, hfuel⟩ : ∃ fuel, 2 * c.rest.length + 4 = fuel + (k + 1) :=
    Nat.exists_eq_add_of_le' (by omega)
  change passFrom (2 * c.rest.length + 4) .value [] c = _
  rw [hfuel, hpasses [] fuel c rfl, passFrom_ended]

end Gatehouse.Json.Reader
