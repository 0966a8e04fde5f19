import Gatehouse.Json.Read
import Gatehouse.Proofs.Json.Reading

/-!
# What is read as a value

A value is told by its first byte.  The levels that a reader is given only bound its recursion: what
it reads within some it reads within more.
-/

namespace Gatehouse.Json.Reader

variable {α β σ : Type}

/-! ## Lists and objects -/

def entry (value : Reader α) (before : List (String × α)) : Reader (List (String × α)) := do
  let name ← quoted
  colon
  return (name, ← value) :: before

/-- A member is its name, its colon and its value. -/
theorem entry_eq_ok {value : Reader α} {before found : List (String × α)} {c c' : Cursor} :
    entry value before c = .ok found c' ↔ ∃ name a behindName behindColon,
      quoted c = .ok name behindName ∧ colon behindName = .ok () behindColon ∧
        value behindColon = .ok a c' ∧ found = (name, a) :: before := by
  constructor
  · intro h
    obtain ⟨name, behindName, hname, h⟩ := bind_eq_ok.mp h
    obtain ⟨_, behindColon, hcolon, h⟩ := bind_eq_ok.mp h
    obtain ⟨a, _, ha, ⟨rfl, rfl⟩⟩ := bind_eq_ok.mp h
    exact ⟨name, a, behindName, behindColon, hname, hcolon, ha, rfl⟩
  · rintro ⟨name, a, behindName, behindColon, hname, hcolon, ha, rfl⟩
    refine bind_eq_ok.mpr ⟨name, behindName, hname, ?_⟩
    refine bind_eq_ok.mpr ⟨(), behindColon, hcolon, ?_⟩
    exact bind_eq_ok.mpr ⟨a, c', ha, rfl⟩

/-- What is read as a value, by its first byte. -/
inductive ValueFollows (levels : Nat) (c : Cursor) : Document → Cursor → Prop where
  | list {found : List Document} {c' : Cursor} (hhead : (unblanked c.rest).head? = some 91)
      (h : inList (items (documentWithin levels)) c.pastBlanks = .ok found c') :
      ValueFollows levels c (.list found) c'
  | object {found : List (String × Document)} {c' : Cursor}
      (hhead : (unblanked c.rest).head? = some 123)
      (h : inObject (entriesOf (documentWithin levels)) c.pastBlanks = .ok found c') :
      ValueFollows levels c (.table found) c'
  | scalar {b : UInt8} {d : Document} {c' : Cursor} (hhead : (unblanked c.rest).head? = some b)
      (hlist : b ≠ 91) (hobject : b ≠ 123) (h : scalar c.pastBlanks = .ok d c') :
      ValueFollows levels c d c'

theorem valueFollows_of_document {levels : Nat} {c c' : Cursor} {d : Document}
    (h : documentWithin (levels + 1) c = .ok d c') : ValueFollows levels c d c' := by
  obtain ⟨b, between, hfirst, h⟩ := bind_eq_ok.mp h
  obtain ⟨hhead, rfl⟩ := first_eq_ok.mp hfirst
  split at h
  · obtain ⟨found, _, hlist, ⟨rfl, rfl⟩⟩ := bind_eq_ok.mp h
    exact .list hhead hlist
  · obtain ⟨found, _, hobject, ⟨rfl, rfl⟩⟩ := bind_eq_ok.mp h
    exact .object hhead hobject
  · next hlist hobject => exact .scalar hhead hlist hobject h

theorem ValueFollows.document {levels : Nat} {c c' : Cursor} {d : Document}
    (h : ValueFollows levels c d c') : documentWithin (levels + 1) c = .ok d c' := by
  cases h with
  | list hhead h =>
      rw [documentWithin, bind_of_ok (first_eq_ok.mpr ⟨hhead, rfl⟩)]
      exact bind_of_ok h
  | object hhead h =>
      rw [documentWithin, bind_of_ok (first_eq_ok.mpr ⟨hhead, rfl⟩)]
      exact bind_of_ok h
  | scalar hhead hlist hobject h =>
      rw [documentWithin, bind_of_ok (first_eq_ok.mpr ⟨hhead, rfl⟩)]
      split
      · exact absurd rfl hlist
      · exact absurd rfl hobject
      · exact h

/-! ## Items and members -/

/-- Where no item has been read, the list has ended. -/
theorem itemsFrom_nil {item : Reader α} {fuel : Nat} {isFirst : Bool} {c last : Cursor}
    (hitems : itemsFrom item fuel isFirst c = .ok [] last)
    (hend : (unblanked last.rest).head? = some 93) :
    (unblanked c.rest).head? = some 93 ∧ last.pastBlanks = c.pastBlanks := by
  cases fuel with
  | zero =>
      cases hitems
      exact ⟨hend, rfl⟩
  | succ fuel =>
      obtain ⟨more, between, hnext, hitems⟩ := bind_eq_ok.mp hitems
      cases more with
      | false =>
          cases hitems
          cases itemFollows_of_nextItem hnext with
          | ended hhead => exact ⟨hhead, pastBlanks_pastBlanks c⟩
      | true =>
          obtain ⟨_, _, -, hitems⟩ := bind_eq_ok.mp hitems
          obtain ⟨_, _, -, hitems⟩ := bind_eq_ok.mp hitems
          cases hitems

theorem itemsFrom_cons {item : Reader α} {fuel : Nat} {isFirst : Bool} {c last : Cursor} {a : α}
    {rest : List α} (hitems : itemsFrom item fuel isFirst c = .ok (a :: rest) last) :
    ∃ more between behind, nextItem isFirst c = .ok true between ∧ item between = .ok a behind ∧
      itemsFrom item more false behind = .ok rest last := by
  cases fuel with
  | zero => cases hitems
  | succ fuel =>
      obtain ⟨more, between, hnext, hitems⟩ := bind_eq_ok.mp hitems
      cases more with
      | false => cases hitems
      | true =>
          obtain ⟨_, behind, ha, hitems⟩ := bind_eq_ok.mp hitems
          obtain ⟨_, _, hrest, hitems⟩ := bind_eq_ok.mp hitems
          cases hitems
          exact ⟨fuel, between, behind, hnext, ha, hrest⟩

/-- What is read as the members of an object: none, or one and what is read behind it. -/
inductive EntriesFollow (value : Reader α) :
    Nat → Bool → Cursor → List (String × α) → Cursor → Prop where
  | spent {isFirst : Bool} {c : Cursor} : EntriesFollow value 0 isFirst c [] c
  | ended {fuel : Nat} {isFirst : Bool} {c c' : Cursor}
      (hnext : nextName isFirst c = .ok false c') :
      EntriesFollow value (fuel + 1) isFirst c [] c'
  | member {fuel : Nat} {isFirst : Bool} {c between behindName behindColon behind last : Cursor}
      {name : String} {a : α} {rest : List (String × α)}
      (hnext : nextName isFirst c = .ok true between) (hname : quoted between = .ok name behindName)
      (hcolon : colon behindName = .ok () behindColon) (hvalue : value behindColon = .ok a behind)
      (hrest : EntriesFollow value fuel false behind rest last) :
      EntriesFollow value (fuel + 1) isFirst c ((name, a) :: rest) last

theorem entriesFollow_of_membersFrom {value : Reader α} {fuel : Nat} {isFirst : Bool}
    {before after : List (String × α)} {c last : Cursor}
    (h : membersFrom (entry value) fuel isFirst before c = .ok after last) :
    ∃ found, after = found.reverse ++ before ∧ EntriesFollow value fuel isFirst c found last := by
  induction fuel generalizing isFirst before c with
  | zero =>
      cases h
      exact ⟨[], rfl, .spent⟩
  | succ fuel ih =>
      obtain ⟨more, between, hnext, h⟩ := bind_eq_ok.mp h
      cases more with
      | false =>
          cases h
          exact ⟨[], rfl, .ended hnext⟩
      | true =>
          obtain ⟨_, behind, hentry, h⟩ := bind_eq_ok.mp h
          obtain ⟨name, a, _, _, hname, hcolon, ha, rfl⟩ := entry_eq_ok.mp hentry
          obtain ⟨found, rfl, hrest⟩ := ih h
          refine ⟨(name, a) :: found, ?_, .member hnext hname hcolon ha hrest⟩
          rw [List.reverse_cons, List.append_assoc, List.singleton_append]

theorem entriesFollow_of_entriesOf {value : Reader α} {c last : Cursor}
    {found : List (String × α)} (h : entriesOf value c = .ok found last) :
    EntriesFollow value (c.rest.length + 2) true c found last := by
  obtain ⟨_, _, hmembers, ⟨rfl, rfl⟩⟩ := bind_eq_ok.mp h
  obtain ⟨_, _, ⟨rfl, rfl⟩, hmembers⟩ := bind_eq_ok.mp hmembers
  obtain ⟨found, rfl, hfollow⟩ := entriesFollow_of_membersFrom hmembers
  rw [List.append_nil, List.reverse_reverse]
  exact hfollow

/-! ## Levels -/

/-- Wherever the first reader succeeds, the second does the same. -/
def Extends (r r' : Reader α) : Prop := ∀ c a c', r c = .ok a c' → r' c = .ok a c'

namespace Extends

theorem refl (r : Reader α) : Extends r r := fun _ _ _ h => h

theorem bind {r r' : Reader α} {f f' : α → Reader β} (hr : Extends r r')
    (hf : ∀ a, Extends (f a) (f' a)) : Extends (r >>= f) (r' >>= f') := by
  intro c b c' h
  obtain ⟨a, between, hfirst, hnext⟩ := bind_eq_ok.mp h
  exact bind_eq_ok.mpr ⟨a, between, hr _ _ _ hfirst, hf a _ _ _ hnext⟩

theorem itemsFrom {item item' : Reader α} (hitem : Extends item item') (fuel : Nat)
    (isFirst : Bool) : Extends (itemsFrom item fuel isFirst) (itemsFrom item' fuel isFirst) := by
  induction fuel generalizing isFirst with
  | zero => exact refl _
  | succ fuel ih =>
      refine bind (refl _) fun more => ?_
      cases more with
      | false => exact refl _
      | true => exact bind hitem fun _ => bind (ih false) fun _ => refl _

theorem items {item item' : Reader α} (hitem : Extends item item') :
    Extends (items item) (items item') :=
  bind (refl _) fun _ => itemsFrom hitem _ _

theorem membersFrom {member member' : σ → Reader σ}
    (hmember : ∀ s, Extends (member s) (member' s)) (fuel : Nat) (isFirst : Bool) (s : σ) :
    Extends (membersFrom member fuel isFirst s) (membersFrom member' fuel isFirst s) := by
  induction fuel generalizing isFirst s with
  | zero => exact refl _
  | succ fuel ih =>
      refine bind (refl _) fun more => ?_
      cases more with
      | false => exact refl _
      | true => exact bind (hmember s) fun s' => ih false s'

theorem members {member member' : σ → Reader σ} (hmember : ∀ s, Extends (member s) (member' s))
    (s : σ) : Extends (members member s) (members member' s) :=
  bind (refl _) fun _ => membersFrom hmember _ _ s

theorem entry {value value' : Reader α} (hvalue : Extends value value')
    (before : List (String × α)) : Extends (entry value before) (entry value' before) :=
  bind (refl _) fun _ => bind (refl _) fun _ => bind hvalue fun _ => refl _

theorem bracketed {contents contents' : Reader α} (h : Extends contents contents')
    (close : Reader Unit) : Extends (bracketed contents close) (bracketed contents' close) := by
  intro c a c' hrun
  obtain ⟨depth, last, hdepth, hcontents, hclose⟩ := bracketed_eq_ok.mp hrun
  exact bracketed_eq_ok.mpr ⟨depth, last, hdepth, h _ _ _ hcontents, hclose⟩

theorem entriesOf {value value' : Reader α} (hvalue : Extends value value') :
    Extends (entriesOf value) (entriesOf value') :=
  bind (members (entry hvalue) []) fun _ => refl _

end Extends

/-- What is read within some levels is read within one more. -/
theorem extends_documentWithin (levels : Nat) :
    Extends (documentWithin levels) (documentWithin (levels + 1)) := by
  induction levels with
  | zero =>
      intro c d c' h
      cases h
  | succ levels ih =>
      refine .bind (.refl _) fun b => ?_
      split
      · exact .bind (.bracketed (.items ih) _) fun _ => .refl _
      · exact .bind (.bracketed (.entriesOf ih) _) fun _ => .refl _
      · exact .refl _

theorem extends_of_le {levels more : Nat} (h : levels ≤ more) :
    Extends (documentWithin levels) (documentWithin more) := by
  induction h with
  | refl => exact .refl _
  | step _ ih => exact fun c d c' hrun => extends_documentWithin _ _ _ _ (ih c d c' hrun)

/-! ## Values without parts -/

def Yields (r : Reader α) (P : α → Prop) : Prop := ∀ c a c', r c = .ok a c' → P a

namespace Yields

variable {P : α → Prop}

theorem pure {a : α} (h : P a) : Yields (pure a) P := by
  rintro c _ _ ⟨rfl, rfl⟩
  exact h

theorem of_never {r : Reader α} (h : ∀ c a c', r c ≠ .ok a c') : Yields r P :=
  fun c a c' hrun => absurd hrun (h c a c')

theorem fail (cause : Cause) : Yields (fail cause : Reader α) P :=
  of_never fun _ _ _ h => nomatch h

theorem failAfter (cause : Cause) : Yields (failAfter cause : Reader α) P :=
  of_never fun _ _ _ h => nomatch h

theorem bind {r : Reader β} {f : β → Reader α} (h : ∀ b, Yields (f b) P) :
    Yields (r >>= f) P := by
  intro c a c' hrun
  obtain ⟨b, between, -, hnext⟩ := bind_eq_ok.mp hrun
  exact h b _ _ _ hnext

end Yields

/-- A number is an integer of the 64-bit ranges or a finite double. -/
def IsNumber : Document → Prop
  | .int i => intInRange i = true
  | .float (.finite _) => True
  | _ => False

theorem takeInteger_le {significand : Nat} (h : significand ≤ maxSignificand) (ds : List Nat) :
    (takeInteger significand ds).1 ≤ maxSignificand := by
  induction ds generalizing significand with
  | nil => exact h
  | cons d ds ih =>
      rw [takeInteger]
      split
      · exact h
      · next hfits => exact ih (Nat.le_of_not_lt hfits)

theorem intInRange_ofNat {n : Nat} (h : n ≤ maxSignificand) : intInRange n = true := by
  have hmax : maxSignificand = 18446744073709551615 := rfl
  have hlow : Int.pow 2 63 = 9223372036854775808 := rfl
  have hhigh : Int.pow 2 64 = 18446744073709551616 := rfl
  refine decide_eq_true ⟨?_, ?_⟩ <;> omega

theorem intInRange_neg {n : Nat} (h : n ≤ Nat.pow 2 63) : intInRange (-(n : Int)) = true := by
  have hlimit : Nat.pow 2 63 = 9223372036854775808 := rfl
  have hlow : Int.pow 2 63 = 9223372036854775808 := rfl
  have hhigh : Int.pow 2 64 = 18446744073709551616 := rfl
  refine decide_eq_true ⟨?_, ?_⟩ <;> omega

theorem finishDouble_yields (positive : Bool) (significand : Nat) (scale : Int) :
    Yields (finishDouble positive significand scale) IsNumber := by
  rw [finishDouble]
  split
  · exact .pure trivial
  · exact .fail _

theorem exponent_yields (positive : Bool) (significand : Nat) (scale : Int) :
    Yields (exponent positive significand scale) IsNumber := by
  refine .bind fun _ => .bind fun grows => .bind fun head => ?_
  split
  · exact .fail _
  · split
    · exact .failAfter _
    · refine .bind fun c => .bind fun ds => ?_
      split
      · exact finishDouble_yields _ _ _
      · split
        · exact .of_never fun _ _ _ h => nomatch h
        · exact .pure trivial

theorem power_yields (positive : Bool) (significand : Nat) (scale : Int) :
    Yields (power positive significand scale) IsNumber := by
  refine .bind fun head => ?_
  split
  · exact exponent_yields _ _ _
  · exact exponent_yields _ _ _
  · exact finishDouble_yields _ _ _

theorem fraction_yields (positive : Bool) (significand dropped : Nat) :
    Yields (fraction positive significand dropped) IsNumber := by
  refine .bind fun _ => .bind fun ds => ?_
  split
  · refine .bind fun head => ?_
    split
    · exact .failAfter _
    · exact .failAfter _
  · split
    · exact power_yields _ _ _
    · exact power_yields _ _ _

theorem afterInteger_yields (positive : Bool) {significand : Nat}
    (h : significand ≤ maxSignificand) (dropped : Nat) :
    Yields (afterInteger positive significand dropped) IsNumber := by
  refine .bind fun head => ?_
  split
  · exact fraction_yields _ _ _
  · exact exponent_yields _ _ _
  · exact exponent_yields _ _ _
  · split
    · exact finishDouble_yields _ _ _
    · split
      · exact .pure (intInRange_ofNat h)
      · split
        · exact .pure trivial
        · next hnegative =>
            exact .pure (intInRange_neg (Nat.le_of_not_lt (not_or.mp hnegative).2))

theorem number_yields (positive : Bool) : Yields (number positive) IsNumber := by
  refine .bind fun head => ?_
  split
  · exact .fail _
  · refine .bind fun _ => .bind fun next => ?_
    split
    · split
      · exact .failAfter _
      · exact afterInteger_yields _ (Nat.zero_le _) _
    · exact afterInteger_yields _ (Nat.zero_le _) _
  · split
    · exact .failAfter _
    · exact .bind fun ds => afterInteger_yields _ (takeInteger_le (Nat.zero_le _) ds) _

def IsScalar : Document → Prop
  | .null | .bool _ | .text _ => True
  | d => IsNumber d

/-- What the first byte of a value without parts says about it. -/
structure ScalarBegins (b : UInt8) (d : Document) : Prop where
  /-- No value begins with a comma or with a bracket that closes. -/
  begins : b ≠ 44 ∧ b ≠ 93 ∧ b ≠ 125
  null : d = .null ↔ b = 110
  isScalar : IsScalar d

theorem IsNumber.isScalar {d : Document} (h : IsNumber d) : IsScalar d ∧ d ≠ .null := by
  cases d with
  | int i => exact ⟨h, nofun⟩
  | float x => exact ⟨h, nofun⟩
  | _ => exact h.elim

theorem scalarBegins {c c' : Cursor} {d : Document} (h : scalar c = .ok d c') :
    ∃ b, c.rest.head? = some b ∧ ScalarBegins b d := by
  obtain ⟨head, _, ⟨rfl, rfl⟩, h⟩ := bind_eq_ok.mp h
  generalize c.rest.head? = head at h
  split at h
  · obtain ⟨_, _, -, ⟨rfl, rfl⟩⟩ := bind_eq_ok.mp h
    exact ⟨_, rfl, by decide, by simp, trivial⟩
  · obtain ⟨_, _, -, ⟨rfl, rfl⟩⟩ := bind_eq_ok.mp h
    exact ⟨_, rfl, by decide, by simp, trivial⟩
  · obtain ⟨_, _, -, ⟨rfl, rfl⟩⟩ := bind_eq_ok.mp h
    exact ⟨_, rfl, by decide, by simp, trivial⟩
  · obtain ⟨_, _, -, h⟩ := bind_eq_ok.mp h
    obtain ⟨hscalar, hnull⟩ := (number_yields _ _ _ _ h).isScalar
    exact ⟨_, rfl, by decide, by simp [hnull], hscalar⟩
  · obtain ⟨_, _, -, h⟩ := bind_eq_ok.mp h
    obtain ⟨_, _, -, ⟨rfl, rfl⟩⟩ := bind_eq_ok.mp h
    exact ⟨_, rfl, by decide, by simp, trivial⟩
  · next b hb _ _ _ _ =>
      split at h
      · next hdigit =>
          obtain ⟨hscalar, hnull⟩ := (number_yields _ _ _ _ h).isScalar
          have hbegins : b ≠ 44 ∧ b ≠ 93 ∧ b ≠ 125 := by
            refine ⟨?_, ?_, ?_⟩ <;> rintro rfl <;> exact absurd hdigit (by decide)
          have hword : b ≠ 110 := by
            rintro rfl
            exact absurd hdigit (by decide)
          exact ⟨b, rfl, hbegins, iff_of_false hnull hword, hscalar⟩
      · cases h
  · cases h

/-- No value begins with a comma or with a bracket that closes. -/
theorem document_begins {levels : Nat} {c c' : Cursor} {d : Document}
    (h : documentWithin levels c = .ok d c') :
    ∃ b, (unblanked c.rest).head? = some b ∧ b ≠ 44 ∧ b ≠ 93 ∧ b ≠ 125 := by
  cases levels with
  | zero => cases h
  | succ levels =>
      cases valueFollows_of_document h with
      | list hhead _ => exact ⟨91, hhead, by decide⟩
      | object hhead _ => exact ⟨123, hhead, by decide⟩
      | scalar hhead _ _ hscalar =>
          obtain ⟨b, hb, hbegins⟩ := scalarBegins hscalar
          rw [rest_pastBlanks] at hb
          exact ⟨b, hb, hbegins.begins⟩

end Gatehouse.Json.Reader
