import Gatehouse.Json.Record
import Gatehouse.Proofs.Json.Faithful
import Gatehouse.Proofs.Json.Nesting

/-!
# Two readings of one record

If every field of a record is faithful then so is the record: its members are read as they are
taken of the document, and what is passed over is passed as far as it is read.
-/

namespace Gatehouse.Json

open Reader

variable {α σ : Type}

/-! ## Fields -/

/-- A field is taken of a document as it is read off a text. -/
def Slot.Faithful (field : Slot σ) : Prop :=
  ∀ s, Json.Faithful (field.take .value s) (field.read s)

theorem Slot.faithful_of {d : Decoder α} (h : Json.Faithful (d.take .value) d.read)
    (name : String) (put : σ → α → σ) : (Slot.of name d put).Faithful := fun s => h.map (put s)

theorem Slot.Faithful.optional {field : Slot σ} (h : field.Faithful) : field.optional.Faithful := h

namespace RecordShape

variable {shape : RecordShape σ}

/-- What a member adds to a record is what is taken of it. -/
theorem readMember_faithful (hfields : ∀ field ∈ shape.fields, field.Faithful)
    {c last last' : Cursor} {before found : List (String × Document)} {seen seen' : List String}
    {s s' : σ} (hentry : entry document before c = .ok found last)
    (hmember : shape.readMember (seen, s) c = .ok (seen', s') last') :
    Stuck last' ∨ last' = last ∧ ∃ member, found = member :: before ∧
      ∀ rest, shape.takeMembers .value seen s (member :: rest) =
        shape.takeMembers .value seen' s' rest := by
  obtain ⟨name, d, behindName, behindColon, hname, hcolon, hd, rfl⟩ := entry_eq_ok.mp hentry
  rw [readMember, bind_of_ok hname] at hmember
  cases hfield : shape.field? name with
  | some field =>
      simp only [hfield] at hmember
      by_cases hseen : seen.contains name = true
      · rw [if_pos hseen] at hmember
        cases hmember
      · rw [if_neg hseen, bind_of_ok hcolon] at hmember
        obtain ⟨s₁, between, hread, ⟨rfl, rfl⟩⟩ := bind_eq_ok.mp hmember
        have hagrees := hfields field (List.mem_of_find?_eq_some hfield) s _ _ _ hd
        rw [hread] at hagrees
        rcases hagrees with ⟨rfl, htake⟩ | hstuck
        · refine .inr ⟨rfl, _, rfl, fun rest => ?_⟩
          rw [takeMembers, hfield]
          simp only [hseen, htake]
          rfl
        · exact .inl hstuck
  | none =>
      simp only [hfield] at hmember
      cases hothers : shape.others with
      | refused =>
          simp only [hothers] at hmember
          cases hmember
      | passed =>
          simp only [hothers] at hmember
          rw [bind_of_ok hcolon, bind_of_ok (pass_of_document hd)] at hmember
          cases hmember
          refine .inr ⟨rfl, _, rfl, fun rest => ?_⟩
          rw [takeMembers, hfield]
          simp only [hothers]
      | kept put =>
          have hvalue : value behindColon = .ok d.toJson last := bind_eq_ok.mpr ⟨d, last, hd, rfl⟩
          simp only [hothers] at hmember
          rw [bind_of_ok hcolon, bind_of_ok hvalue] at hmember
          cases hmember
          refine .inr ⟨rfl, _, rfl, fun rest => ?_⟩
          rw [takeMembers, hfield]
          simp only [hothers]

/-- So is what several members add to it. -/
theorem readMembers_faithful (hfields : ∀ field ∈ shape.fields, field.Faithful) {fuel : Nat}
    {isFirst : Bool} {c last last' : Cursor} {before found : List (String × Document)}
    {seen seen' : List String} {s s' : σ}
    (hentries : membersFrom (entry document) fuel isFirst before c = .ok found last)
    (hmembers : membersFrom shape.readMember fuel isFirst (seen, s) c = .ok (seen', s') last') :
    Stuck last' ∨ last' = last ∧ ∃ members, found = members.reverse ++ before ∧
      ∀ rest, shape.takeMembers .value seen s (members ++ rest) =
        shape.takeMembers .value seen' s' rest := by
  induction fuel generalizing isFirst c before seen s with
  | zero =>
      cases hentries
      cases hmembers
      exact .inr ⟨rfl, [], rfl, fun _ => rfl⟩
  | succ fuel ih =>
      obtain ⟨more, between, hnext, hentries⟩ := bind_eq_ok.mp hentries
      rw [membersFrom, bind_of_ok hnext] at hmembers
      cases more with
      | false =>
          cases hentries
          cases hmembers
          exact .inr ⟨rfl, [], rfl, fun _ => rfl⟩
      | true =>
          obtain ⟨before', behind, hentry, hentries⟩ := bind_eq_ok.mp hentries
          obtain ⟨⟨seen₁, s₁⟩, behind', hmember, hmembers⟩ := bind_eq_ok.mp hmembers
          rcases readMember_faithful hfields hentry hmember with
            hstuck | ⟨rfl, member, rfl, htake⟩
          · -- The loop ends where it is stuck, for lack of fuel.
            cases fuel with
            | zero =>
                cases hmembers
                exact .inl hstuck
            | succ fuel =>
                obtain ⟨_, _, hnext', -⟩ := bind_eq_ok.mp hmembers
                exact absurd hnext' (hstuck.nextName _)
          · refine (ih hentries hmembers).imp_right ?_
            rintro ⟨rfl, members, rfl, hrest⟩
            refine ⟨rfl, member :: members, by simp, fun rest => ?_⟩
            rw [List.cons_append, htake, hrest]

theorem readMembers_eq_ok {start s : σ} {c last : Cursor} :
    shape.readMembers start c = .ok s last ↔ ∃ seen,
      members shape.readMember ([], start) c = .ok (seen, s) last ∧
        shape.complete seen = .ok () := by
  constructor
  · intro h
    obtain ⟨⟨seen, s'⟩, between, hmembers, h⟩ := bind_eq_ok.mp h
    cases hcomplete : shape.complete seen with
    | error misfit =>
        simp only [hcomplete] at h
        cases h
    | ok _ =>
        simp only [hcomplete] at h
        cases h
        exact ⟨seen, hmembers, hcomplete⟩
  · rintro ⟨seen, hmembers, hcomplete⟩
    rw [readMembers, bind_of_ok hmembers]
    simp only [hcomplete]
    rfl

/-- At the end of a list the fields that are left are left out. -/
theorem readItems_ended {fields : List (Slot σ)} {position : Nat} {s s' : σ} {c last : Cursor}
    (hend : (unblanked c.rest).head? = some 93)
    (h : shape.readItems position s fields c = .ok s' last) :
    last.pastBlanks = c.pastBlanks ∧ shape.takeItems .value position s fields [] = .ok s' := by
  induction fields generalizing position c with
  | nil =>
      cases h
      exact ⟨rfl, rfl⟩
  | cons field fields ih =>
      obtain ⟨more, between, hnext, h⟩ := bind_eq_ok.mp h
      generalize decide (position = 0) = isFirst at hnext
      cases itemFollows_of_nextItem hnext with
      | ended _ =>
          by_cases homissible : field.omissible = true
          · simp only [homissible, if_true] at h
            obtain ⟨hlast, htake⟩ := ih (by rwa [rest_pastBlanks, unblanked_unblanked]) h
            rw [pastBlanks_pastBlanks] at hlast
            refine ⟨hlast, ?_⟩
            rw [takeItems, if_pos homissible, htake]
          · simp only [homissible] at h
            cases h
      | front hhead hne => exact absurd (Option.some.inj (hhead.symm.trans hend)) hne
      | behindComma hhead => exact absurd (hhead.symm.trans hend) (by decide)

/-- What the items of a list add to a record is what is taken of them.  The fuel suffices since
every item takes a byte. -/
theorem readItems_faithful {fields : List (Slot σ)} (hfields : ∀ field ∈ fields, field.Faithful)
    {fuel : Nat} (position : Nat) {s s' : σ} {c last last' : Cursor} {found : List Document}
    (hfuel : c.rest.length < fuel)
    (hitems : itemsFrom document fuel (position = 0) c = .ok found last)
    (hread : shape.readItems position s fields c = .ok s' last')
    (hend : (unblanked last'.rest).head? = some 93) :
    last'.pastBlanks = last.pastBlanks ∧
      shape.takeItems .value position s fields found = .ok s' := by
  induction fields generalizing fuel position s c found with
  | nil =>
      cases hread
      obtain ⟨fuel, rfl⟩ := Nat.exists_eq_succ_of_ne_zero (Nat.ne_zero_of_lt hfuel)
      obtain ⟨more, between, hnext, hitems⟩ := bind_eq_ok.mp hitems
      generalize decide (position = 0) = isFirst at hnext
      cases itemFollows_of_nextItem hnext with
      | ended _ =>
          cases hitems
          exact ⟨(pastBlanks_pastBlanks last').symm, rfl⟩
      | front hhead hne => exact absurd (Option.some.inj (hhead.symm.trans hend)) hne
      | behindComma hhead => exact absurd (hhead.symm.trans hend) (by decide)
  | cons field fields ih =>
      obtain ⟨fuel, rfl⟩ := Nat.exists_eq_succ_of_ne_zero (Nat.ne_zero_of_lt hfuel)
      obtain ⟨more, between, hnext, hitems⟩ := bind_eq_ok.mp hitems
      have hfollows := itemFollows_of_nextItem hnext
      cases more with
      | false =>
          cases hitems
          generalize decide (position = 0) = isFirst at hfollows
          cases hfollows with
          | ended hend =>
              rw [pastBlanks_pastBlanks]
              exact readItems_ended hend hread
      | true =>
          obtain ⟨d, behind, hd, hitems⟩ := bind_eq_ok.mp hitems
          obtain ⟨rest, _, hitems, ⟨rfl, rfl⟩⟩ := bind_eq_ok.mp hitems
          rw [readItems, bind_of_ok hnext, if_pos rfl] at hread
          obtain ⟨s₁, behind', hs, hread⟩ := bind_eq_ok.mp hread
          have hagrees := hfields field List.mem_cons_self s _ _ _ hd
          rw [hs] at hagrees
          rcases hagrees with ⟨rfl, htake⟩ | hstuck
          · have hshorter : behind'.rest.length < fuel := by
              obtain ⟨_, _, -, hbytes, -⟩ := document_passing _ _ _ _ hd
              have hle := hfollows.length_le
              omega
            have hnot : (false : Bool) = decide (position + 1 = 0) := by simp
            rw [hnot] at hitems
            have hfields' : ∀ field ∈ fields, field.Faithful :=
              fun field h => hfields field (List.mem_cons_of_mem _ h)
            obtain ⟨hlast, hrest⟩ := ih hfields' (position + 1) hshorter hitems hread
            refine ⟨hlast, ?_⟩
            rw [takeItems, htake]
            exact hrest
          · cases fields with
            | nil =>
                cases hread
                obtain ⟨b, hb, -, hne, -⟩ := hstuck
                exact absurd (Option.some.inj (hb.symm.trans hend)) hne
            | cons _ _ =>
                obtain ⟨_, _, hnext', -⟩ := bind_eq_ok.mp hread
                have hnot : decide (position + 1 = 0) = false := by simp
                rw [hnot] at hnext'
                exact absurd hnext' (hstuck.nextItem _)

/-- A record that is read off a text is the record that is taken of the document. -/
theorem decode_faithful (hfields : ∀ field ∈ shape.fields, field.Faithful) {start s : σ}
    {c last last' : Cursor} {d : Document} (hdocument : document c = .ok d last)
    (hread : (shape.decode start).read c = .ok s last') :
    last' = last ∧ (shape.decode start).take .value d = .ok s := by
  have hextends := extends_documentWithin maxDepth
  change (first >>= _) c = _ at hread
  cases valueFollows_of_document hdocument with
  | list hhead hlist =>
      rw [bind_of_ok (first_eq_ok.mpr ⟨hhead, rfl⟩)] at hread
      by_cases hlisted : shape.listed = true
      · replace hlist := hextends.items.bracketed endList _ _ _ hlist
        rw [if_pos hlisted] at hread
        obtain ⟨depth, inner, hdepth, hitems, hclose⟩ := bracketed_eq_ok.mp hlist
        obtain ⟨depth', inner', hdepth', hfound, hclose'⟩ := bracketed_eq_ok.mp hread
        obtain rfl : depth = depth' := Nat.succ.inj (hdepth.symm.trans hdepth')
        obtain ⟨_, _, ⟨rfl, rfl⟩, hitems⟩ := bind_eq_ok.mp hitems
        obtain ⟨-, rfl⟩ := endList_eq_ok.mp hclose
        obtain ⟨hend, rfl⟩ := endList_eq_ok.mp hclose'
        obtain ⟨hinner, htake⟩ := readItems_faithful hfields 0
          (Nat.lt_add_of_pos_right (by decide)) hitems hfound hend
        refine ⟨?_, ?_⟩
        · have hlevel (e : Cursor) : (e.atDepth (e.depth + 1)).pastBlanks =
              e.pastBlanks.atDepth (e.pastBlanks.depth + 1) := by
            rw [pastBlanks_atDepth, depth_pastBlanks]
          rw [hlevel, hlevel, hinner]
        · change (if shape.listed then _ else _) = _
          rw [if_pos hlisted]
          exact htake
      · rw [if_neg hlisted] at hread
        exact absurd hread (refusing_read _ _ _ _)
  | object hhead hobject =>
      rw [bind_of_ok (first_eq_ok.mpr ⟨hhead, rfl⟩)] at hread
      replace hobject := hextends.entriesOf.bracketed endObject _ _ _ hobject
      obtain ⟨depth, inner, hdepth, hentries, hclose⟩ := bracketed_eq_ok.mp hobject
      obtain ⟨depth', inner', hdepth', hmembers, hclose'⟩ := bracketed_eq_ok.mp hread
      obtain rfl : depth = depth' := Nat.succ.inj (hdepth.symm.trans hdepth')
      obtain ⟨found, _, hentries, ⟨rfl, rfl⟩⟩ := bind_eq_ok.mp hentries
      obtain ⟨seen, hmembers, hcomplete⟩ := readMembers_eq_ok.mp hmembers
      obtain ⟨_, _, ⟨rfl, rfl⟩, hentries⟩ := bind_eq_ok.mp hentries
      obtain ⟨_, _, ⟨rfl, rfl⟩, hmembers⟩ := bind_eq_ok.mp hmembers
      rcases readMembers_faithful hfields hentries hmembers with
        hstuck | ⟨rfl, members, rfl, htake⟩
      · have hstuck' : Stuck (inner'.atDepth (inner'.depth + 1)) := hstuck
        exact absurd hclose' hstuck'.endObject
      · rw [hclose] at hclose'
        cases hclose'
        refine ⟨rfl, ?_⟩
        rw [List.append_nil, List.reverse_reverse]
        calc shape.takeMembers .value [] start members
            = shape.takeMembers .value [] start (members ++ []) := by rw [List.append_nil]
          _ = shape.takeMembers .value seen s [] := htake []
          _ = .ok s := by
              rw [takeMembers, hcomplete]
              rfl
  | scalar hhead hlist hobject _ =>
      rw [bind_of_ok (first_eq_ok.mpr ⟨hhead, rfl⟩)] at hread
      split at hread
      · exact absurd rfl hobject
      · exact absurd rfl hlist
      · exact absurd hread (refusing_read _ _ _ _)

end RecordShape

end Gatehouse.Json
