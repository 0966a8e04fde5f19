import Gatehouse.Proofs.Effect
import Gatehouse.Proofs.Json.Attested

/-!
# What is written is read

Where a value can be made of the document that a text holds, the decoder reads the same value off
the text, without making the document first.  Together with the converse, what a text is read as is
told by the document it holds.
-/

namespace Gatehouse.Json

open Reader

variable {α β σ : Type}

/-! ## Direct readers -/

/-- What can be made of a document is read off the text in which the document stands. -/
def Direct (take : Document → Except Misfit α) (read : Reader α) : Prop :=
  ∀ c d last a, document c = .ok d last → take d = .ok a → read c = .ok a last

namespace Direct

variable {take : Document → Except Misfit α} {read : Reader α}

/-- A part of a document has one level less, which makes no difference. -/
theorem part (h : Direct take read) {c last : Cursor} {d : Document} {a : α}
    (hd : documentWithin maxDepth c = .ok d last) (htake : take d = .ok a) :
    read c = .ok a last :=
  h c d last a (extends_documentWithin maxDepth c d last hd) htake

theorem run (h : Direct take read) {bytes : List UInt8} {d : Document} {a : α}
    (hrun : document.run bytes = .ok d) (htake : take d = .ok a) : read.run bytes = .ok a := by
  obtain ⟨last, hd, hend⟩ := run_eq_ok.mp hrun
  exact run_eq_ok.mpr ⟨last, h _ _ _ _ hd htake, hend⟩

theorem map (h : Direct take read) (f : α → β) :
    Direct (fun d => (take d).map f) (f <$> read) := by
  intro c d last b hd htake
  obtain ⟨a, ha, rfl⟩ := Effect.map_eq_ok.mp htake
  change EStateM.map f read c = _
  rw [EStateM.map, h c d last a hd ha]

theorem ofDocument (accept : Document → Except Misfit α) :
    Direct accept (Decoder.ofDocument accept).read := by
  intro c d last a hd htake
  refine bind_eq_ok.mpr ⟨d, last, hd, ?_⟩
  rw [htake]
  rfl

theorem ofScalar {accept : Document → Except Misfit α}
    (hlist : ∀ items, ∃ misfit, accept (.list items) = .error misfit)
    (hobject : ∀ members, ∃ misfit, accept (.table members) = .error misfit) :
    Direct accept (Decoder.ofScalar accept).read := by
  intro c d last a hd htake
  refine placed_eq_ok.mpr ?_
  cases valueFollows_of_document hd with
  | list hhead h =>
      obtain ⟨misfit, hmisfit⟩ := hlist _
      rw [hmisfit] at htake
      cases htake
  | object hhead h =>
      obtain ⟨misfit, hmisfit⟩ := hobject _
      rw [hmisfit] at htake
      cases htake
  | scalar hhead hnotList hnotObject hscalar =>
      rw [bind_of_ok (first_eq_ok.mpr ⟨hhead, rfl⟩)]
      split
      · exact absurd rfl hnotList
      · exact absurd rfl hnotObject
      · refine bind_eq_ok.mpr ⟨d, last, hscalar, ?_⟩
        rw [htake]
        rfl

/-! ## Options -/

@[simp]
theorem decodeOption {d : Decoder α} (h : Direct (d.take .value) d.read) :
    Direct ((decodeOption d).take .value) (decodeOption d).read := by
  intro c doc last found hdoc htake
  refine next?_bind_eq_ok.mpr ?_
  -- Nothing is told from a value by the first byte, which only the document `null` begins with.
  by_cases hnull : doc = .null
  · subst hnull
    obtain rfl := Except.ok.inj htake
    cases valueFollows_of_document hdoc with
    | scalar hhead _ _ hscalar =>
        obtain ⟨b, hb, hbegins⟩ := scalarBegins hscalar
        rw [rest_pastBlanks, hbegins.null.mp rfl] at hb
        rw [hb]
        exact bind_eq_ok.mpr ⟨_, _, hscalar, rfl⟩
  · have hsome : (d.take .value doc).map some = .ok found := by
      cases doc with
      | null => exact absurd rfl hnull
      | _ => exact htake
    have hread : (some <$> d.read) c.pastBlanks = .ok found last := by
      apply h.map some _ doc last found _ hsome
      rw [document_pastBlanks]
      exact hdoc
    have hhead : (unblanked c.rest).head? ≠ some 110 := by
      intro hhead
      cases valueFollows_of_document hdoc with
      | list hlist _ => cases hlist.symm.trans hhead
      | object hobject _ => cases hobject.symm.trans hhead
      | scalar _ _ _ hscalar =>
          obtain ⟨b, hb, hbegins⟩ := scalarBegins hscalar
          rw [rest_pastBlanks, hhead] at hb
          exact hnull (hbegins.null.mpr (Option.some.inj hb).symm)
    generalize (unblanked c.rest).head? = head at hhead
    split
    · exact absurd rfl hhead
    · exact hread

/-! ## Lists -/

theorem itemsFrom (h : Direct take read) {fuel : Nat} {isFirst : Bool} {c last : Cursor}
    {docs : List Document} {found : List α}
    (hitems : Reader.itemsFrom (documentWithin maxDepth) fuel isFirst c = .ok docs last)
    (htakes : docs.mapM take = .ok found) :
    Reader.itemsFrom read fuel isFirst c = .ok found last := by
  induction fuel generalizing isFirst c docs found with
  | zero =>
      cases hitems
      cases htakes
      rfl
  | succ fuel ih =>
      obtain ⟨more, between, hnext, hitems⟩ := bind_eq_ok.mp hitems
      refine bind_eq_ok.mpr ⟨more, between, hnext, ?_⟩
      cases more with
      | false =>
          cases hitems
          cases htakes
          rfl
      | true =>
          obtain ⟨d, behind, hd, hitems⟩ := bind_eq_ok.mp hitems
          obtain ⟨rest, _, hrest, ⟨rfl, rfl⟩⟩ := bind_eq_ok.mp hitems
          rw [List.mapM_cons] at htakes
          obtain ⟨a, ha, htakes⟩ := Effect.bind_eq_ok.mp htakes
          obtain ⟨more, hmore, htakes⟩ := Effect.bind_eq_ok.mp htakes
          cases htakes
          refine bind_eq_ok.mpr ⟨a, behind, h.part hd ha, ?_⟩
          exact bind_eq_ok.mpr ⟨more, _, ih hrest hmore, rfl⟩

@[simp]
theorem decodeList {d : Decoder α} (h : Direct (d.take .value) d.read) :
    Direct ((decodeList d).take .value) (decodeList d).read := by
  intro c doc last found hdoc htake
  cases valueFollows_of_document hdoc with
  | list hhead hlist =>
      obtain ⟨depth, inner, hdepth, hitems, hclose⟩ := bracketed_eq_ok.mp hlist
      obtain ⟨_, _, ⟨rfl, rfl⟩, hitems⟩ := bind_eq_ok.mp hitems
      refine bind_eq_ok.mpr ⟨91, _, first_eq_ok.mpr ⟨hhead, rfl⟩, ?_⟩
      refine bracketed_eq_ok.mpr ⟨depth, inner, hdepth, ?_, hclose⟩
      exact bind_eq_ok.mpr ⟨_, _, rfl, h.itemsFrom hitems htake⟩
  | object hhead hobject => cases htake
  | scalar hhead hnotList hnotObject hscalar =>
      obtain ⟨b, -, hbegins⟩ := scalarBegins hscalar
      cases doc with
      | list docs => exact hbegins.isScalar.elim
      | _ => cases htake

end Direct

/-! ## Objects -/

/-- A member is read as long as something can be made of it and of all that come after it. -/
def DirectMember (member : σ → Reader σ) (makes : σ → List (String × Document) → Prop) : Prop :=
  ∀ s c name d behindName behindColon last rest, quoted c = .ok name behindName →
    colon behindName = .ok () behindColon → documentWithin maxDepth behindColon = .ok d last →
      makes s ((name, d) :: rest) → ∃ s', member s c = .ok s' last ∧ makes s' rest

namespace DirectMember

variable {member : σ → Reader σ} {makes : σ → List (String × Document) → Prop}

theorem membersFrom (h : DirectMember member makes) {fuel : Nat} {isFirst : Bool} {s : σ}
    {c last : Cursor} {found : List (String × Document)}
    (hentries : EntriesFollow (documentWithin maxDepth) fuel isFirst c found last)
    (hmakes : makes s found) :
    ∃ s', Reader.membersFrom member fuel isFirst s c = .ok s' last ∧ makes s' [] := by
  induction hentries generalizing s with
  | spent => exact ⟨s, rfl, hmakes⟩
  | ended hnext => exact ⟨s, bind_eq_ok.mpr ⟨false, _, hnext, rfl⟩, hmakes⟩
  | member hnext hname hcolon hd _ ih =>
      obtain ⟨s₁, hs, hrest⟩ := h s _ _ _ _ _ _ _ hname hcolon hd hmakes
      obtain ⟨s', hs', hdone⟩ := ih hrest
      refine ⟨s', bind_eq_ok.mpr ⟨true, _, hnext, ?_⟩, hdone⟩
      exact bind_eq_ok.mpr ⟨s₁, _, hs, hs'⟩

theorem members (h : DirectMember member makes) {s : σ} {c last : Cursor}
    {found : List (String × Document)}
    (hentries : entriesOf (documentWithin maxDepth) c = .ok found last) (hmakes : makes s found) :
    ∃ s', Reader.members member s c = .ok s' last ∧ makes s' [] := by
  obtain ⟨s', hs', hdone⟩ := h.membersFrom (entriesFollow_of_entriesOf hentries) hmakes
  exact ⟨s', bind_eq_ok.mpr ⟨_, _, rfl, hs'⟩, hdone⟩

end DirectMember

@[simp]
theorem Direct.decodeMap {d : Decoder α} (h : Direct (d.take .value) d.read) :
    Direct ((decodeMap d).take .value) (decodeMap d).read := by
  intro c doc last table hdoc htake
  have hmember : DirectMember
      (fun bound : Table α => do
        let name ← quoted
        colon
        return Table.insert name (← d.read) bound)
      (fun bound members => members.foldlM (fun bound member => do
        return Table.insert member.1 (← d.take .value member.2) bound) bound = .ok table) := by
    intro bound c name part behindName behindColon last rest hname hcolon hpart hmakes
    rw [List.foldlM_cons] at hmakes
    obtain ⟨bound', hbound, hmakes⟩ := Effect.bind_eq_ok.mp hmakes
    obtain ⟨a, ha, hbound⟩ := Effect.bind_eq_ok.mp hbound
    cases hbound
    refine ⟨_, ?_, hmakes⟩
    refine bind_eq_ok.mpr ⟨name, behindName, hname, ?_⟩
    refine bind_eq_ok.mpr ⟨(), behindColon, hcolon, ?_⟩
    exact bind_eq_ok.mpr ⟨a, last, h.part hpart ha, rfl⟩
  cases valueFollows_of_document hdoc with
  | list hhead hlist => cases htake
  | object hhead hobject =>
      obtain ⟨depth, inner, hdepth, hentries, hclose⟩ := bracketed_eq_ok.mp hobject
      obtain ⟨bound, hmembers, hdone⟩ := hmember.members hentries htake
      obtain rfl := Except.ok.inj hdone
      refine bind_eq_ok.mpr ⟨123, _, first_eq_ok.mpr ⟨hhead, rfl⟩, ?_⟩
      exact bracketed_eq_ok.mpr ⟨depth, inner, hdepth, hmembers, hclose⟩
  | scalar hhead hnotList hnotObject hscalar =>
      obtain ⟨b, -, hbegins⟩ := scalarBegins hscalar
      cases doc with
      | table members => exact hbegins.isScalar.elim
      | inlineTable members => exact hbegins.isScalar.elim
      | moment written => exact hbegins.isScalar.elim
      | _ => cases htake

/-! ## Simple values -/

@[simp]
theorem direct_decodeString : Direct (decodeString.take .value) decodeString.read :=
  .ofScalar (fun _ => ⟨_, rfl⟩) fun _ => ⟨_, rfl⟩

@[simp]
theorem direct_decodeBool : Direct (decodeBool.take .value) decodeBool.read :=
  .ofScalar (fun _ => ⟨_, rfl⟩) fun _ => ⟨_, rfl⟩

@[simp]
theorem direct_decodeUnsigned (bits : Nat) :
    Direct ((decodeUnsigned bits).take .value) (decodeUnsigned bits).read :=
  Direct.map (.ofScalar (fun _ => ⟨_, rfl⟩) fun _ => ⟨_, rfl⟩) Int.toNat

@[simp]
theorem direct_decodeValue : Direct (decodeValue.take .value) decodeValue.read :=
  .ofDocument _

theorem direct_decodeNothing : Direct (decodeNothing.take .value) decodeNothing.read :=
  .ofScalar (fun _ => ⟨_, rfl⟩) fun _ => ⟨_, rfl⟩

/-! ## Choices -/

/-- A text is written in quotes. -/
theorem scalar_text {c last : Cursor} {name : String} (h : scalar c = .ok (.text name) last) :
    c.rest.head? = some 34 ∧ quoted c.advance = .ok name last := by
  obtain ⟨head, _, ⟨rfl, rfl⟩, h⟩ := bind_eq_ok.mp h
  generalize hhead : c.rest.head? = head at h
  split at h
  · obtain ⟨_, _, -, h⟩ := bind_eq_ok.mp h
    cases h
  · obtain ⟨_, _, -, h⟩ := bind_eq_ok.mp h
    cases h
  · obtain ⟨_, _, -, h⟩ := bind_eq_ok.mp h
    cases h
  · obtain ⟨_, _, -, h⟩ := bind_eq_ok.mp h
    exact (number_yields _ _ _ _ h).elim
  · obtain ⟨_, _, ⟨rfl, rfl⟩, h⟩ := bind_eq_ok.mp h
    obtain ⟨_, _, hname, ⟨rfl, rfl⟩⟩ := bind_eq_ok.mp h
    exact ⟨rfl, hname⟩
  · split at h
    · exact (number_yields _ _ _ _ h).elim
    · cases h
  · cases h

theorem choiceName_of_quoted {choices : List (String × α)} {c last : Cursor} {name : String} {a : α}
    (hname : quoted c.advance = .ok name last) (hchoose : choose choices name = .ok a) :
    choiceName choices c = .ok a last := by
  refine placed_eq_ok.mpr (bind_eq_ok.mpr ⟨(), _, rfl, bind_eq_ok.mpr ⟨name, last, hname, ?_⟩⟩)
  rw [hchoose]
  rfl

/-- A choice is made of its name, or of an object that binds its name to nothing. -/
theorem takeChoice_eq_ok {choices : List (String × α)} {d : Document} {a : α}
    (h : takeChoice choices .value d = .ok a) : ∃ name, choose choices name = .ok a ∧
      (d = .text name ∨ ∃ argument, d = .table [(name, argument)] ∧
        decodeNothing.take .value argument = .ok ()) := by
  cases d with
  | text name => exact ⟨name, h, .inl rfl⟩
  | table members =>
      obtain _ | ⟨⟨name, argument⟩, _ | ⟨_, _⟩⟩ := members
      · cases h
      · obtain ⟨a', hchoose, h⟩ := Effect.bind_eq_ok.mp h
        obtain ⟨_, hnothing, h⟩ := Effect.bind_eq_ok.mp h
        cases h
        exact ⟨name, hchoose, .inr ⟨argument, rfl, hnothing⟩⟩
      · cases h
  | _ => cases h

/-- An object with one member is read as the choice of that name. -/
theorem choiceObject_direct {choices : List (String × α)} {c last : Cursor} {name : String}
    {argument : Document} {a : α} (hchoose : choose choices name = .ok a)
    (hnothing : decodeNothing.take .value argument = .ok ())
    (h : inObject (entriesOf (documentWithin maxDepth)) c = .ok [(name, argument)] last) :
    ∃ between, opened (choiceMember choices) c = .ok a between ∧
      (unblanked between.rest).head? = some 125 ∧ last = between.pastBlanks.advance := by
  obtain ⟨depth, inner, hdepth, hentries, hclose⟩ := bracketed_eq_ok.mp h
  obtain ⟨hend, rfl⟩ := endObject_eq_ok.mp hclose
  -- Behind its only member the object ends, possibly after blanks.
  obtain ⟨behind, hmember, rfl⟩ : ∃ behind,
      choiceMember choices (c.advance.atDepth depth) = .ok a behind ∧ inner = behind.pastBlanks := by
    cases entriesFollow_of_entriesOf hentries with
    | @member _ _ _ _ _ _ behind _ _ _ _ hnext hname hcolon hargument hrest =>
        cases nameFollows_of_nextName hnext with
        | front hquote =>
            refine ⟨behind, ?_, ?_⟩
            · refine bind_eq_ok.mpr ⟨34, _, first_eq_ok.mpr ⟨hquote, rfl⟩, ?_⟩
              refine bind_eq_ok.mpr ⟨a, _, choiceName_of_quoted hname hchoose, ?_⟩
              refine bind_eq_ok.mpr ⟨(), _, hcolon, bind_eq_ok.mpr ⟨(), _, ?_, rfl⟩⟩
              exact direct_decodeNothing.part hargument hnothing
            · cases hrest with
              | ended hnone =>
                  cases nameFollows_of_nextName hnone with
                  | ended _ => rfl
  refine ⟨_, opened_eq_ok.mpr ⟨depth, behind, hdepth, hmember, rfl⟩, ?_, ?_⟩
  · rwa [Cursor.rest_atDepth, rest_pastBlanks, unblanked_unblanked] at hend
  · rw [depth_pastBlanks, pastBlanks_atDepth, pastBlanks_atDepth, pastBlanks_pastBlanks]

theorem direct_decodeChoice (choices : List (String × α)) :
    Direct ((decodeChoice choices).take .value) (decodeChoice choices).read := by
  intro c d last a hd htake
  obtain ⟨name, hchoose, rfl | ⟨argument, rfl, hnothing⟩⟩ := takeChoice_eq_ok htake
  · cases valueFollows_of_document hd with
    | scalar hhead _ _ hscalar =>
        obtain ⟨hquote, hname⟩ := scalar_text hscalar
        rw [rest_pastBlanks] at hquote
        refine bind_eq_ok.mpr ⟨34, _, first_eq_ok.mpr ⟨hquote, rfl⟩, ?_⟩
        exact choiceName_of_quoted hname hchoose
  · cases valueFollows_of_document hd with
    | object hhead hobject =>
        obtain ⟨between, hopened, hend, rfl⟩ := choiceObject_direct hchoose hnothing hobject
        refine bind_eq_ok.mpr ⟨123, _, first_eq_ok.mpr ⟨hhead, rfl⟩, ?_⟩
        refine bind_eq_ok.mpr ⟨a, between, hopened, next?_bind_eq_ok.mpr ?_⟩
        rw [hend]
        rfl
    | scalar _ _ _ hscalar =>
        obtain ⟨_, -, hbegins⟩ := scalarBegins hscalar
        exact hbegins.isScalar.elim

/-! ## Records -/

/-- A field is read off the text in which stands what it is made of. -/
def Slot.Direct (field : Slot σ) : Prop :=
  ∀ s, Json.Direct (field.take .value s) (field.read s)

@[simp]
theorem Slot.direct_of {d : Decoder α} (h : Json.Direct (d.take .value) d.read) (name : String)
    (put : σ → α → σ) : (Slot.of name d put).Direct := fun s => h.map (put s)

@[simp]
theorem Slot.Direct.require {field : Slot σ} (h : field.Direct) : field.require.Direct := h

namespace RecordShape

variable {shape : RecordShape σ}

theorem direct_readMember (hothers : shape.others = .refused)
    (hfields : ∀ field ∈ shape.fields, field.Direct) (made : σ) :
    DirectMember shape.readMember fun before members =>
      shape.takeMembers .value before.1 before.2 members = .ok made := by
  rintro ⟨seen, s⟩ c name d behindName behindColon last rest hname hcolon hd hmakes
  dsimp only at hmakes
  rw [takeMembers] at hmakes
  cases hfield : shape.field? name with
  | none =>
      simp only [hfield, hothers] at hmakes
      cases hmakes
  | some field =>
      simp only [hfield] at hmakes
      by_cases hseen : seen.contains name = true
      · rw [if_pos hseen] at hmakes
        cases hmakes
      · rw [if_neg hseen] at hmakes
        obtain ⟨s₁, hs, hmakes⟩ := Effect.bind_eq_ok.mp hmakes
        refine ⟨(name :: seen, s₁), bind_eq_ok.mpr ⟨name, behindName, hname, ?_⟩, hmakes⟩
        simp only [hfield, hseen]
        refine bind_eq_ok.mpr ⟨(), behindColon, hcolon, bind_eq_ok.mpr ⟨s₁, last, ?_, rfl⟩⟩
        exact (hfields field (List.mem_of_find?_eq_some hfield) s).part hd hs

/-- Where a list has ended, the remaining fields are left out. -/
theorem readItems_of_ended {fields : List (Slot σ)} {position : Nat} {s s' : σ} {c : Cursor}
    (hend : (unblanked c.rest).head? = some 93)
    (htake : shape.takeItems .value position s fields [] = .ok s') :
    ∃ last, shape.readItems position s fields c = .ok s' last ∧ last.pastBlanks = c.pastBlanks := by
  induction fields generalizing position c with
  | nil =>
      cases htake
      exact ⟨c, rfl, rfl⟩
  | cons field fields ih =>
      rw [takeItems] at htake
      by_cases homissible : field.omissible = true
      · rw [if_pos homissible] at htake
        have hend' : (unblanked c.pastBlanks.rest).head? = some 93 := by
          rw [rest_pastBlanks, unblanked_unblanked]
          exact hend
        obtain ⟨last, hread, hlast⟩ := ih hend' htake
        refine ⟨last, bind_eq_ok.mpr ⟨false, _, nextItem_ended hend _, ?_⟩, ?_⟩
        · simp only [homissible, if_true]
          exact hread
        · rw [hlast, pastBlanks_pastBlanks]
      · rw [if_neg homissible] at htake
        cases htake

theorem direct_readItems {fields : List (Slot σ)} (hfields : ∀ field ∈ fields, field.Direct)
    {fuel position : Nat} {s s' : σ} {c last : Cursor} {docs : List Document}
    (hitems : itemsFrom (documentWithin maxDepth) fuel (position = 0) c = .ok docs last)
    (htake : shape.takeItems .value position s fields docs = .ok s')
    (hend : (unblanked last.rest).head? = some 93) :
    ∃ last', shape.readItems position s fields c = .ok s' last' ∧
      last'.pastBlanks = last.pastBlanks := by
  induction fields generalizing fuel position s c docs with
  | nil =>
      cases docs with
      | nil =>
          cases htake
          exact ⟨c, rfl, (itemsFrom_nil hitems hend).2.symm⟩
      | cons d docs => cases htake
  | cons field fields ih =>
      cases docs with
      | nil =>
          obtain ⟨hhead, hlast⟩ := itemsFrom_nil hitems hend
          obtain ⟨last', hread, hlast'⟩ := readItems_of_ended hhead htake
          exact ⟨last', hread, hlast'.trans hlast.symm⟩
      | cons d docs =>
          obtain ⟨more, between, behind, hnext, hd, hrest⟩ := itemsFrom_cons hitems
          rw [takeItems] at htake
          obtain ⟨s₁, hs, htake⟩ := Effect.bind_eq_ok.mp htake
          obtain ⟨hfield, hfields⟩ := List.forall_mem_cons.mp hfields
          have hnot : decide (position + 1 = 0) = false := by simp
          rw [← hnot] at hrest
          obtain ⟨last', hread, hlast⟩ := ih hfields hrest htake
          refine ⟨last', bind_eq_ok.mpr ⟨true, between, hnext, ?_⟩, hlast⟩
          exact bind_eq_ok.mpr ⟨s₁, behind, (hfield s).part hd hs, hread⟩

theorem direct_decode (shape : RecordShape σ) (hothers : shape.others = .refused)
    (hfields : ∀ field ∈ shape.fields, field.Direct) (start : σ) :
    Direct ((shape.decode start).take .value) (shape.decode start).read := by
  intro c d last s hd htake
  cases valueFollows_of_document hd with
  | list hhead hlist =>
      change (if shape.listed then shape.takeItems .value 0 start shape.fields _
        else wrongType shape.title _) = _ at htake
      by_cases hlisted : shape.listed = true
      · rw [if_pos hlisted] at htake
        obtain ⟨depth, inner, hdepth, hitems, hclose⟩ := bracketed_eq_ok.mp hlist
        obtain ⟨_, _, ⟨rfl, rfl⟩, hitems⟩ := bind_eq_ok.mp hitems
        obtain ⟨hend, rfl⟩ := endList_eq_ok.mp hclose
        rw [Cursor.rest_atDepth] at hend
        obtain ⟨last', hread, hlast⟩ := direct_readItems hfields hitems htake hend
        refine bind_eq_ok.mpr ⟨91, _, first_eq_ok.mpr ⟨hhead, rfl⟩, ?_⟩
        simp only [hlisted, if_true]
        refine bracketed_eq_ok.mpr ⟨depth, last', hdepth, hread, endList_eq_ok.mpr ⟨?_, ?_⟩⟩
        · rw [Cursor.rest_atDepth, ← rest_pastBlanks, hlast, rest_pastBlanks]
          exact hend
        · rw [pastBlanks_atDepth, pastBlanks_atDepth, hlast, ← depth_pastBlanks last', hlast,
            depth_pastBlanks]
      · rw [if_neg hlisted] at htake
        cases htake
  | object hhead hobject =>
      obtain ⟨depth, inner, hdepth, hentries, hclose⟩ := bracketed_eq_ok.mp hobject
      obtain ⟨⟨seen, s'⟩, hmembers, hdone⟩ :=
        (direct_readMember hothers hfields s).members (s := ([], start)) hentries htake
      dsimp only at hdone
      rw [takeMembers] at hdone
      obtain ⟨_, hcomplete, hdone⟩ := Effect.bind_eq_ok.mp hdone
      cases hdone
      refine bind_eq_ok.mpr ⟨123, _, first_eq_ok.mpr ⟨hhead, rfl⟩, ?_⟩
      refine bracketed_eq_ok.mpr ⟨depth, inner, hdepth, ?_, hclose⟩
      exact readMembers_eq_ok.mpr ⟨seen, hmembers, hcomplete⟩
  | scalar _ _ _ hscalar =>
      obtain ⟨_, -, hbegins⟩ := scalarBegins hscalar
      cases d with
      | list docs => exact hbegins.isScalar.elim
      | table members => exact hbegins.isScalar.elim
      | inlineTable members => exact hbegins.isScalar.elim
      | moment written => exact hbegins.isScalar.elim
      | _ => cases htake

end RecordShape

end Gatehouse.Json
