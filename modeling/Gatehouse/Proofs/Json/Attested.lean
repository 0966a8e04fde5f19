import Gatehouse.Json.Record
import Gatehouse.Proofs.Json.Faithful
import Gatehouse.Proofs.Json.Nesting
import Gatehouse.Proofs.Json.Records

/-!
# What is read is written

A decoder reads a value off a text without making a document of the text first.  Where it succeeds,
the text holds a document all the same, and the value is what is made of that.  So a text that is
read can be asked what it says.
-/

namespace Gatehouse.Json

open Reader

variable {α β σ : Type}

namespace Reader

/-! ## Levels and depth -/

/-- At a depth, wherever the first reader succeeds the second does the same, and both are back at
that depth. -/
def ExtendsAt (depth : Nat) (r r' : Reader α) : Prop :=
  ∀ c a c', c.depth = depth → r c = .ok a c' → r' c = .ok a c' ∧ c'.depth = depth

namespace ExtendsAt

variable {depth : Nat}

theorem of_passing {r : Reader α} (h : ∀ c a c', r c = .ok a c' → ∃ n, c' = c.advanceBy n) :
    ExtendsAt depth r r := by
  rintro c a c' rfl hrun
  obtain ⟨n, rfl⟩ := h c a c' hrun
  exact ⟨hrun, Cursor.depth_advanceBy n c⟩

theorem pure (a : α) : ExtendsAt depth (pure a : Reader α) (pure a) := by
  rintro c _ _ rfl ⟨rfl, rfl⟩
  exact ⟨rfl, rfl⟩

theorem bind {r r' : Reader α} {f f' : α → Reader β} (hr : ExtendsAt depth r r')
    (hf : ∀ a, ExtendsAt depth (f a) (f' a)) : ExtendsAt depth (r >>= f) (r' >>= f') := by
  intro c b c' hdepth h
  obtain ⟨a, between, hfirst, hnext⟩ := bind_eq_ok.mp h
  obtain ⟨hfirst', hbetween⟩ := hr _ _ _ hdepth hfirst
  obtain ⟨hnext', hend⟩ := hf a _ _ _ hbetween hnext
  exact ⟨bind_eq_ok.mpr ⟨a, between, hfirst', hnext'⟩, hend⟩

theorem nextItem (isFirst : Bool) : ExtendsAt depth (nextItem isFirst) (nextItem isFirst) := by
  rintro c more c' rfl h
  refine ⟨h, ?_⟩
  cases itemFollows_of_nextItem h with
  | ended _ => exact depth_pastBlanks c
  | front _ _ => exact depth_pastBlanks c
  | behindComma _ => rw [depth_pastBlanks, Cursor.depth_advance, depth_pastBlanks]

theorem nextName (isFirst : Bool) : ExtendsAt depth (nextName isFirst) (nextName isFirst) := by
  rintro c more c' rfl h
  refine ⟨h, ?_⟩
  cases nameFollows_of_nextName h with
  | ended _ => exact depth_pastBlanks c
  | front _ => rw [Cursor.depth_advance, depth_pastBlanks]
  | behindComma _ _ =>
      rw [Cursor.depth_advance, depth_pastBlanks, Cursor.depth_advance, depth_pastBlanks]

theorem items {item item' : Reader α} (hitem : ExtendsAt depth item item') :
    ExtendsAt depth (items item) (items item') := by
  have hfrom : ∀ fuel isFirst,
      ExtendsAt depth (itemsFrom item fuel isFirst) (itemsFrom item' fuel isFirst) := by
    intro fuel
    induction fuel with
    | zero => exact fun _ => pure _
    | succ fuel ih =>
        intro isFirst
        refine bind (nextItem isFirst) fun more => ?_
        cases more with
        | false => exact pure _
        | true => exact bind hitem fun _ => bind (ih false) fun _ => pure _
  intro c found c' hdepth h
  obtain ⟨_, _, ⟨rfl, rfl⟩, h⟩ := bind_eq_ok.mp h
  exact hfrom _ _ c found c' hdepth h

theorem members {member member' : σ → Reader σ}
    (hmember : ∀ s, ExtendsAt depth (member s) (member' s)) (s : σ) :
    ExtendsAt depth (members member s) (members member' s) := by
  have hfrom : ∀ fuel isFirst s,
      ExtendsAt depth (membersFrom member fuel isFirst s) (membersFrom member' fuel isFirst s) := by
    intro fuel
    induction fuel with
    | zero => exact fun _ _ => pure _
    | succ fuel ih =>
        intro isFirst s
        refine bind (nextName isFirst) fun more => ?_
        cases more with
        | false => exact pure s
        | true => exact bind (hmember s) fun s' => ih false s'
  intro c found c' hdepth h
  obtain ⟨_, _, ⟨rfl, rfl⟩, h⟩ := bind_eq_ok.mp h
  exact hfrom _ _ s c found c' hdepth h

theorem entriesOf {value value' : Reader α} (hvalue : ExtendsAt depth value value') :
    ExtendsAt depth (entriesOf value) (entriesOf value') := by
  have hname : ExtendsAt depth quoted quoted := of_passing fun c s c' h => by
    obtain ⟨n, -, hn, -⟩ := quoted_passes c s c' h
    exact ⟨n, hn⟩
  have hcolon : ExtendsAt depth colon colon := of_passing fun c u c' h => by
    obtain ⟨n, hn, -⟩ := LooksAtBytes.colon c u c' h
    exact ⟨n, hn⟩
  have hentry : ∀ before, ExtendsAt depth (entry value before) (entry value' before) :=
    fun _ => bind hname fun _ => bind hcolon fun _ => bind hvalue fun _ => pure _
  exact bind (members hentry []) fun _ => pure _

/-- A bracket takes one level of the depth and gives it back. -/
theorem bracketed {contents contents' : Reader α} (h : ExtendsAt depth contents contents')
    {close : Reader Unit} {c c' : Cursor} {a : α} (hdepth : c.depth = depth + 1)
    (hrun : bracketed contents close c = .ok a c') : bracketed contents' close c = .ok a c' := by
  obtain ⟨depth', last, hdepth', hcontents, hclose⟩ := bracketed_eq_ok.mp hrun
  obtain rfl : depth = depth' := Nat.succ.inj (hdepth.symm.trans hdepth')
  exact bracketed_eq_ok.mpr ⟨depth, last, hdepth, (h _ _ _ rfl hcontents).1, hclose⟩

end ExtendsAt

/-- Since the cursor counts the brackets, as many levels as it has depth are enough. -/
theorem document_of_depth_lt {levels enough : Nat} {c c' : Cursor} {d : Document}
    (h : documentWithin levels c = .ok d c') (henough : c.depth < enough) :
    documentWithin enough c = .ok d c' := by
  induction levels generalizing enough c d c' with
  | zero => cases h
  | succ levels ih =>
      obtain ⟨enough, rfl⟩ := Nat.exists_eq_succ_of_ne_zero (Nat.ne_zero_of_lt henough)
      -- Inside a bracket the cursor has one level of depth less, as there is one level less to go.
      have hinside : ∀ depth, c.pastBlanks.depth = depth + 1 →
          ExtendsAt depth (documentWithin levels) (documentWithin enough) := by
        rintro depth hdepth inner d' behind rfl hrun
        rw [depth_pastBlanks] at hdepth
        obtain ⟨_, n, hn, -, -⟩ := document_passing levels _ _ _ hrun
        exact ⟨ih hrun (by omega), by rw [hn, Cursor.depth_advanceBy]⟩
      apply ValueFollows.document
      cases valueFollows_of_document h with
      | list hhead hlist =>
          obtain ⟨depth, _, hdepth, -, -⟩ := bracketed_eq_ok.mp hlist
          exact .list hhead ((hinside depth hdepth).items.bracketed hdepth hlist)
      | object hhead hobject =>
          obtain ⟨depth, _, hdepth, -, -⟩ := bracketed_eq_ok.mp hobject
          exact .object hhead ((hinside depth hdepth).entriesOf.bracketed hdepth hobject)
      | scalar hhead hlist hobject hscalar => exact .scalar hhead hlist hobject hscalar

/-! ## Ends -/

theorem nextItem_ended {c : Cursor} (h : (unblanked c.rest).head? = some 93) (isFirst : Bool) :
    nextItem isFirst c = .ok false c.pastBlanks := by
  rw [Reader.nextItem, bind_of_ok (next?_run c), h]
  rfl

theorem nextName_ended {c : Cursor} (h : (unblanked c.rest).head? = some 125) (isFirst : Bool) :
    nextName isFirst c = .ok false c.pastBlanks := by
  rw [Reader.nextName, bind_of_ok (next?_run c), h]
  rfl

theorem nextName_front {c : Cursor} (h : (unblanked c.rest).head? = some 34) :
    nextName true c = .ok true c.pastBlanks.advance := by
  rw [Reader.nextName, bind_of_ok (next?_run c), h]
  rfl

end Reader

/-! ## Attested readers -/

/-- What is read off a text is made of a document that stands there. -/
def Attested (take : Document → Except Misfit α) (read : Reader α) : Prop :=
  ∀ c a last, read c = .ok a last →
    ∃ levels d, documentWithin levels c = .ok d last ∧ take d = .ok a

namespace Attested

variable {take : Document → Except Misfit α} {read : Reader α}

/-- A whole text that can be read is a document. -/
theorem run (h : Attested take read) {bytes : List UInt8} {a : α} (hrun : read.run bytes = .ok a) :
    ∃ d, document.run bytes = .ok d ∧ take d = .ok a := by
  obtain ⟨last, hread, hend⟩ := run_eq_ok.mp hrun
  obtain ⟨levels, d, hd, htake⟩ := h _ _ _ hread
  have hdocument : document (Cursor.start bytes) = .ok d last :=
    document_of_depth_lt hd (Nat.lt_succ_self maxDepth)
  exact ⟨d, run_eq_ok.mpr ⟨last, hdocument, hend⟩, htake⟩

theorem map (h : Attested take read) (f : α → β) :
    Attested (fun d => (take d).map f) (f <$> read) := by
  intro c b last hread
  change EStateM.map f read c = _ at hread
  rw [EStateM.map] at hread
  cases hrun : read c with
  | error e c' =>
      rw [hrun] at hread
      cases hread
  | ok a c' =>
      rw [hrun] at hread
      cases hread
      obtain ⟨levels, d, hd, htake⟩ := h c a _ hrun
      refine ⟨levels, d, hd, ?_⟩
      change (take d).map f = _
      rw [htake]
      rfl

theorem accept_eq_ok {taken : Except Misfit α} {c c' : Cursor} {a : α}
    (h : accept taken c = .ok a c') : taken = .ok a ∧ c' = c := by
  cases taken with
  | error misfit => cases h
  | ok a' =>
      cases h
      exact ⟨rfl, rfl⟩

theorem ofDocument (accept : Document → Except Misfit α) :
    Attested accept (Decoder.ofDocument accept).read := by
  intro c a last hread
  obtain ⟨d, between, hd, haccept⟩ := bind_eq_ok.mp hread
  obtain ⟨htake, rfl⟩ := accept_eq_ok haccept
  exact ⟨_, d, hd, htake⟩

theorem ofScalar {accept : Document → Except Misfit α} {misfit misfit' : Misfit}
    (hlist : accept (.list []) = .error misfit) (hobject : accept (.table []) = .error misfit') :
    Attested accept (Decoder.ofScalar accept).read := by
  intro c a last hread
  obtain ⟨b, between, hfirst, hread⟩ := bind_eq_ok.mp (placed_eq_ok.mp hread)
  obtain ⟨hhead, rfl⟩ := first_eq_ok.mp hfirst
  split at hread
  · rw [hlist] at hread
    cases hread
  · rw [hobject] at hread
    cases hread
  · next hnotList hnotObject =>
      obtain ⟨d, behind, hscalar, haccept⟩ := bind_eq_ok.mp hread
      obtain ⟨htake, rfl⟩ := accept_eq_ok haccept
      exact ⟨1, d, ValueFollows.document (.scalar hhead hnotList hnotObject hscalar), htake⟩

@[simp]
theorem decodeOption {d : Decoder α} (h : Attested (d.take .value) d.read) :
    Attested ((decodeOption d).take .value) (decodeOption d).read := by
  intro c found last hread
  have hrun := next?_bind_eq_ok.mp hread
  by_cases hhead : (unblanked c.rest).head? = some 110
  · rw [hhead] at hrun
    obtain ⟨doc, behind, hscalar, ⟨rfl, rfl⟩⟩ := bind_eq_ok.mp hrun
    obtain ⟨b, hb, hbegins⟩ := scalarBegins hscalar
    rw [rest_pastBlanks, hhead] at hb
    obtain rfl := hbegins.null.mpr (Option.some.inj hb).symm
    exact ⟨1, _, ValueFollows.document (.scalar hhead (by decide) (by decide) hscalar), rfl⟩
  · have hsome : (some <$> d.read) c.pastBlanks = .ok found last := by
      generalize (unblanked c.rest).head? = head at hhead hrun
      split at hrun
      · exact absurd rfl hhead
      · exact hrun
    obtain ⟨levels, doc, hdoc, htake⟩ := h.map some _ _ _ hsome
    -- Only the document `null` begins with an `n`, and a value is told from nothing by that byte.
    have hnull : doc ≠ .null := by
      rintro rfl
      obtain ⟨levels, rfl⟩ : ∃ n, levels = n + 1 := by
        cases levels with
        | zero => cases hdoc
        | succ n => exact ⟨n, rfl⟩
      cases valueFollows_of_document hdoc with
      | scalar _ _ _ hscalar =>
          obtain ⟨b, hb, hbegins⟩ := scalarBegins hscalar
          rw [pastBlanks_pastBlanks, rest_pastBlanks, hbegins.null.mp rfl] at hb
          exact hhead hb
    refine ⟨levels, doc, ?_, ?_⟩
    · cases levels with
      | zero => cases hdoc
      | succ n =>
          have hfirst : first c.pastBlanks = first c := bind_congr _ (next?_pastBlanks c)
          exact (bind_congr _ hfirst.symm).trans hdoc
    · rw [← htake]
      cases doc with
      | null => exact absurd rfl hnull
      | _ => rfl

/-! ## Lists -/

theorem itemsFrom (h : Attested take read) {fuel : Nat} {isFirst : Bool} {c last : Cursor}
    {found : List α} (hitems : itemsFrom read fuel isFirst c = .ok found last) :
    ∃ levels docs, Reader.itemsFrom (documentWithin levels) fuel isFirst c = .ok docs last ∧
      docs.mapM take = .ok found := by
  induction fuel generalizing isFirst c found with
  | zero =>
      cases hitems
      exact ⟨0, [], rfl, rfl⟩
  | succ fuel ih =>
      obtain ⟨more, between, hnext, hitems⟩ := bind_eq_ok.mp hitems
      cases more with
      | false =>
          cases hitems
          exact ⟨0, [], bind_eq_ok.mpr ⟨false, _, hnext, rfl⟩, rfl⟩
      | true =>
          obtain ⟨a, behind, ha, hitems⟩ := bind_eq_ok.mp hitems
          obtain ⟨rest, _, hrest, ⟨rfl, rfl⟩⟩ := bind_eq_ok.mp hitems
          obtain ⟨m, d, hd, htake⟩ := h _ _ _ ha
          obtain ⟨n, docs, hdocs, htakes⟩ := ih hrest
          refine ⟨max m n, d :: docs, ?_, ?_⟩
          · refine bind_eq_ok.mpr ⟨true, between, hnext, ?_⟩
            refine bind_eq_ok.mpr ⟨d, behind, extends_of_le (Nat.le_max_left m n) _ _ _ hd, ?_⟩
            refine bind_eq_ok.mpr ⟨docs, _, ?_, rfl⟩
            exact (extends_of_le (Nat.le_max_right m n)).itemsFrom _ _ _ _ _ hdocs
          · rw [List.mapM_cons, htake]
            change (docs.mapM take >>= _) = _
            rw [htakes]
            rfl

@[simp]
theorem decodeList {d : Decoder α} (h : Attested (d.take .value) d.read) :
    Attested ((decodeList d).take .value) (decodeList d).read := by
  intro c found last hread
  obtain ⟨b, between, hfirst, hread⟩ := bind_eq_ok.mp hread
  obtain ⟨hhead, rfl⟩ := first_eq_ok.mp hfirst
  split at hread
  · obtain ⟨depth, inner, hdepth, hitems, hclose⟩ := bracketed_eq_ok.mp hread
    obtain ⟨_, _, ⟨rfl, rfl⟩, hitems⟩ := bind_eq_ok.mp hitems
    obtain ⟨levels, docs, hdocs, htakes⟩ := h.itemsFrom hitems
    have hlist : inList (items (documentWithin levels)) c.pastBlanks = .ok docs last :=
      bracketed_eq_ok.mpr ⟨depth, inner, hdepth, bind_eq_ok.mpr ⟨_, _, rfl, hdocs⟩, hclose⟩
    exact ⟨levels + 1, .list docs, ValueFollows.document (.list hhead hlist), htakes⟩
  · exact absurd hread (refusing_read _ _ _ _)

end Attested

/-! ## Objects -/

/-- Reading a member is one step of a relation, and the text holds that member. -/
def AttestedMember (member : σ → Reader σ) (R : σ → List (String × Document) → σ → Prop) : Prop :=
  ∀ s c s' last, member s c = .ok s' last → ∃ levels m,
    (∀ before, entry (documentWithin levels) before c = .ok (m :: before) last) ∧
      ∀ rest s'', R s' rest s'' → R s (m :: rest) s''

theorem AttestedMember.membersFrom {member : σ → Reader σ}
    {R : σ → List (String × Document) → σ → Prop} (h : AttestedMember member R)
    (hnil : ∀ s, R s [] s) {fuel : Nat} {isFirst : Bool} {s s' : σ} {c last : Cursor}
    (hmembers : membersFrom member fuel isFirst s c = .ok s' last) :
    ∃ levels found, R s found s' ∧ ∀ before,
      Reader.membersFrom (entry (documentWithin levels)) fuel isFirst before c =
        .ok (found.reverse ++ before) last := by
  induction fuel generalizing isFirst s c with
  | zero =>
      cases hmembers
      exact ⟨0, [], hnil _, fun _ => rfl⟩
  | succ fuel ih =>
      obtain ⟨more, between, hnext, hmembers⟩ := bind_eq_ok.mp hmembers
      cases more with
      | false =>
          cases hmembers
          exact ⟨0, [], hnil _, fun _ => bind_eq_ok.mpr ⟨false, _, hnext, rfl⟩⟩
      | true =>
          obtain ⟨s₁, behind, hs, hmembers⟩ := bind_eq_ok.mp hmembers
          obtain ⟨m, first, hentry, hstep⟩ := h _ _ _ _ hs
          obtain ⟨n, found, hfound, hentries⟩ := ih hmembers
          -- Each member has been read with levels of its own; the most of them serve for all.
          refine ⟨max m n, first :: found, hstep _ _ hfound, fun before => ?_⟩
          refine bind_eq_ok.mpr ⟨true, between, hnext, ?_⟩
          have hfirst := (extends_of_le (Nat.le_max_left m n)).entry before _ _ _ (hentry before)
          refine bind_eq_ok.mpr ⟨first :: before, behind, hfirst, ?_⟩
          have hmore := (extends_of_le (Nat.le_max_right m n)).entry
          rw [List.reverse_cons, List.append_assoc, List.singleton_append]
          exact Extends.membersFrom hmore _ _ _ _ _ _ (hentries (first :: before))

/-- An object that can be read is the table of its members. -/
theorem AttestedMember.object {member : σ → Reader σ}
    {R : σ → List (String × Document) → σ → Prop} (h : AttestedMember member R)
    (hnil : ∀ s, R s [] s) {s s' : σ} {c inner last : Cursor} {depth : Nat}
    (hhead : (unblanked c.rest).head? = some 123) (hdepth : c.pastBlanks.depth = depth + 1)
    (hmembers : members member s (c.pastBlanks.advance.atDepth depth) = .ok s' inner)
    (hclose : endObject (inner.atDepth (inner.depth + 1)) = .ok () last) :
    ∃ levels found, documentWithin levels c = .ok (.table found) last ∧ R s found s' := by
  obtain ⟨_, _, ⟨rfl, rfl⟩, hmembers⟩ := bind_eq_ok.mp hmembers
  obtain ⟨levels, found, hfound, hentries⟩ := h.membersFrom hnil hmembers
  have hobject : inObject (entriesOf (documentWithin levels)) c.pastBlanks = .ok found last := by
    refine bracketed_eq_ok.mpr ⟨depth, inner, hdepth, ?_, hclose⟩
    refine bind_eq_ok.mpr ⟨found.reverse ++ [], inner, ?_, ?_⟩
    · exact bind_eq_ok.mpr ⟨_, _, rfl, hentries []⟩
    · rw [List.append_nil, List.reverse_reverse]
      rfl
  exact ⟨levels + 1, found, ValueFollows.document (.object hhead hobject), hfound⟩

@[simp]
theorem Attested.decodeMap {d : Decoder α} (h : Attested (d.take .value) d.read) :
    Attested ((decodeMap d).take .value) (decodeMap d).read := by
  intro c found last hread
  obtain ⟨b, between, hfirst, hread⟩ := bind_eq_ok.mp hread
  obtain ⟨hhead, rfl⟩ := first_eq_ok.mp hfirst
  split at hread
  · obtain ⟨depth, inner, hdepth, hmembers, hclose⟩ := bracketed_eq_ok.mp hread
    have hmember : AttestedMember
        (fun bound : Table α => do
          let name ← quoted
          colon
          return Table.insert name (← d.read) bound)
        (fun bound members bound' => members.foldlM (fun bound member => do
          return Table.insert member.1 (← d.take .value member.2) bound) bound = .ok bound') := by
      intro bound c bound' last hrun
      obtain ⟨name, behindName, hname, hrun⟩ := bind_eq_ok.mp hrun
      obtain ⟨_, behindColon, hcolon, hrun⟩ := bind_eq_ok.mp hrun
      obtain ⟨a, _, ha, ⟨rfl, rfl⟩⟩ := bind_eq_ok.mp hrun
      obtain ⟨levels, doc, hdoc, htake⟩ := h _ _ _ ha
      refine ⟨levels, (name, doc), fun before => ?_, fun rest bound'' hrest => ?_⟩
      · exact entry_eq_ok.mpr ⟨name, doc, behindName, behindColon, hname, hcolon, hdoc, rfl⟩
      · dsimp only at hrest ⊢
        rw [List.foldlM_cons, htake]
        exact hrest
    obtain ⟨levels, members, hdocument, hfold⟩ :=
      hmember.object (fun _ => rfl) hhead hdepth hmembers hclose
    exact ⟨levels, .table members, hdocument, hfold⟩
  · exact absurd hread (refusing_read _ _ _ _)

/-! ## Choices -/

theorem decodeNothing_eq_ok {c last : Cursor} (h : decodeNothing.read c = .ok () last) :
    documentWithin 1 c = .ok .null last := by
  obtain ⟨b, between, hfirst, h⟩ := bind_eq_ok.mp (placed_eq_ok.mp h)
  obtain ⟨hhead, rfl⟩ := first_eq_ok.mp hfirst
  split at h
  · cases h
  · cases h
  · next hlist hobject =>
      obtain ⟨d, behind, hscalar, haccept⟩ := bind_eq_ok.mp h
      obtain ⟨hnull, rfl⟩ := Attested.accept_eq_ok haccept
      cases d with
      | null => exact ValueFollows.document (.scalar hhead hlist hobject hscalar)
      | _ => cases hnull

theorem choiceName_eq_ok {choices : List (String × α)} {c last : Cursor} {a : α}
    (h : choiceName choices c = .ok a last) :
    ∃ name, quoted c.advance = .ok name last ∧ choose choices name = .ok a := by
  obtain ⟨_, _, ⟨rfl, rfl⟩, h⟩ := bind_eq_ok.mp (placed_eq_ok.mp h)
  obtain ⟨name, behind, hname, haccept⟩ := bind_eq_ok.mp h
  obtain ⟨hchoose, rfl⟩ := Attested.accept_eq_ok haccept
  exact ⟨name, hname, hchoose⟩

/-- A choice that is given as an object is the only member of it, bound to nothing. -/
theorem choiceObject_attested {choices : List (String × α)} {c inner : Cursor} {depth : Nat}
    {a : α} (hhead : (unblanked c.rest).head? = some 123)
    (hdepth : c.pastBlanks.depth = depth + 1)
    (hmember : choiceMember choices (c.pastBlanks.advance.atDepth depth) = .ok a inner)
    (hend : (unblanked inner.rest).head? = some 125) :
    ∃ name, choose choices name = .ok a ∧ documentWithin 2 c = .ok (.table [(name, .null)])
      (inner.atDepth (inner.depth + 1)).pastBlanks.advance := by
  obtain ⟨b, between, hfirst, hmember⟩ := bind_eq_ok.mp hmember
  obtain ⟨hquote, rfl⟩ := first_eq_ok.mp hfirst
  split at hmember
  · obtain ⟨_, behindName, hname, hmember⟩ := bind_eq_ok.mp hmember
    obtain ⟨_, behindColon, hcolon, hmember⟩ := bind_eq_ok.mp hmember
    obtain ⟨_, behind, hnothing, ⟨rfl, rfl⟩⟩ := bind_eq_ok.mp hmember
    obtain ⟨name, hname, hchoose⟩ := choiceName_eq_ok hname
    refine ⟨name, hchoose, ValueFollows.document (.object hhead (bracketed_eq_ok.mpr ?_))⟩
    refine ⟨depth, inner.pastBlanks, hdepth, ?_, endObject_eq_ok.mpr ⟨?_, ?_⟩⟩
    · refine bind_eq_ok.mpr ⟨[(name, .null)], _, bind_eq_ok.mpr ⟨_, _, rfl, ?_⟩, rfl⟩
      refine bind_eq_ok.mpr ⟨true, _, nextName_front hquote, ?_⟩
      refine bind_eq_ok.mpr ⟨[(name, .null)], inner, ?_, ?_⟩
      · exact entry_eq_ok.mpr ⟨name, .null, behindName, behindColon, hname, hcolon,
          decodeNothing_eq_ok hnothing, rfl⟩
      · exact bind_eq_ok.mpr ⟨false, _, nextName_ended hend false, rfl⟩
    · rw [Cursor.rest_atDepth, rest_pastBlanks, unblanked_unblanked]
      exact hend
    · rw [pastBlanks_atDepth, pastBlanks_atDepth, pastBlanks_pastBlanks, depth_pastBlanks]
  · cases hmember
  · cases hmember

theorem attested_decodeChoice (choices : List (String × α)) :
    Attested ((decodeChoice choices).take .value) (decodeChoice choices).read := by
  intro c a last hread
  obtain ⟨b, between, hfirst, hread⟩ := bind_eq_ok.mp hread
  obtain ⟨hhead, rfl⟩ := first_eq_ok.mp hfirst
  split at hread
  · obtain ⟨name, hname, hchoose⟩ := choiceName_eq_ok hread
    have hscalar : scalar c.pastBlanks = .ok (.text name) last := by
      refine bind_eq_ok.mpr ⟨some 34, c.pastBlanks, ?_, ?_⟩
      · rw [← hhead, ← rest_pastBlanks]
        rfl
      · exact bind_eq_ok.mpr ⟨(), _, rfl, bind_eq_ok.mpr ⟨name, last, hname, rfl⟩⟩
    exact ⟨1, .text name, ValueFollows.document (.scalar hhead (by decide) (by decide) hscalar),
      hchoose⟩
  · obtain ⟨a', between, hopened, hread⟩ := bind_eq_ok.mp hread
    obtain ⟨depth, inner, hdepth, hmember, rfl⟩ := opened_eq_ok.mp hopened
    rw [next?_bind_eq_ok] at hread
    generalize hend : (unblanked _).head? = head at hread
    split at hread
    · cases hread
    · cases hread
      obtain ⟨name, hchoose, hdocument⟩ := choiceObject_attested hhead hdepth hmember hend
      refine ⟨2, _, hdocument, ?_⟩
      change (choose choices name >>= _) = _
      rw [hchoose]
      rfl
    · cases hread
  · cases hread

/-! ## Simple values -/

@[simp]
theorem attested_decodeString : Attested (decodeString.take .value) decodeString.read :=
  .ofScalar rfl rfl

@[simp]
theorem attested_decodeBool : Attested (decodeBool.take .value) decodeBool.read :=
  .ofScalar rfl rfl

@[simp]
theorem attested_decodeUnsigned (bits : Nat) :
    Attested ((decodeUnsigned bits).take .value) (decodeUnsigned bits).read :=
  Attested.map (.ofScalar rfl rfl) Int.toNat

@[simp]
theorem attested_decodeValue : Attested (decodeValue.take .value) decodeValue.read :=
  .ofDocument _

/-! ## Records -/

/-- A field is made of a document that stands where it is read. -/
def Slot.Attested (field : Slot σ) : Prop :=
  ∀ s, Json.Attested (field.take .value s) (field.read s)

@[simp]
theorem Slot.attested_of {d : Decoder α} (h : Json.Attested (d.take .value) d.read)
    (name : String) (put : σ → α → σ) : (Slot.of name d put).Attested := fun s => h.map (put s)

@[simp]
theorem Slot.Attested.require {field : Slot σ} (h : field.Attested) : field.require.Attested := h

namespace RecordShape

variable {shape : RecordShape σ}

/-- A record that takes no members besides its fields reads what is written. -/
theorem attested_readMember (hothers : shape.others = .refused)
    (hfields : ∀ field ∈ shape.fields, field.Attested) :
    AttestedMember shape.readMember fun before members after => ∀ rest,
      shape.takeMembers .value before.1 before.2 (members ++ rest) =
        shape.takeMembers .value after.1 after.2 rest := by
  rintro ⟨seen, s⟩ c ⟨seen', s'⟩ last hmember
  obtain ⟨name, behindName, hname, hmember⟩ := bind_eq_ok.mp hmember
  cases hfield : shape.field? name with
  | none =>
      simp only [hfield, hothers] at hmember
      cases hmember
  | some field =>
      simp only [hfield] at hmember
      by_cases hseen : seen.contains name = true
      · rw [if_pos hseen] at hmember
        cases hmember
      · rw [if_neg hseen] at hmember
        obtain ⟨_, behindColon, hcolon, hmember⟩ := bind_eq_ok.mp hmember
        obtain ⟨_, _, hread, ⟨rfl, rfl⟩⟩ := bind_eq_ok.mp hmember
        obtain ⟨levels, d, hd, htake⟩ :=
          hfields field (List.mem_of_find?_eq_some hfield) s _ _ _ hread
        refine ⟨levels, (name, d), fun before => ?_, fun members after hmembers rest => ?_⟩
        · exact entry_eq_ok.mpr ⟨name, d, behindName, behindColon, hname, hcolon, hd, rfl⟩
        · rw [List.cons_append, takeMembers, hfield]
          simp only [hseen, htake]
          exact hmembers rest

/-- What the items of a list add to a record is what is taken of them.  The fuel suffices since
every item takes a byte. -/
theorem attested_readItems {fields : List (Slot σ)} (hfields : ∀ field ∈ fields, field.Attested)
    {fuel : Nat} (position : Nat) {s s' : σ} {c last : Cursor} (hfuel : c.rest.length < fuel)
    (hread : shape.readItems position s fields c = .ok s' last)
    (hend : (unblanked last.rest).head? = some 93) :
    ∃ levels docs, itemsFrom (documentWithin levels) fuel (position = 0) c =
        .ok docs last.pastBlanks ∧
      shape.takeItems .value position s fields docs = .ok s' := by
  obtain ⟨fuel, rfl⟩ := Nat.exists_eq_succ_of_ne_zero (Nat.ne_zero_of_lt hfuel)
  induction fields generalizing fuel position s c with
  | nil =>
      cases hread
      exact ⟨0, [], bind_eq_ok.mpr ⟨false, _, nextItem_ended hend _, rfl⟩, rfl⟩
  | cons field fields ih =>
      have hwhole := hread
      obtain ⟨more, between, hnext, hread⟩ := bind_eq_ok.mp hread
      have hfollows := itemFollows_of_nextItem hnext
      cases more with
      | false =>
          have hclosed : (unblanked c.rest).head? = some 93 := by
            generalize decide (position = 0) = isFirst at hfollows
            cases hfollows with
            | ended h => exact h
          obtain ⟨hlast, htake⟩ := readItems_ended hclosed hwhole
          rw [hlast]
          exact ⟨0, [], bind_eq_ok.mpr ⟨false, _, nextItem_ended hclosed _, rfl⟩, htake⟩
      | true =>
          rw [if_pos rfl] at hread
          obtain ⟨s₁, behind, hs, hread⟩ := bind_eq_ok.mp hread
          obtain ⟨m, d, hd, htake⟩ := hfields field List.mem_cons_self s _ _ _ hs
          have hshorter : behind.rest.length < fuel := by
            obtain ⟨_, _, -, hbytes, -⟩ := document_passing _ _ _ _ hd
            have hle := hfollows.length_le
            omega
          have hfields' : ∀ field ∈ fields, field.Attested :=
            fun field h => hfields field (List.mem_cons_of_mem _ h)
          obtain ⟨fuel, rfl⟩ := Nat.exists_eq_succ_of_ne_zero (Nat.ne_zero_of_lt hshorter)
          obtain ⟨n, docs, hdocs, hrest⟩ := ih hfields' (position + 1) hread fuel hshorter
          have hnot : decide (position + 1 = 0) = false := by simp
          rw [hnot] at hdocs
          refine ⟨max m n, d :: docs, ?_, ?_⟩
          · refine bind_eq_ok.mpr ⟨true, between, hnext, ?_⟩
            refine bind_eq_ok.mpr ⟨d, behind, extends_of_le (Nat.le_max_left m n) _ _ _ hd, ?_⟩
            refine bind_eq_ok.mpr ⟨docs, _, ?_, rfl⟩
            exact (extends_of_le (Nat.le_max_right m n)).itemsFrom _ _ _ _ _ hdocs
          · rw [takeItems, htake]
            exact hrest

theorem attested_decode (shape : RecordShape σ) (hothers : shape.others = .refused)
    (hfields : ∀ field ∈ shape.fields, field.Attested) (start : σ) :
    Attested ((shape.decode start).take .value) (shape.decode start).read := by
  intro c s last hread
  obtain ⟨b, between, hfirst, hread⟩ := bind_eq_ok.mp hread
  obtain ⟨hhead, rfl⟩ := first_eq_ok.mp hfirst
  split at hread
  · obtain ⟨depth, inner, hdepth, hmembers, hclose⟩ := bracketed_eq_ok.mp hread
    obtain ⟨seen, hmembers, hcomplete⟩ := readMembers_eq_ok.mp hmembers
    obtain ⟨levels, found, hdocument, htake⟩ := (attested_readMember hothers hfields).object
      (fun _ _ => rfl) hhead hdepth hmembers hclose
    refine ⟨levels, .table found, hdocument, ?_⟩
    calc shape.takeMembers .value [] start found
        = shape.takeMembers .value [] start (found ++ []) := by rw [List.append_nil]
      _ = shape.takeMembers .value seen s [] := htake []
      _ = .ok s := by
          rw [takeMembers, hcomplete]
          rfl
  · by_cases hlisted : shape.listed = true
    · rw [if_pos hlisted] at hread
      obtain ⟨depth, inner, hdepth, hitems, hclose⟩ := bracketed_eq_ok.mp hread
      obtain ⟨hend, rfl⟩ := endList_eq_ok.mp hclose
      obtain ⟨levels, docs, hdocs, htake⟩ := attested_readItems hfields 0
        (Nat.lt_add_of_pos_right (Nat.succ_pos 1)) hitems hend
      refine ⟨levels + 1, .list docs, ValueFollows.document (.list hhead ?_), ?_⟩
      · refine bracketed_eq_ok.mpr ⟨depth, inner.pastBlanks, hdepth, ?_, endList_eq_ok.mpr ⟨?_, ?_⟩⟩
        · exact bind_eq_ok.mpr ⟨_, _, rfl, hdocs⟩
        · rw [Cursor.rest_atDepth, rest_pastBlanks, unblanked_unblanked]
          exact hend
        · rw [pastBlanks_atDepth, pastBlanks_atDepth, pastBlanks_pastBlanks, depth_pastBlanks]
      · change (if shape.listed then _ else _) = _
        rw [if_pos hlisted]
        exact htake
    · rw [if_neg hlisted] at hread
      exact absurd hread (refusing_read _ _ _ _)
  · exact absurd hread (refusing_read _ _ _ _)

end RecordShape

end Gatehouse.Json
