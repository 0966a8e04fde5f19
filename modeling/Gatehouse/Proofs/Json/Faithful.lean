import Gatehouse.Json.Decode
import Gatehouse.Proofs.Json.Values

/-!
# Two readings of one text

A text may be read as a document, of which a value is then made, or the value may be read off the
text directly.  A decoder is faithful if both ways come to the same.  A decoder that turns away from
a list or an object may stop inside of it; what stands in front of it then is neither a comma nor a
bracket that closes, so what stands around it cannot be read on.
-/

namespace Gatehouse.Json

open Reader

variable {α β σ : Type}

namespace Reader

/-! ## Stops inside of a value -/

/-- In front of the cursor stands something, but neither a comma nor a bracket that closes. -/
def Stuck (c : Cursor) : Prop :=
  ∃ b, (unblanked c.rest).head? = some b ∧ b ≠ 44 ∧ b ≠ 93 ∧ b ≠ 125

theorem Stuck.nextItem {c c' : Cursor} (h : Stuck c) (more : Bool) :
    nextItem false c ≠ .ok more c' := by
  obtain ⟨b, hb, hcomma, hend, -⟩ := h
  intro hnext
  cases itemFollows_of_nextItem hnext with
  | ended hhead => exact hend (Option.some.inj (hb.symm.trans hhead))
  | behindComma hhead => exact hcomma (Option.some.inj (hb.symm.trans hhead))

theorem Stuck.nextName {c c' : Cursor} (h : Stuck c) (more : Bool) :
    nextName false c ≠ .ok more c' := by
  obtain ⟨b, hb, hcomma, -, hbrace⟩ := h
  intro hnext
  cases nameFollows_of_nextName hnext with
  | ended hhead => exact hbrace (Option.some.inj (hb.symm.trans hhead))
  | behindComma hhead _ => exact hcomma (Option.some.inj (hb.symm.trans hhead))

theorem Stuck.endObject {c c' : Cursor} (h : Stuck c) : endObject c ≠ .ok () c' := by
  obtain ⟨b, hb, -, -, hbrace⟩ := h
  intro hclose
  exact hbrace (Option.some.inj (hb.symm.trans (endObject_eq_ok.mp hclose).1))

end Reader

/-! ## Faithful decoders -/

/-- What a reader has come to where a document ends at `last` and `taken` is made of it. -/
def Agrees (last : Cursor) (taken : Except Misfit α) : EStateM.Result DecodeError Cursor α → Prop
  | .ok a c => (c = last ∧ taken = .ok a) ∨ Stuck c
  | .error _ c => (c = last ∧ ∃ misfit, taken = .error misfit) ∨ Stuck c

/-- Where a document can be read, reading a value off the text comes to what is made of the
document. -/
def Faithful (take : Document → Except Misfit α) (read : Reader α) : Prop :=
  ∀ c d last, document c = .ok d last → Agrees last (take d) (read c)

theorem Agrees.placed {last c : Cursor} {taken : Except Misfit α} {r : Reader α}
    (h : Agrees last taken (r c)) : Agrees last taken (placed r c) := by
  rw [Reader.placed]
  cases hr : r c with
  | ok a c' =>
      rw [hr] at h
      exact h
  | error e c' =>
      rw [hr] at h
      exact h

/-- Nothing makes a difference once the reader is stuck. -/
theorem Agrees.of_stuck {last c : Cursor} {taken : Except Misfit α} {e : DecodeError}
    (h : Stuck c) : Agrees last taken (.error e c) := .inr h

/-- What has been read is judged as it is judged elsewhere. -/
theorem agrees_accept (last : Cursor) (taken : Except Misfit α) :
    Agrees last taken (accept taken last) := by
  cases taken with
  | ok a => exact .inl ⟨rfl, rfl⟩
  | error misfit => exact .inl ⟨rfl, misfit, rfl⟩

theorem stuck_pastBlanks {c : Cursor} {b : UInt8} (h : (unblanked c.rest).head? = some b)
    (hb : b ≠ 44 ∧ b ≠ 93 ∧ b ≠ 125) : Stuck c.pastBlanks := by
  refine ⟨b, ?_, hb⟩
  rw [rest_pastBlanks, unblanked_unblanked]
  exact h

theorem document_pastBlanks (c : Cursor) : document c.pastBlanks = document c := by
  have hfirst : first c.pastBlanks = first c := bind_congr _ (next?_pastBlanks c)
  exact bind_congr _ hfirst

/-! ## Brackets that are entered and refused -/

section

variable {levels : Nat} {c last : Cursor} {misfit misfit' : Misfit}

def stop : EStateM.Result DecodeError Cursor α → Cursor
  | .ok _ c | .error _ c => c

/-- Nothing is read where everything is refused. -/
theorem refusing_read (expected : String) (c c' : Cursor) (a : α) :
    (refusing expected : Decoder α).read c ≠ .ok a c' := by
  intro h
  obtain ⟨b, between, -, h⟩ := bind_eq_ok.mp (placed_eq_ok.mp h)
  split at h
  · cases h
  · cases h
  · obtain ⟨d, behind, -, h⟩ := bind_eq_ok.mp h
    cases h

/-- What is refused inside of a bracket is left where the end of the bracket is looked for. -/
theorem bracketed_refuse (misfit : Misfit) {depth : Nat} (hdepth : c.depth = depth + 1)
    (close : Reader Unit) :
    ∃ e, bracketed (refuse misfit : Reader α) close c = .error e (stop (close c.advance)) := by
  have hopened : opened (refuse misfit : Reader α) c =
      .error (.misfit misfit .nowhere) c.advance := by
    have hinside : (c.advance.atDepth depth).atDepth (depth + 1) = c.advance := by
      rw [Cursor.atDepth_atDepth, Cursor.atDepth_of_eq]
      rw [Cursor.depth_advance, hdepth]
    rw [opened, hdepth]
    exact congrArg _ hinside
  simp only [bracketed, Reader.placed, hopened]
  cases close c.advance with
  | ok _ c' => exact ⟨_, rfl⟩
  | error _ c' => exact ⟨_, rfl⟩

/-- Where nothing stands in a bracket, its end is found from inside as from outside. -/
theorem hollow_end {depth : Nat} (hdepth : c.depth = depth + 1) :
    let inner := (c.advance.atDepth depth).pastBlanks
    (inner.atDepth (inner.depth + 1)).pastBlanks.advance = c.advance.pastBlanks.advance := by
  have hsame : c.advance.pastBlanks.atDepth (depth + 1) = c.advance.pastBlanks := by
    apply Cursor.atDepth_of_eq
    rw [depth_pastBlanks, Cursor.depth_advance, hdepth]
  have hlevel : (c.advance.atDepth depth).pastBlanks.depth = depth := depth_pastBlanks _
  dsimp only
  rw [hlevel, pastBlanks_atDepth c.advance depth, Cursor.atDepth_atDepth, hsame,
    pastBlanks_pastBlanks]

/-- What is not the end of a list is refused where it stands. -/
theorem endList_stuck {b : UInt8} (hhead : (unblanked c.rest).head? = some b) (hend : b ≠ 93)
    (hcomma : b ≠ 44) :
    endList c = .error (.fault (c.pastBlanks.after .trailingCharacters)) c.pastBlanks := by
  rw [endList, bind_of_ok (next?_run c)]
  generalize (unblanked c.rest).head? = head at hhead
  split
  · cases hhead
  · exact absurd (Option.some.inj hhead).symm hend
  · exact absurd (Option.some.inj hhead).symm hcomma
  · rfl

theorem agrees_inList_refuse {found : List Document}
    (h : inList (items (documentWithin levels)) c = .ok found last) :
    Agrees last (.error misfit : Except Misfit α) (inList (refuse misfit') c) := by
  obtain ⟨depth, inner, hdepth, hitems, hclose⟩ := bracketed_eq_ok.mp h
  obtain ⟨_, _, ⟨rfl, rfl⟩, hitems⟩ := bind_eq_ok.mp hitems
  obtain ⟨more, between, hnext, hitems⟩ := bind_eq_ok.mp hitems
  obtain ⟨e, hrefused⟩ := bracketed_refuse (α := α) misfit' hdepth endList
  rw [inList, hrefused]
  cases itemFollows_of_nextItem hnext with
  | ended hhead =>
      cases hitems
      obtain ⟨-, rfl⟩ := endList_eq_ok.mp hclose
      have hend : endList c.advance = .ok () c.advance.pastBlanks.advance :=
        endList_eq_ok.mpr ⟨hhead, rfl⟩
      rw [hollow_end hdepth, hend]
      exact .inl ⟨rfl, misfit, rfl⟩
  | @front b hhead hend =>
      obtain ⟨d, behind, hd, -⟩ := bind_eq_ok.mp hitems
      obtain ⟨b', hb', hbegins⟩ := document_begins hd
      rw [rest_pastBlanks, unblanked_unblanked, hhead] at hb'
      obtain rfl := Option.some.inj hb'
      rw [Cursor.rest_atDepth] at hhead
      have hstop := endList_stuck hhead hend hbegins.1
      rw [hstop]
      exact .of_stuck (stuck_pastBlanks hhead hbegins)

theorem agrees_inObject_refuse {found : List (String × Document)}
    (h : inObject (entriesOf (documentWithin levels)) c = .ok found last) :
    Agrees last (.error misfit : Except Misfit α) (inObject (refuse misfit') c) := by
  obtain ⟨depth, inner, hdepth, hentries, hclose⟩ := bracketed_eq_ok.mp h
  obtain ⟨_, _, hentries, ⟨rfl, rfl⟩⟩ := bind_eq_ok.mp hentries
  obtain ⟨_, _, ⟨rfl, rfl⟩, hentries⟩ := bind_eq_ok.mp hentries
  obtain ⟨more, between, hnext, hentries⟩ := bind_eq_ok.mp hentries
  obtain ⟨e, hrefused⟩ := bracketed_refuse (α := α) misfit' hdepth endObject
  rw [inObject, hrefused]
  cases nameFollows_of_nextName hnext with
  | ended hhead =>
      cases hentries
      obtain ⟨-, rfl⟩ := endObject_eq_ok.mp hclose
      have hend : endObject c.advance = .ok () c.advance.pastBlanks.advance :=
        endObject_eq_ok.mpr ⟨hhead, rfl⟩
      rw [hollow_end hdepth, hend]
      exact .inl ⟨rfl, misfit, rfl⟩
  | front hhead =>
      rw [Cursor.rest_atDepth] at hhead
      have hstop : ∃ e, endObject c.advance = .error e c.advance.pastBlanks := by
        rw [endObject, bind_of_ok (next?_run c.advance), hhead]
        exact ⟨_, rfl⟩
      obtain ⟨e, hstop⟩ := hstop
      rw [hstop]
      exact .of_stuck (stuck_pastBlanks hhead (by decide))

end

namespace Faithful

variable {take : Document → Except Misfit α} {read : Reader α}

theorem map (h : Faithful take read) (f : α → β) :
    Faithful (fun d => (take d).map f) (f <$> read) := by
  intro c d last hd
  have hagrees := h c d last hd
  change Agrees last ((take d).map f) (EStateM.map f read c)
  rw [EStateM.map]
  cases hread : read c with
  | ok a c' =>
      rw [hread] at hagrees
      refine hagrees.imp_left ?_
      rintro ⟨rfl, htake⟩
      exact ⟨rfl, by rw [htake]; rfl⟩
  | error e c' =>
      rw [hread] at hagrees
      refine hagrees.imp_left ?_
      rintro ⟨rfl, misfit, htake⟩
      exact ⟨rfl, misfit, by rw [htake]; rfl⟩

theorem ofDocument (accept : Document → Except Misfit α) :
    Faithful accept (Decoder.ofDocument accept).read := by
  intro c d last hd
  change Agrees last _ ((document >>= fun d => Reader.accept (accept d)) c)
  rw [bind_of_ok hd]
  exact agrees_accept last (accept d)

/-- Whoever refuses a list or an object at its bracket is stuck there. -/
theorem ofScalar {accept : Document → Except Misfit α} {misfit misfit' : Misfit}
    (hlist : accept (.list []) = .error misfit) (hobject : accept (.table []) = .error misfit') :
    Faithful accept (Decoder.ofScalar accept).read := by
  intro c d last hd
  apply Agrees.placed
  cases valueFollows_of_document hd with
  | list hhead _ =>
      rw [bind_of_ok (first_eq_ok.mpr ⟨hhead, rfl⟩)]
      simp only [hlist]
      exact .of_stuck (stuck_pastBlanks hhead (by decide))
  | object hhead _ =>
      rw [bind_of_ok (first_eq_ok.mpr ⟨hhead, rfl⟩)]
      simp only [hobject]
      exact .of_stuck (stuck_pastBlanks hhead (by decide))
  | scalar hhead hlist hobject hscalar =>
      rw [bind_of_ok (first_eq_ok.mpr ⟨hhead, rfl⟩)]
      split
      · exact absurd rfl hlist
      · exact absurd rfl hobject
      · rw [bind_of_ok hscalar]
        exact agrees_accept last (accept d)

theorem decodeOption {d : Decoder α} (h : Faithful (d.take .value) d.read) :
    Faithful ((decodeOption d).take .value) (decodeOption d).read := by
  intro c doc last hdoc
  change Agrees last _ ((next? >>= _) c)
  rw [bind_of_ok (next?_run c)]
  by_cases hhead : (unblanked c.rest).head? = some 110
  · rw [hhead]
    cases valueFollows_of_document hdoc with
    | list hlist _ => exact absurd (hhead.symm.trans hlist) (by decide)
    | object hobject _ => exact absurd (hhead.symm.trans hobject) (by decide)
    | scalar _ _ _ hscalar =>
        obtain ⟨b, hb, hbegins⟩ := scalarBegins hscalar
        rw [rest_pastBlanks, hhead] at hb
        obtain rfl := hbegins.null.mpr (Option.some.inj hb).symm
        change Agrees last _ ((Reader.scalar >>= _) c.pastBlanks)
        rw [bind_of_ok hscalar]
        exact .inl ⟨rfl, rfl⟩
  · have hnull : doc ≠ .null := by
      rintro rfl
      cases valueFollows_of_document hdoc with
      | scalar _ _ _ hscalar =>
          obtain ⟨b, hb, hbegins⟩ := scalarBegins hscalar
          rw [rest_pastBlanks, hbegins.null.mp rfl] at hb
          exact hhead hb
    have htake : (Json.decodeOption d).take .value doc = (d.take .value doc).map some := by
      cases doc with
      | null => exact absurd rfl hnull
      | _ => rfl
    rw [htake]
    generalize (unblanked c.rest).head? = head at hhead
    split
    · exact absurd rfl hhead
    · exact h.map some _ _ _ ((document_pastBlanks c).trans hdoc)

theorem tolerant {d : Decoder (Option α)} (h : Faithful (d.take .value) d.read) :
    Faithful (d.tolerant.take .value) d.tolerant.read := by
  intro c doc last hdoc
  have hagrees := h c doc last hdoc
  simp only [Decoder.tolerant, Reader.tolerant]
  cases hread : d.read c with
  | ok a c' =>
      rw [hread] at hagrees
      refine hagrees.imp_left ?_
      rintro ⟨rfl, htake⟩
      exact ⟨rfl, by rw [htake]⟩
  | error e c' =>
      rw [hread] at hagrees
      refine hagrees.imp_left ?_
      rintro ⟨rfl, misfit, htake⟩
      exact ⟨rfl, by rw [htake]⟩

end Faithful

end Gatehouse.Json
