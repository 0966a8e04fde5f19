import Gatehouse.Json.Numeral
import Gatehouse.Json.Quotation
import Mathlib.Data.List.DropRight

/-!
# How far a reader goes

Most readers look at nothing but the bytes in front of them: the place and the depth of the cursor
matter only where they fail.  `Spans` states that for a reader that succeeds, and composes along the
steps of a reader.  What was read at one depth can so be compared with what is passed over at
another.
-/

namespace Gatehouse.Json

/-! ## Cursors -/

namespace Cursor

def atDepth (c : Cursor) (depth : Nat) : Cursor := { c with depth }

def pastBlanks (c : Cursor) : Cursor := c.advanceWhile isJsonBlank

@[simp]
theorem rest_atDepth (c : Cursor) (depth : Nat) : (c.atDepth depth).rest = c.rest := rfl

theorem atDepth_atDepth (c : Cursor) (depth depth' : Nat) :
    (c.atDepth depth).atDepth depth' = c.atDepth depth' := rfl

theorem atDepth_of_eq {c : Cursor} {depth : Nat} (h : c.depth = depth) : c.atDepth depth = c := by
  subst h
  rfl

@[simp]
theorem rest_advance (c : Cursor) : c.advance.rest = c.rest.tail := by
  rw [advance]
  split
  · next h => rw [h, List.tail_nil]
  · next b rest h =>
      rw [h]
      split <;> rfl

@[simp]
theorem depth_advance (c : Cursor) : c.advance.depth = c.depth := by
  rw [advance]
  split
  · rfl
  · split <;> rfl

theorem advance_atDepth (c : Cursor) (depth : Nat) :
    (c.atDepth depth).advance = c.advance.atDepth depth := by
  simp only [advance, rest_atDepth]
  split
  · rfl
  · split <;> rfl

@[simp]
theorem rest_advanceBy (n : Nat) (c : Cursor) : (c.advanceBy n).rest = c.rest.drop n := by
  induction n generalizing c with
  | zero => rfl
  | succ n ih => rw [advanceBy, ih, rest_advance, List.drop_tail]

@[simp]
theorem depth_advanceBy (n : Nat) (c : Cursor) : (c.advanceBy n).depth = c.depth := by
  induction n generalizing c with
  | zero => rfl
  | succ n ih => rw [advanceBy, ih, depth_advance]

theorem advanceBy_atDepth (n : Nat) (c : Cursor) (depth : Nat) :
    (c.atDepth depth).advanceBy n = (c.advanceBy n).atDepth depth := by
  induction n generalizing c with
  | zero => rfl
  | succ n ih => rw [advanceBy, advance_atDepth, ih, advanceBy]

theorem advanceBy_add (m n : Nat) (c : Cursor) :
    c.advanceBy (m + n) = (c.advanceBy m).advanceBy n := by
  induction m generalizing c with
  | zero => rw [Nat.zero_add, advanceBy]
  | succ m ih => rw [Nat.succ_add, advanceBy, ih, advanceBy]

end Cursor

theorem drop_length_takeWhile (p : UInt8 → Bool) (bytes : List UInt8) :
    bytes.drop (bytes.takeWhile p).length = bytes.dropWhile p := by
  calc bytes.drop (bytes.takeWhile p).length
      = (bytes.takeWhile p ++ bytes.dropWhile p).drop (bytes.takeWhile p).length := by
        rw [List.takeWhile_append_dropWhile]
    _ = bytes.dropWhile p := List.drop_left

def blanks (bytes : List UInt8) : Nat := (bytes.takeWhile isJsonBlank).length

def unblanked (bytes : List UInt8) : List UInt8 := bytes.dropWhile isJsonBlank

theorem drop_blanks (bytes : List UInt8) : bytes.drop (blanks bytes) = unblanked bytes :=
  drop_length_takeWhile isJsonBlank bytes

theorem unblanked_unblanked (bytes : List UInt8) : unblanked (unblanked bytes) = unblanked bytes :=
  List.dropWhile_idempotent isJsonBlank bytes

theorem blanks_unblanked (bytes : List UInt8) : blanks (unblanked bytes) = 0 := by
  have hsame := drop_blanks (unblanked bytes)
  rw [unblanked_unblanked] at hsame
  have hlength := congrArg List.length hsame
  have hle : blanks (unblanked bytes) ≤ (unblanked bytes).length :=
    (List.takeWhile_prefix isJsonBlank).length_le
  rw [List.length_drop] at hlength
  omega

namespace Reader

variable {α β : Type}

/-! ## Steps -/

theorem bind_eq_ok {r : Reader α} {f : α → Reader β} {c c' : Cursor} {b : β} :
    (r >>= f) c = .ok b c' ↔ ∃ a between, r c = .ok a between ∧ f a between = .ok b c' := by
  change EStateM.bind r f c = _ ↔ _
  rw [EStateM.bind]
  cases r c with
  | ok a between =>
      constructor
      · intro h
        exact ⟨a, between, rfl, h⟩
      · rintro ⟨_, _, ⟨rfl, rfl⟩, h⟩
        exact h
  | error e between =>
      constructor
      · intro h
        cases h
      · rintro ⟨_, _, h, _⟩
        cases h

theorem bind_of_ok {r : Reader α} {f : α → Reader β} {c between : Cursor} {a : α}
    (h : r c = .ok a between) : (r >>= f) c = f a between := by
  change EStateM.bind r f c = _
  rw [EStateM.bind, h]

/-- What follows a step that makes no difference makes none. -/
theorem bind_congr {r : Reader α} (f : α → Reader β) {c c' : Cursor} (h : r c = r c') :
    (r >>= f) c = (r >>= f) c' := by
  change EStateM.bind r f c = EStateM.bind r f c'
  rw [EStateM.bind, EStateM.bind, h]

/-! ## Readers that look at bytes only -/

/-- In front of the bytes, wherever they stand and however deep, the reader returns a value and
passes `n` of them. -/
def Spans (r : Reader α) (bytes : List UInt8) (n : Nat) (a : α) : Prop :=
  ∀ c : Cursor, c.rest = bytes → r c = .ok a (c.advanceBy n)

/-- A reader that succeeds does so because of the bytes in front of it. -/
def LooksAtBytes (r : Reader α) : Prop :=
  ∀ c a c', r c = .ok a c' → ∃ n, c' = c.advanceBy n ∧ Spans r c.rest n a

namespace Spans

variable {r : Reader α} {f : α → Reader β} {bytes : List UInt8} {m n : Nat} {a : α} {b : β}

theorem pure (a : α) (bytes : List UInt8) : Spans (pure a) bytes 0 a := fun _ _ => rfl

theorem bind (hr : Spans r bytes n a) (hf : Spans (f a) (bytes.drop n) m b) :
    Spans (r >>= f) bytes (n + m) b := by
  intro c hc
  have hrest : (c.advanceBy n).rest = bytes.drop n := by rw [Cursor.rest_advanceBy, hc]
  rw [Cursor.advanceBy_add]
  exact bind_eq_ok.mpr ⟨a, _, hr c hc, hf _ hrest⟩

theorem peek (bytes : List UInt8) : Spans peek bytes 0 bytes.head? := by
  rintro c rfl
  rfl

/-- A reader that looks ahead goes on with what it sees. -/
theorem ahead {bytes : List UInt8} {head : Option UInt8} {n : Nat} {b : β}
    {f : Option UInt8 → Reader β} (hhead : bytes.head? = head) (hf : Spans (f head) bytes n b) :
    Spans (Reader.peek >>= f) bytes n b := by
  intro c hc
  refine bind_eq_ok.mpr ⟨head, c, ?_, hf c hc⟩
  rw [← hhead, ← hc]
  rfl

theorem skip (bytes : List UInt8) : Spans skip bytes 1 () := fun _ _ => rfl

theorem skipWhile (p : UInt8 → Bool) (bytes : List UInt8) :
    Spans (skipWhile p) bytes (bytes.takeWhile p).length () := by
  rintro c rfl
  rfl

theorem takeWhile (p : UInt8 → Bool) (bytes : List UInt8) :
    Spans (takeWhile p) bytes (bytes.takeWhile p).length (bytes.takeWhile p) := by
  rintro c rfl
  rfl

theorem next? (bytes : List UInt8) :
    Spans next? bytes (blanks bytes) (unblanked bytes).head? := by
  have h := (skipWhile isJsonBlank bytes).bind (f := fun _ => Reader.peek)
    (peek (bytes.drop (blanks bytes)))
  rwa [drop_blanks] at h

end Spans

namespace LooksAtBytes

theorem of_spans {r : Reader α} (h : ∀ bytes, ∃ n a, Spans r bytes n a) : LooksAtBytes r := by
  intro c a c' hrun
  obtain ⟨n, b, hspans⟩ := h c.rest
  have hsame := hrun.symm.trans (hspans c rfl)
  cases hsame
  exact ⟨n, rfl, hspans⟩

theorem of_never {r : Reader α} (h : ∀ c a c', r c ≠ .ok a c') : LooksAtBytes r :=
  fun c a c' hrun => absurd hrun (h c a c')

theorem pure (a : α) : LooksAtBytes (pure a : Reader α) :=
  of_spans fun bytes => ⟨_, _, .pure a bytes⟩

theorem peek : LooksAtBytes peek := of_spans fun bytes => ⟨_, _, .peek bytes⟩

theorem skip : LooksAtBytes skip := of_spans fun bytes => ⟨_, _, .skip bytes⟩

theorem next? : LooksAtBytes next? := of_spans fun bytes => ⟨_, _, .next? bytes⟩

theorem fail (cause : Cause) : LooksAtBytes (fail cause : Reader α) :=
  of_never fun _ _ _ h => nomatch h

theorem failAfter (cause : Cause) : LooksAtBytes (failAfter cause : Reader α) :=
  of_never fun _ _ _ h => nomatch h

theorem bind {r : Reader α} {f : α → Reader β} (hr : LooksAtBytes r)
    (hf : ∀ a, LooksAtBytes (f a)) : LooksAtBytes (r >>= f) := by
  intro c b c' h
  obtain ⟨a, between, hfirst, hnext⟩ := bind_eq_ok.mp h
  obtain ⟨n, rfl, hspans⟩ := hr c a between hfirst
  obtain ⟨m, rfl, hspans'⟩ := hf a _ b c' hnext
  rw [Cursor.rest_advanceBy] at hspans'
  exact ⟨n + m, (Cursor.advanceBy_add n m c).symm, hspans.bind hspans'⟩

theorem word (w : List UInt8) : LooksAtBytes (word w) := by
  induction w with
  | nil => exact pure ()
  | cons byte rest ih =>
      refine bind peek fun head => ?_
      cases head with
      | none => exact fail _
      | some b =>
          refine bind skip fun _ => ?_
          by_cases h : b = byte
          · rw [if_pos h]
            exact ih
          · rw [if_neg h]
            exact fail _

theorem exponentSign : LooksAtBytes exponentSign := by
  refine bind peek fun head => ?_
  split
  · exact bind skip fun _ => pure true
  · exact bind skip fun _ => pure false
  · exact pure true

theorem colon : LooksAtBytes colon := by
  refine bind next? fun head => ?_
  split
  · exact failAfter _
  · exact skip
  · exact failAfter _

end LooksAtBytes

/-! ## Brackets -/

section

variable {c c' : Cursor}

/-- A place for the misfits inside makes no difference to a success. -/
theorem placed_eq_ok {r : Reader α} {a : α} :
    placed r c = .ok a c' ↔ r c = .ok a c' := by
  rw [placed]
  cases r c with
  | ok a between => exact Iff.rfl
  | error e between => exact ⟨fun h => (nomatch h), fun h => nomatch h⟩

theorem opened_eq_ok {contents : Reader α} {a : α} :
    opened contents c = .ok a c' ↔ ∃ depth last, c.depth = depth + 1 ∧
      contents (c.advance.atDepth depth) = .ok a last ∧ last.atDepth (last.depth + 1) = c' := by
  rw [opened]
  cases hdepth : c.depth with
  | zero =>
      constructor
      · intro h
        cases h
      · rintro ⟨depth, _, h, _⟩
        cases h
  | succ depth =>
      simp only [Nat.add_right_cancel_iff]
      constructor
      · intro h
        refine ⟨depth, ?_⟩
        generalize hinner : contents _ = inner at h
        cases inner with
        | error e last => cases h
        | ok a' last =>
            cases h
            exact ⟨last, rfl, hinner, rfl⟩
      · rintro ⟨_, last, rfl, hinner, rfl⟩
        have hcontents : contents { c.advance with depth := depth } = .ok a last := hinner
        rw [hcontents]
        rfl

/-- What a bracket holds is read one level deeper, and its end is read at the level of the
bracket. -/
theorem bracketed_eq_ok {contents : Reader α} {close : Reader Unit} {a : α} :
    bracketed contents close c = .ok a c' ↔ ∃ depth last, c.depth = depth + 1 ∧
      contents (c.advance.atDepth depth) = .ok a last ∧
      close (last.atDepth (last.depth + 1)) = .ok () c' := by
  refine Iff.trans placed_eq_ok ?_
  constructor
  · intro h
    cases hinner : opened contents c with
    | error e last =>
        rw [hinner] at h
        dsimp only at h
        generalize close last = ended at h
        cases ended <;> cases h
    | ok a' last =>
        rw [hinner] at h
        obtain ⟨depth, inner, hdepth, hcontents, rfl⟩ := opened_eq_ok.mp hinner
        dsimp only at h
        cases hclose : close (inner.atDepth (inner.depth + 1)) with
        | error e between =>
            rw [hclose] at h
            cases h
        | ok u between =>
            rw [hclose] at h
            cases h
            exact ⟨depth, inner, hdepth, hcontents, hclose⟩
  · rintro ⟨depth, last, hdepth, hcontents, hclose⟩
    have hinner : opened contents c = .ok a (last.atDepth (last.depth + 1)) :=
      opened_eq_ok.mpr ⟨depth, last, hdepth, hcontents, rfl⟩
    rw [hinner]
    dsimp only
    rw [hclose]

end

/-! ## Separators -/

section

variable {c c' : Cursor}

theorem rest_pastBlanks (c : Cursor) : c.pastBlanks.rest = unblanked c.rest := by
  change (c.advanceBy (blanks c.rest)).rest = _
  rw [Cursor.rest_advanceBy, drop_blanks]

theorem next?_run (c : Cursor) : next? c = .ok (unblanked c.rest).head? c.pastBlanks :=
  Spans.next? c.rest c rfl

theorem depth_pastBlanks (c : Cursor) : c.pastBlanks.depth = c.depth :=
  Cursor.depth_advanceBy (blanks c.rest) c

theorem pastBlanks_pastBlanks (c : Cursor) : c.pastBlanks.pastBlanks = c.pastBlanks := by
  change c.pastBlanks.advanceBy (blanks c.pastBlanks.rest) = _
  rw [rest_pastBlanks, blanks_unblanked, Cursor.advanceBy]

theorem pastBlanks_atDepth (c : Cursor) (depth : Nat) :
    (c.atDepth depth).pastBlanks = c.pastBlanks.atDepth depth :=
  Cursor.advanceBy_atDepth (blanks c.rest) c depth

/-- Blanks in front of a value make no difference to it. -/
theorem next?_pastBlanks (c : Cursor) : next? c.pastBlanks = next? c := by
  rw [next?_run, next?_run, rest_pastBlanks, unblanked_unblanked, pastBlanks_pastBlanks]

/-- What follows a look behind the blanks goes on there. -/
theorem next?_bind_eq_ok {f : Option UInt8 → Reader α} {a : α} :
    (next? >>= f) c = .ok a c' ↔ f (unblanked c.rest).head? c.pastBlanks = .ok a c' := by
  rw [bind_eq_ok, next?_run]
  constructor
  · rintro ⟨_, _, ⟨rfl, rfl⟩, h⟩
    exact h
  · intro h
    exact ⟨_, _, rfl, h⟩

theorem first_eq_ok {b : UInt8} :
    first c = .ok b c' ↔ (unblanked c.rest).head? = some b ∧ c' = c.pastBlanks := by
  rw [first, next?_bind_eq_ok]
  cases (unblanked c.rest).head? with
  | none => exact ⟨fun h => (nomatch h), fun h => nomatch h.1⟩
  | some byte =>
      constructor
      · rintro ⟨rfl, rfl⟩
        exact ⟨rfl, rfl⟩
      · rintro ⟨⟨rfl⟩, rfl⟩
        rfl

/-- A list ends with its bracket. -/
theorem endList_eq_ok :
    endList c = .ok () c' ↔ (unblanked c.rest).head? = some 93 ∧ c' = c.pastBlanks.advance := by
  rw [endList, next?_bind_eq_ok]
  generalize (unblanked c.rest).head? = head
  split
  · exact ⟨fun h => (nomatch h), fun h => nomatch h.1⟩
  · constructor
    · rintro ⟨rfl⟩
      exact ⟨rfl, rfl⟩
    · rintro ⟨-, rfl⟩
      rfl
  · constructor
    · intro h
      obtain ⟨_, _, -, h⟩ := bind_eq_ok.mp h
      rw [next?_bind_eq_ok] at h
      generalize (unblanked _).head? = second at h
      split at h <;> cases h
    · rintro ⟨⟨⟩, -⟩
  · next b hne _ =>
      constructor
      · intro h
        cases h
      · rintro ⟨⟨rfl⟩, -⟩
        exact absurd rfl hne

/-- An object ends with its brace. -/
theorem endObject_eq_ok :
    endObject c = .ok () c' ↔
      (unblanked c.rest).head? = some 125 ∧ c' = c.pastBlanks.advance := by
  rw [endObject, next?_bind_eq_ok]
  generalize (unblanked c.rest).head? = head
  split
  · exact ⟨fun h => (nomatch h), fun h => nomatch h.1⟩
  · constructor
    · rintro ⟨rfl⟩
      exact ⟨rfl, rfl⟩
    · rintro ⟨-, rfl⟩
      rfl
  · exact ⟨fun h => (nomatch h), fun h => nomatch h.1⟩
  · next b hne _ =>
      constructor
      · intro h
        cases h
      · rintro ⟨⟨rfl⟩, -⟩
        exact absurd rfl hne

/-- Behind the value of a whole text nothing but blanks is left. -/
theorem run_eq_ok {r : Reader α} {bytes : List UInt8} {a : α} :
    r.run bytes = .ok a ↔ ∃ last, r (Cursor.start bytes) = .ok a last ∧
      (unblanked last.rest).head? = none := by
  rw [run]
  constructor
  · intro h
    generalize hwhole : (r >>= _) (Cursor.start bytes) = whole at h
    cases whole with
    | error e last => cases h
    | ok a' ended =>
        cases h
        obtain ⟨a', last, hr, hwhole⟩ := bind_eq_ok.mp hwhole
        rw [next?_bind_eq_ok] at hwhole
        generalize hhead : (unblanked last.rest).head? = head at hwhole
        cases head with
        | none =>
            cases hwhole
            exact ⟨last, hr, hhead⟩
        | some b => cases hwhole
  · rintro ⟨last, hr, hhead⟩
    rw [bind_of_ok hr, bind_of_ok (next?_run last), hhead]
    rfl

/-- The next item of a list, if there is one: at the front of the list, or behind a comma. -/
inductive ItemFollows (c : Cursor) : Bool → Bool → Cursor → Prop where
  | ended {isFirst : Bool} (h : (unblanked c.rest).head? = some 93) :
      ItemFollows c isFirst false c.pastBlanks
  | front {b : UInt8} (h : (unblanked c.rest).head? = some b) (hb : b ≠ 93) :
      ItemFollows c true true c.pastBlanks
  | behindComma (h : (unblanked c.rest).head? = some 44) :
      ItemFollows c false true c.pastBlanks.advance.pastBlanks

theorem itemFollows_of_nextItem {isFirst more : Bool} (h : nextItem isFirst c = .ok more c') :
    ItemFollows c isFirst more c' := by
  rw [nextItem, next?_bind_eq_ok] at h
  generalize hhead : (unblanked c.rest).head? = head at h
  split at h
  · cases h
  · cases h
    exact .ended hhead
  · next b hne =>
      cases isFirst with
      | true =>
          cases h
          exact .front hhead hne
      | false =>
          by_cases hcomma : b = 44
          · subst hcomma
            obtain ⟨_, _, ⟨rfl, rfl⟩, h⟩ := bind_eq_ok.mp h
            rw [next?_bind_eq_ok] at h
            generalize (unblanked _).head? = second at h
            split at h
            · cases h
            · cases h
            · cases h
              exact .behindComma hhead
          · rw [if_neg (by simp), if_neg hcomma] at h
            cases h

theorem ItemFollows.length_le {between : Cursor} {isFirst more : Bool}
    (h : ItemFollows c isFirst more between) : between.rest.length ≤ c.rest.length := by
  have hle (bytes : List UInt8) : (unblanked bytes).length ≤ bytes.length :=
    List.length_dropWhile_le _ _
  have hfront : c.pastBlanks.rest.length ≤ c.rest.length := by
    rw [rest_pastBlanks]
    exact hle _
  cases h with
  | ended _ => exact hfront
  | front _ _ => exact hfront
  | behindComma _ =>
      have hcomma := hle c.pastBlanks.advance.rest
      rw [Cursor.rest_advance, List.length_tail] at hcomma
      rw [rest_pastBlanks, Cursor.rest_advance]
      omega

/-- The next member of an object, if there is one: at the front of the object, or behind a comma.
The reader goes behind the quote of its name. -/
inductive NameFollows (c : Cursor) : Bool → Bool → Cursor → Prop where
  | ended {isFirst : Bool} (h : (unblanked c.rest).head? = some 125) :
      NameFollows c isFirst false c.pastBlanks
  | front (h : (unblanked c.rest).head? = some 34) : NameFollows c true true c.pastBlanks.advance
  | behindComma (h : (unblanked c.rest).head? = some 44)
      (hquote : (unblanked c.pastBlanks.advance.rest).head? = some 34) :
      NameFollows c false true c.pastBlanks.advance.pastBlanks.advance

theorem nameFollows_of_nextName {isFirst more : Bool} (h : nextName isFirst c = .ok more c') :
    NameFollows c isFirst more c' := by
  rw [nextName, next?_bind_eq_ok] at h
  generalize hhead : (unblanked c.rest).head? = head at h
  split at h
  · cases h
  · cases h
    exact .ended hhead
  · next b hne =>
      cases isFirst with
      | true =>
          by_cases hquote : b = 34
          · subst hquote
            cases h
            exact .front hhead
          · rw [if_pos rfl, if_neg hquote] at h
            cases h
      | false =>
          by_cases hcomma : b = 44
          · subst hcomma
            obtain ⟨_, _, ⟨rfl, rfl⟩, h⟩ := bind_eq_ok.mp h
            rw [next?_bind_eq_ok] at h
            generalize hsecond : (unblanked _).head? = second at h
            split at h
            · cases h
            · cases h
              exact .behindComma hhead hsecond
            · cases h
            · cases h
          · rw [if_neg (by simp), if_neg hcomma] at h
            cases h

end

end Reader

end Gatehouse.Json
