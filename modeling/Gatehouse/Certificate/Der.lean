import Gatehouse.Text.Hex

/-!
# Tagged binary elements

An element is a tag byte, a length in short form or in long form of one to four bytes, and the
contents.  Readers take elements from the front of a byte string and stop at the first that is not
what they expect.
-/

namespace Gatehouse.Der

/-- Why a byte string is not the expected element. -/
inductive Error where
  | truncatedTag
  | truncatedLength
  | unsupportedLength
  | truncatedValue
  | wrongTag (expected found : UInt8)
  deriving DecidableEq, Repr

def hexByte (b : UInt8) : String := String.ofList (Text.Hex.pair b)

def Error.message : Error → String
  | .truncatedTag => "truncated tag"
  | .truncatedLength => "truncated length"
  | .unsupportedLength => "unsupported length encoding"
  | .truncatedValue => "truncated value"
  | .wrongTag expected found =>
    s!"expected tag 0x{hexByte expected}, found 0x{hexByte found}"

/-- An element and the bytes behind it. -/
structure Element where
  tag : UInt8
  content : List UInt8
  rest : List UInt8

def ofBytes (bytes : List UInt8) : Nat :=
  bytes.foldl (fun n b => n * 256 + b.toNat) 0

/-- Reads a length; the bytes behind it follow. -/
def readLength : List UInt8 → Except Error (Nat × List UInt8)
  | [] => .error .truncatedLength
  | first :: rest =>
    if first < 0x80 then .ok (first.toNat, rest)
    else
      let count := first.toNat % 128
      if count = 0 ∨ count > 4 ∨ rest.length < count then .error .unsupportedLength
      else .ok (ofBytes (rest.take count), rest.drop count)

/-- Reads one element. -/
def read : List UInt8 → Except Error Element
  | [] => .error .truncatedTag
  | tag :: bytes => do
    let (length, rest) ← readLength bytes
    if rest.length < length then throw .truncatedValue
    return ⟨tag, rest.take length, rest.drop length⟩

/-- Reads one element with the given tag: its contents and the bytes behind it. -/
def expect (tag : UInt8) (bytes : List UInt8) : Except Error (List UInt8 × List UInt8) := do
  let element ← read bytes
  if element.tag ≠ tag then throw (.wrongTag tag element.tag)
  return (element.content, element.rest)

theorem readLength_length {bytes rest : List UInt8} {n : Nat}
    (h : readLength bytes = .ok (n, rest)) : rest.length < bytes.length := by
  cases bytes with
  | nil => simp [readLength] at h
  | cons first tail =>
    simp only [readLength] at h
    split at h
    · simp only [Except.ok.injEq, Prod.mk.injEq] at h
      simp [← h.2]
    · split at h
      · simp at h
      · simp only [Except.ok.injEq, Prod.mk.injEq] at h
        rw [← h.2]
        simp only [List.length_drop, List.length_cons]
        omega

theorem read_rest_length {bytes : List UInt8} {e : Element} (h : read bytes = .ok e) :
    e.rest.length < bytes.length := by
  cases bytes with
  | nil => simp [read] at h
  | cons tag tail =>
    simp only [read] at h
    cases hl : readLength tail with
    | error error => simp [hl, bind, Except.bind] at h
    | ok p =>
      obtain ⟨n, rest⟩ := p
      have := readLength_length hl
      simp only [hl, bind, Except.bind] at h
      split at h
      · simp [throw, throwThe, MonadExceptOf.throw] at h
      · simp only [pure, Except.pure, Except.ok.injEq] at h
        rw [← h]
        simp only [List.length_drop, List.length_cons]
        omega

theorem expect_rest_length {tag : UInt8} {bytes content rest : List UInt8}
    (h : expect tag bytes = .ok (content, rest)) : rest.length < bytes.length := by
  simp only [expect] at h
  cases hr : read bytes with
  | error error => simp [hr, bind, Except.bind] at h
  | ok e =>
    have := read_rest_length hr
    simp only [hr, bind, Except.bind] at h
    split at h
    · simp [throw, throwThe, MonadExceptOf.throw] at h
    · simp only [pure, Except.pure, Except.ok.injEq, Prod.mk.injEq] at h
      rw [← h.2]
      exact this

/-- Reads elements of one tag up to the end, each by `f`. -/
def each (tag : UInt8) (f : List UInt8 → Except Error α) (bytes : List UInt8) :
    Except Error (List α) :=
  match bytes with
  | [] => .ok []
  | b :: tail =>
    match _h : expect tag (b :: tail) with
    | .error error => .error error
    | .ok (content, rest) =>
      match f content with
      | .error error => .error error
      | .ok a =>
        match each tag f rest with
        | .error error => .error error
        | .ok as => .ok (a :: as)
termination_by bytes.length
decreasing_by exact expect_rest_length _h

end Gatehouse.Der
