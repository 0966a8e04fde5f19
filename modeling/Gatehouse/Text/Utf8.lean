/-!
# UTF-8

Bytes are decoded one scalar value at a time.  An ill-formed sequence is reported with the length
of its maximal well-formed prefix, which gives both the strict decoder (with the place of the first
fault) and the lenient one (one replacement character for each ill-formed sequence).
-/

namespace Gatehouse.Text.Utf8

def encode (s : String) : List UInt8 :=
  s.toList.flatMap String.utf8EncodeChar

inductive Front where
  /-- A scalar value and the number of bytes that hold it. -/
  | scalar (c : Char) (length : Nat)
  /-- A sequence that no continuation could complete. -/
  | illFormed (length : Nat)
  /-- A sequence that the end of the bytes cuts short. -/
  | cutShort
  deriving Repr

def isContinuation (b : UInt8) : Bool :=
  0x80 ≤ b && b ≤ 0xBF

def low6 (b : UInt8) : Nat := b.toNat % 64

/-- The second bytes that may follow a lead byte of three or four bytes. -/
def secondAllowed (lead second : UInt8) : Bool :=
  if lead == 0xE0 then 0xA0 ≤ second && second ≤ 0xBF
  else if lead == 0xED then 0x80 ≤ second && second ≤ 0x9F
  else if lead == 0xF0 then 0x90 ≤ second && second ≤ 0xBF
  else if lead == 0xF4 then 0x80 ≤ second && second ≤ 0x8F
  else isContinuation second

/-- Reads one scalar value from `lead :: rest`. -/
def front (lead : UInt8) (rest : List UInt8) : Front :=
  if lead < 0x80 then .scalar (Char.ofNat lead.toNat) 1
  else if lead < 0xC2 then .illFormed 1
  else if lead < 0xE0 then
    match rest with
    | [] => .cutShort
    | b :: _ =>
      if isContinuation b then .scalar (Char.ofNat (lead.toNat % 32 * 64 + low6 b)) 2
      else .illFormed 1
  else if lead < 0xF0 then
    match rest with
    | [] => .cutShort
    | b :: rest =>
      if !secondAllowed lead b then .illFormed 1
      else
        match rest with
        | [] => .cutShort
        | c :: _ =>
          if isContinuation c then
            .scalar (Char.ofNat (lead.toNat % 16 * 4096 + low6 b * 64 + low6 c)) 3
          else .illFormed 2
  else if lead < 0xF5 then
    match rest with
    | [] => .cutShort
    | b :: rest =>
      if !secondAllowed lead b then .illFormed 1
      else
        match rest with
        | [] => .cutShort
        | c :: rest =>
          if !isContinuation c then .illFormed 2
          else
            match rest with
            | [] => .cutShort
            | d :: _ =>
              if isContinuation d then
                .scalar (Char.ofNat
                  (lead.toNat % 8 * 262144 + low6 b * 4096 + low6 c * 64 + low6 d)) 4
              else .illFormed 3
  else .illFormed 1

/-- The first fault of a byte string that is not UTF-8. -/
structure Fault where
  /-- How many bytes before it are well formed. -/
  validUpTo : Nat
  /-- The length of the ill-formed sequence, `none` when the bytes end inside one. -/
  length : Option Nat
  deriving Repr, DecidableEq

def Fault.message (f : Fault) : String :=
  match f.length with
  | some n => s!"invalid utf-8 sequence of {n} bytes from index {f.validUpTo}"
  | none => s!"incomplete utf-8 byte sequence from index {f.validUpTo}"

/-- Decodes from position `at`; the bytes that belong to the scalar just read are skipped. -/
def decodeFrom (position skip : Nat) : List UInt8 → Except Fault (List Char)
  | [] => .ok []
  | b :: rest =>
    match skip with
    | skip + 1 => decodeFrom (position + 1) skip rest
    | 0 =>
      match front b rest with
      | .scalar c n => (decodeFrom (position + 1) (n - 1) rest).map (c :: ·)
      | .illFormed n => .error ⟨position, some n⟩
      | .cutShort => .error ⟨position, none⟩

/-- Strict decoding. -/
def decode (bytes : List UInt8) : Except Fault String :=
  (decodeFrom 0 0 bytes).map String.ofList

/-- Strict decoding, without the place of the fault. -/
def decode? (bytes : List UInt8) : Option String :=
  (decode bytes).toOption

def replacement : Char := '\uFFFD'

def lossyFrom (skip : Nat) : List UInt8 → List Char
  | [] => []
  | b :: rest =>
    match skip with
    | skip + 1 => lossyFrom skip rest
    | 0 =>
      match front b rest with
      | .scalar c n => c :: lossyFrom (n - 1) rest
      | .illFormed n => replacement :: lossyFrom (n - 1) rest
      | .cutShort => [replacement]

/-- Lenient decoding: each ill-formed sequence becomes one replacement character. -/
def decodeLossy (bytes : List UInt8) : String :=
  String.ofList (lossyFrom 0 bytes)

end Gatehouse.Text.Utf8
