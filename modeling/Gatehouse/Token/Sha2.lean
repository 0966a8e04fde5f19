/-!
# The SHA-2 hash functions

One definition for every word width: the constants are the fractional parts of cube roots of
primes, the initial values those of square roots, and only the rotation amounts differ.
-/

namespace Gatehouse.Token

/-- The largest `r` with `r ^ k ≤ n`, given that it has at most `bits` bits. -/
def integerRoot (k n : Nat) : Nat → Nat → Nat
  | 0, r => r
  | bits + 1, r =>
    let larger := r + Nat.pow 2 bits
    if Nat.pow larger k ≤ n then integerRoot k n bits larger else integerRoot k n bits r

/-- The first `width` bits behind the point of the `k`-th root of `p`. -/
def rootFraction (k width p : Nat) : Nat :=
  integerRoot k (p * Nat.pow 2 (k * width)) (width + 8) 0 % Nat.pow 2 width

def isPrime (n : Nat) : Bool :=
  n ≥ 2 && (List.range n).all fun d => d < 2 || n % d ≠ 0

/-- The first primes, as many as any of the functions needs. -/
def primes : List Nat := (List.range 410).filter isPrime

/-- The parameters of one of the functions. -/
structure Sha2 where
  width : Nat
  constants : List (BitVec width)
  initial : List (BitVec width)
  /-- Rotations of the round functions. -/
  round0 : Nat × Nat × Nat
  round1 : Nat × Nat × Nat
  /-- Two rotations and a shift for the schedule. -/
  schedule0 : Nat × Nat × Nat
  schedule1 : Nat × Nat × Nat
  /-- Bytes of the result. -/
  length : Nat

namespace Sha2

def blockLength (h : Sha2) : Nat := 2 * h.width

def rotations (r : Nat × Nat × Nat) (x : BitVec w) : BitVec w :=
  x.rotateRight r.1 ^^^ x.rotateRight r.2.1 ^^^ x.rotateRight r.2.2

def shifted (r : Nat × Nat × Nat) (x : BitVec w) : BitVec w :=
  x.rotateRight r.1 ^^^ x.rotateRight r.2.1 ^^^ x >>> r.2.2

/-- The message with its padding: a one bit, zeros, and the length in bits. -/
def pad (h : Sha2) (message : List UInt8) : List UInt8 :=
  let lengthBytes := h.width / 4
  let filled := message.length + 1 + lengthBytes
  let zeros := (h.blockLength - filled % h.blockLength) % h.blockLength
  let bits := message.length * 8
  let length := (List.range lengthBytes).map fun i =>
    UInt8.ofNat (bits / Nat.pow 256 (lengthBytes - 1 - i))
  message ++ [0x80] ++ List.replicate zeros 0 ++ length

def wordsOf (h : Sha2) : Nat → List UInt8 → List (BitVec h.width)
  | 0, _ => []
  | n + 1, bytes =>
    let size := h.width / 8
    let word := (bytes.take size).foldl (fun v b => v * 256 + b.toNat) 0
    BitVec.ofNat h.width word :: h.wordsOf n (bytes.drop size)

/-- Extends the schedule by `n` words; the latest comes first. -/
def extend (h : Sha2) : Nat → List (BitVec h.width) → List (BitVec h.width)
  | 0, latest => latest
  | n + 1, latest =>
    let word := shifted h.schedule1 (latest.getD 1 0) + latest.getD 6 0 +
      shifted h.schedule0 (latest.getD 14 0) + latest.getD 15 0
    h.extend n (word :: latest)

def round (h : Sha2) (state : List (BitVec h.width)) (input : BitVec h.width × BitVec h.width) :
    List (BitVec h.width) :=
  match state with
  | [a, b, c, d, e, f, g, hh] =>
    let choice := (e &&& f) ^^^ (~~~e &&& g)
    let majority := (a &&& b) ^^^ (a &&& c) ^^^ (b &&& c)
    let t1 := hh + rotations h.round1 e + choice + input.1 + input.2
    let t2 := rotations h.round0 a + majority
    [t1 + t2, a, b, c, d + t1, e, f, g]
  | other => other

def compress (h : Sha2) (state : List (BitVec h.width)) (block : List UInt8) :
    List (BitVec h.width) :=
  let schedule := (h.extend (h.constants.length - 16) (h.wordsOf 16 block).reverse).reverse
  let mixed := (h.constants.zip schedule).foldl h.round state
  List.zipWith (· + ·) state mixed

def absorb (h : Sha2) : Nat → List (BitVec h.width) → List UInt8 → List (BitVec h.width)
  | 0, state, _ => state
  | n + 1, state, bytes =>
    h.absorb n (h.compress state (bytes.take h.blockLength)) (bytes.drop h.blockLength)

def bytesOf (word : BitVec w) : List UInt8 :=
  (List.range (w / 8)).map fun i => UInt8.ofNat (word.toNat / Nat.pow 256 (w / 8 - 1 - i))

/-- The hash of a message. -/
def hash (h : Sha2) (message : List UInt8) : List UInt8 :=
  let padded := h.pad message
  let state := h.absorb (padded.length / h.blockLength) h.initial padded
  (state.flatMap bytesOf).take h.length

end Sha2

def sha256 : Sha2 where
  width := 32
  constants := (primes.take 64).map fun p => BitVec.ofNat 32 (rootFraction 3 32 p)
  initial := (primes.take 8).map fun p => BitVec.ofNat 32 (rootFraction 2 32 p)
  round0 := (2, 13, 22)
  round1 := (6, 11, 25)
  schedule0 := (7, 18, 3)
  schedule1 := (17, 19, 10)
  length := 32

def sha512 : Sha2 where
  width := 64
  constants := (primes.take 80).map fun p => BitVec.ofNat 64 (rootFraction 3 64 p)
  initial := (primes.take 8).map fun p => BitVec.ofNat 64 (rootFraction 2 64 p)
  round0 := (28, 34, 39)
  round1 := (14, 18, 41)
  schedule0 := (1, 8, 7)
  schedule1 := (19, 61, 6)
  length := 64

def sha384 : Sha2 :=
  { sha512 with
    initial := ((primes.drop 8).take 8).map fun p => BitVec.ofNat 64 (rootFraction 2 64 p)
    length := 48 }

end Gatehouse.Token
