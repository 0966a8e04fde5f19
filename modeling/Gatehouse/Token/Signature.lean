import Gatehouse.Certificate.Der
import Gatehouse.Token.Sha2

/-!
# Signatures

Keyed hashes, which both sides compute with a shared secret, and RSA signatures, which are checked
with a public key by raising the signature to the public exponent and comparing the whole padded
block.
-/

namespace Gatehouse.Token

def hmac (h : Sha2) (key message : List UInt8) : List UInt8 :=
  let key := if key.length > h.blockLength then h.hash key else key
  let key := key ++ List.replicate (h.blockLength - key.length) 0
  let inner := h.hash (key.map (· ^^^ 0x36) ++ message)
  h.hash (key.map (· ^^^ 0x5C) ++ inner)

/-- `base ^ exponent % modulus`, by squaring; `bits` bounds the length of the exponent. -/
def powMod (modulus : Nat) : Nat → Nat → Nat → Nat
  | 0, _, _ => 1 % modulus
  | bits + 1, base, exponent =>
    let rest := powMod modulus bits (base * base % modulus) (exponent / 2)
    if exponent % 2 = 1 then base * rest % modulus else rest

/-- A public key: modulus and exponent. -/
structure RsaKey where
  modulus : Nat
  exponent : Nat
  deriving DecidableEq, Repr

def RsaKey.ofDer? (der : List UInt8) : Option RsaKey :=
  (do
    let (content, rest) ← Der.expect 0x30 der
    let (modulus, behind) ← Der.expect 0x02 content
    let (exponent, last) ← Der.expect 0x02 behind
    return (modulus, exponent, rest ++ last) : Except Der.Error _).toOption.bind
      fun (modulus, exponent, left) =>
        if left.isEmpty then some ⟨Der.ofBytes modulus, Der.ofBytes exponent⟩ else none

/-- The sizes of modulus that are trusted, in bits. -/
def RsaKey.isAcceptable (key : RsaKey) : Bool :=
  let bits := key.modulus.log2 + 1
  2048 ≤ bits && bits ≤ 8192 && key.modulus % 2 = 1 && key.exponent % 2 = 1 &&
    key.exponent ≥ 3 && key.exponent < Nat.pow 2 33

/-- What stands before the hash in a signed block: the algorithm and the length. -/
def hashHeader (h : Sha2) : List UInt8 :=
  let arc : UInt8 := if h.length = 32 then 1 else if h.length = 48 then 2 else 3
  let length := UInt8.ofNat h.length
  [0x30, 17 + length, 0x30, 0x0D, 0x06, 0x09, 0x60, 0x86, 0x48, 0x01, 0x65, 0x03, 0x04, 0x02, arc,
    0x05, 0x00, 0x04, length]

/-- The block that a signature of `message` has to open to. -/
def signedBlock (h : Sha2) (length : Nat) (message : List UInt8) : List UInt8 :=
  let tail := hashHeader h ++ h.hash message
  [0x00, 0x01] ++ List.replicate (length - 3 - tail.length) 0xFF ++ 0x00 :: tail

def RsaKey.verifies (key : RsaKey) (h : Sha2) (message signature : List UInt8) : Bool :=
  let length := (key.modulus.log2 + 8) / 8
  let s := Der.ofBytes signature
  key.isAcceptable && signature.length == length && s < key.modulus &&
    powMod key.modulus 34 s key.exponent == Der.ofBytes (signedBlock h length message)

end Gatehouse.Token
