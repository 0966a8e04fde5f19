import Gatehouse.Certificate.Name
import Gatehouse.Certificate.Pem
import Gatehouse.Credential

/-!
# Who a certificate speaks for

Only the names of the first certificate of a chain are read.  The others have to be well-formed
armour, and nothing behind the subject is looked at.
-/

namespace Gatehouse.Certificate

/-- Why a chain tells nothing. -/
inductive ChainError where
  | pem (error : PemError)
  | empty
  | der (error : Der.Error)
  | other (reason : String)
  deriving DecidableEq, Repr

def ChainError.message : ChainError → String
  | .pem error => error.message
  | .empty => "no certificate in chain"
  | .der error => error.message
  | .other reason => reason

structure Names where
  subject : List NameEntry
  issuer : List NameEntry
  deriving DecidableEq, Repr

def explicitVersionTag : UInt8 := 0xA0

/-- Reads the names of a certificate; the subject is looked into before the issuer. -/
def readNames (certificate : List UInt8) : Except Der.Error Names := do
  let (signed, _) ← Der.expect sequenceTag certificate
  let (fields, _) ← Der.expect sequenceTag signed
  let first ← Der.read fields
  let fields := if first.tag = explicitVersionTag then first.rest else fields
  let serial ← Der.read fields
  let (_, fields) ← Der.expect sequenceTag serial.rest
  let (issuer, fields) ← Der.expect sequenceTag fields
  let (_, fields) ← Der.expect sequenceTag fields
  let (subject, _) ← Der.expect sequenceTag fields
  let subject ← readName subject
  let issuer ← readName issuer
  return ⟨subject, issuer⟩

def Names.record (names : Names) : Credential :=
  let (dn, isProxy) := stripProxy (renderName names.subject)
  { dn := some dn
    attributes := [("isProxy", .bool isProxy), ("issuer", .str (renderName names.issuer))] }

/-- Reads the record of a chain's first certificate. -/
def readChain (pem : String) : Except ChainError Credential := do
  let blocks ← (pemBlocks pem.toList).mapError .pem
  match blocks with
  | [] => throw .empty
  | leaf :: _ =>
    let names ← (readNames leaf).mapError .der
    return names.record

end Gatehouse.Certificate
