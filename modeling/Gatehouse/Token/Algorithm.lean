import Gatehouse.Token.Sha2

/-!
# Signature algorithms

The algorithms that a token may name, and the family of keys that each needs.
-/

namespace Gatehouse.Token

inductive Algorithm where
  | hs256 | hs384 | hs512 | es256 | es384 | rs256 | rs384 | rs512 | ps256 | ps384 | ps512 | eddsa
  deriving DecidableEq, Repr

inductive Family where
  | hmac | rsa | ec | ed
  deriving DecidableEq, Repr

namespace Algorithm

/-- Every algorithm with its name, in the order in which messages list them. -/
def named : List (String × Algorithm) := [
  ("HS256", .hs256), ("HS384", .hs384), ("HS512", .hs512), ("ES256", .es256), ("ES384", .es384),
  ("RS256", .rs256), ("RS384", .rs384), ("RS512", .rs512), ("PS256", .ps256), ("PS384", .ps384),
  ("PS512", .ps512), ("EdDSA", .eddsa)]

/-- The algorithm of a name, which is compared exactly. -/
def ofName? (name : String) : Option Algorithm := named.lookup name

def family : Algorithm → Family
  | .hs256 | .hs384 | .hs512 => .hmac
  | .es256 | .es384 => .ec
  | .rs256 | .rs384 | .rs512 | .ps256 | .ps384 | .ps512 => .rsa
  | .eddsa => .ed

def hash : Algorithm → Sha2
  | .hs256 | .es256 | .rs256 | .ps256 => sha256
  | .hs384 | .es384 | .rs384 | .ps384 => sha384
  | .hs512 | .rs512 | .ps512 | .eddsa => sha512

end Algorithm

end Gatehouse.Token
