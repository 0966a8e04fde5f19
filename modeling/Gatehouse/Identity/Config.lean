import Gatehouse.Json.Record

/-!
# Identity provider settings

How a provider is configured: whose tokens it stands for, how they are signed, and where their
group is found.
-/

namespace Gatehouse.Identity

/-- The settings of one provider. -/
structure ProviderConfig where
  category : String := "Id"
  issuer : String := ""
  algorithm : String := "HS256"
  secret : Option String := none
  publicKeyPem : Option String := none
  audience : Option String := none
  groupClaim : String := "groups"
  defaultGroup : Option String := none
  deriving DecidableEq, Repr

namespace ProviderConfig

open Json in
def shape : RecordShape ProviderConfig where
  name := "IdentityProviderConfig"
  fields := [
    .of "category" decodeString fun c v => { c with category := v },
    (Slot.of "issuer" decodeString fun (c : ProviderConfig) v => { c with issuer := v }).require,
    .of "algorithm" decodeString fun c v => { c with algorithm := v },
    .of "secret" (decodeOption decodeString) fun c v => { c with secret := v },
    .of "public_key_pem" (decodeOption decodeString) fun c v => { c with publicKeyPem := v },
    .of "audience" (decodeOption decodeString) fun c v => { c with audience := v },
    .of "group_claim" decodeString fun c v => { c with groupClaim := v },
    .of "default_group" (decodeOption decodeString) fun c v => { c with defaultGroup := v }]

def decode : Json.Decoder ProviderConfig := shape.decode {}

def toJson (c : ProviderConfig) : Json :=
  let option (value : Option String) : Json := (value.map Json.str).getD .null
  .obj [("algorithm", .str c.algorithm), ("audience", option c.audience),
    ("category", .str c.category), ("default_group", option c.defaultGroup),
    ("group_claim", .str c.groupClaim), ("issuer", .str c.issuer),
    ("public_key_pem", option c.publicKeyPem), ("secret", option c.secret)]

end ProviderConfig

end Gatehouse.Identity
