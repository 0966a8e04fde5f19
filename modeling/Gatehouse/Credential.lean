import Gatehouse.Json.Record

/-!
# Credential records

What is known of a caller.  A record with nothing in it is an anonymous visitor.  In its structured
form a record is one object: the named fields that are present, and every other member as a free
attribute.
-/

namespace Gatehouse

/-- What is known of a caller. -/
structure Credential where
  dn : Option String := none
  id : Option String := none
  username : Option String := none
  group : Option String := none
  properties : List String := []
  extra : Option Json := none
  /-- Sorted by name; none has the name of a field. -/
  attributes : Json.Object := []

namespace Credential

def anonymousUser : String := "anonymous"

def visitorGroup : String := "visitor"

def empty : Credential := {}

def isEmpty (c : Credential) : Bool :=
  c.dn.isNone && c.id.isNone && c.username.isNone && c.group.isNone && c.properties.isEmpty &&
    c.extra.isNone && c.attributes.isEmpty

/-- Whether the record holds a property with exactly this spelling. -/
def hasProperty (c : Credential) (property : String) : Bool :=
  c.properties.contains property

/-- Whether the caller has a name other than that of the anonymous user. -/
def isRegistered (c : Credential) : Bool :=
  match c.username with
  | some name => !name.isEmpty && name != anonymousUser
  | none => false

def formatted (c : Credential) : String :=
  s!"[{c.group.getD visitorGroup}:{c.username.getD anonymousUser}]"

/-- The best description of who the caller is. -/
def identityFragment (c : Credential) : String :=
  if c.username.isSome || c.group.isSome then c.formatted
  else
    match c.id, c.dn with
    | some id, _ => s!"ID: {id}"
    | none, some dn => s!"DN: {dn}"
    | none, none => c.formatted

/-- The structured form: absent fields are left out. -/
def toJson (c : Credential) : Json :=
  let text (name : String) (value : Option String) : List (String × Json) :=
    match value with
    | some s => [(name, .str s)]
    | none => []
  let named :=
    text "dn" c.dn ++ text "id" c.id ++ text "username" c.username ++ text "group" c.group ++
      (if c.properties.isEmpty then [] else [("properties", Json.ofStrings c.properties)]) ++
      (match c.extra with
        | some value => [("extra_credentials", value)]
        | none => [])
  Json.obj (Table.extend (Table.ofList named) c.attributes)

open Json in
def shape : RecordShape Credential where
  name := "CredentialRecord"
  fields := [
    .of "dn" (decodeOption decodeString) fun c v => { c with dn := v },
    .of "id" (decodeOption decodeString) fun c v => { c with id := v },
    .of "username" (decodeOption decodeString) fun c v => { c with username := v },
    .of "group" (decodeOption decodeString) fun c v => { c with group := v },
    .of "properties" (decodeList decodeString) fun c v => { c with properties := v },
    .of "extra_credentials" (decodeOption decodeValue) fun c v => { c with extra := v }]
  others := .kept fun c name value =>
    { c with attributes := Table.insert name value c.attributes }
  listed := false

def decode : Json.Decoder Credential := shape.decode {}

def ofJson (value : Json) : Except Json.Misfit Credential :=
  decode.take .value value.toDocument

end Credential

end Gatehouse
