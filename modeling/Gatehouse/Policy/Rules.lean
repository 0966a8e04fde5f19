import Gatehouse.Credential
import Gatehouse.Text.AsciiCase
import Gatehouse.Text.Blank
import Gatehouse.Text.Split

/-!
# Property rules

The rules of a section say which properties open which method, and which properties a group has.
A record is first completed from the group, then judged; the completed record is what the method
sees, whether or not the call is allowed.
-/

namespace Gatehouse.Policy

/-- The properties of a comma-separated list. -/
def parseProperties (list : String) : List String :=
  ((Text.split ',' list).map Text.trim).filter (!·.isEmpty)

/-- The rules of one section. -/
structure Rules where
  /-- Needed by methods for which nothing else is said. -/
  default : List String := []
  /-- Needed by the named methods, whatever they declare themselves. -/
  methods : Table (List String) := []
  /-- Held by the members of the named groups. -/
  groups : Table (List String) := []
  deriving DecidableEq, Repr

namespace Rules

open Json in
def shape : RecordShape Rules where
  name := "AuthorizationSection"
  fields := [
    .of "default" (decodeList decodeString) fun r v => { r with default := v },
    .of "methods" (decodeMap (decodeList decodeString)) fun r v => { r with methods := v },
    .of "groups" (decodeMap (decodeList decodeString)) fun r v => { r with groups := v }]

def decode : Json.Decoder Rules := shape.decode {}

def toJson (r : Rules) : Json :=
  let table (lists : Table (List String)) : Json :=
    .obj (lists.map fun (name, properties) => (name, Json.ofStrings properties))
  .obj [("default", Json.ofStrings r.default), ("groups", table r.groups),
    ("methods", table r.methods)]

def lists (r : Rules) : List (List String) :=
  r.default :: r.methods.map Prod.snd ++ r.groups.map Prod.snd

/-- Whether some list names a property of which trimming leaves nothing. -/
def hasBlankProperty (r : Rules) : Bool :=
  r.lists.any fun properties => properties.any fun p => (Text.trim p).isEmpty

def blankPropertyMessage : String := "empty property name"

/-- Completes a record: properties from the group if it has none, the id as name if it has none. -/
def enrich (r : Rules) (c : Credential) : Credential :=
  let properties :=
    if c.properties.isEmpty then (c.group.bind (Table.get? · r.groups)).getD [] else c.properties
  { c with properties, username := c.username <|> c.id }

/-- The properties of which one opens a method; where none is named, the method is closed. -/
def needed (r : Rules) (method : String) (required : Option (List String)) : List String :=
  let named := (Table.get? method r.methods <|> required).getD []
  if named.isEmpty then r.default else named

/-- Whether anything is known of who the caller is. -/
def isIdentified (c : Credential) : Bool :=
  c.username.isSome || c.id.isSome || c.dn.isSome

/-- Whether a record has a property.  Four words, in any case, stand for conditions. -/
def satisfies (c : Credential) (property : String) : Bool :=
  match Text.lowerAscii property with
  | "all" | "any" => true
  | "authenticated" => isIdentified c
  | "visitor" => !isIdentified c
  | _ => c.hasProperty property

/-- Judges a call, and completes the record of the caller. -/
def authorize (r : Rules) (method : String) (required : Option (List String)) (c : Credential) :
    Bool × Credential :=
  let c := r.enrich c
  ((r.needed method required).any (satisfies c), c)

end Rules

end Gatehouse.Policy
