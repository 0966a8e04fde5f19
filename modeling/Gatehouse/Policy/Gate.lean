import Gatehouse.Log
import Gatehouse.Policy.Engine
import Gatehouse.ServiceError

/-!
# The gate of a component

The gate asks the component's engine about a call and reports the calls that it refuses.
-/

namespace Gatehouse.Policy

structure Gate where
  component : String
  engine : Engine

namespace Gate

/-- The properties required of a call: those of the method, or else those of its component. -/
def requiredProperties (declared default : Option (List String)) : Option (List String) :=
  declared <|> default

def refusal (g : Gate) (method path : String) (c : Credential) : LogLine :=
  .warn "Unauthorized access" [("component", g.component), ("method", method), ("path", path),
    ("identity", c.identityFragment)]

/-- Lets a call pass or refuses it; either way the record comes back completed. -/
def check (g : Gate) (method path : String) (required : Option (List String)) (c : Credential) :
    Except ServiceError Unit × Credential × Log :=
  let (allowed, c) := g.engine.authorize method required c
  if allowed then (.ok (), c, [])
  else (.error (.authorization (some method)), c, [g.refusal method path c])

end Gate

end Gatehouse.Policy
