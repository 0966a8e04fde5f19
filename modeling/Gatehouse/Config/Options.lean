import Gatehouse.Json.Basic
import Gatehouse.Text.Split

/-!
# Options

Options live in a tree of objects and are named by paths.  Empty segments of a path do not count,
so `/a//b/` and `a/b` name the same option.
-/

namespace Gatehouse.Config

def pathSegments (path : String) : List String :=
  (Text.split '/' path).filter (!·.isEmpty)

/-- Follows names down a tree. -/
def descend : List String → Json → Option Json
  | [], tree => some tree
  | name :: rest, .obj members => (Table.get? name members).bind (descend rest)
  | _ :: _, _ => none

/-- A source of options. -/
inductive OptionSource where
  /-- A whole tree; the empty path names it. -/
  | tree (root : Json)
  /-- The options of components; the empty path names nothing. -/
  | components (members : Json.Object)

namespace OptionSource

def lookup (source : OptionSource) (path : String) : Option Json :=
  match source, pathSegments path with
  | .tree root, names => descend names root
  | .components _, [] => none
  | .components members, name :: rest => (Table.get? name members).bind (descend rest)

def get (source : OptionSource) (path : String) (default : Json) : Json :=
  (source.lookup path).getD default

/-- The option of a component.  An absolute name is a path; any other is looked for below the
handler and then below the system. -/
def componentOption (source : OptionSource) (system handler name : String) (default : Json) :
    Json :=
  if name.startsWith "/" then source.get name default
  else
    (source.lookup s!"{system}/{handler}/{name}" <|> source.lookup s!"{system}/{name}").getD default

end OptionSource

end Gatehouse.Config
