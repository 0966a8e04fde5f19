import Gatehouse.Text.AsciiCase
import Gatehouse.Text.Split
import Gatehouse.Text.Upper

/-!
# Component names

A component is called after its system and its handler, and both are read off the path of the
handler's type: the system is the innermost enclosing module called `…_system`, the handler is the
type itself without the ending `Handler`.  What follows a `<` is an argument of the type and names
nothing.
-/

namespace Gatehouse.Component

def basePath (path : List Char) : List Char := path.takeWhile (· != '<')

/-- The segments of a path, which are separated by pairs of colons. -/
def segments : List Char → List (List Char)
  | [] => [[]]
  | ':' :: ':' :: rest => [] :: segments rest
  | c :: rest =>
    match segments rest with
    | [] => [[c]]
    | segment :: more => (c :: segment) :: more

/-- The text with its first character in upper case. -/
def capitalize : List Char → List Char
  | [] => []
  | c :: rest => Text.upperChar c ++ rest

/-- The words between underscores, each capitalized, without the underscores. -/
def camelCaseChars (snake : List Char) : List Char :=
  (Text.splitChars '_' snake).flatMap capitalize

def camelCase (snake : String) : String := String.ofList (camelCaseChars snake.toList)

/-- The ending that makes a module a system. -/
def systemEnding : List Char := "_system".toList

/-- The ending that a type name drops. -/
def handlerEnding : List Char := "Handler".toList

/-- A text without an ending, if it has the ending and something before it. -/
def stem? (ending cs : List Char) : Option (List Char) :=
  match Text.stripTail? ending cs with
  | some [] | none => none
  | some stem => some stem

def systemStem? (segment : List Char) : Option (List Char) :=
  stem? systemEnding (segment.map Char.toLower)

/-- The modules that enclose a type, the outermost first. -/
def modulesOf (path : String) : List (List Char) :=
  (segments (basePath path.toList)).dropLast

/-- The system of a type: that of the innermost module that stands for one, or else the outermost
module. -/
def systemName (path : String) : String :=
  let modules := modulesOf path
  match modules.reverse.findSome? systemStem? with
  | some stem => String.ofList (camelCaseChars stem)
  | none => String.ofList ((modules.head?.map camelCaseChars).getD [])

/-- The name of a type without its modules and its ending. -/
def handlerName (path : String) : String :=
  let base := basePath path.toList
  let name := ((Text.cutAtLast? [':', ':'] base).map Prod.snd).getD base
  String.ofList ((stem? handlerEnding name).getD name)

def fullName (system handler : String) : String := s!"{system}/{handler}"

end Gatehouse.Component
