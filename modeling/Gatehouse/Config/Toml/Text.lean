import Gatehouse.Text.Hex

/-!
# Texts and keys of TOML documents

Readers of the front of a document: blanks, comments, line ends, the four kinds of quoted text, and
keys.  A reader fails or takes what it read off the front; alternatives start from the same front.
-/

namespace Gatehouse.Config.Toml

/-- A reader of the front of a text. -/
abbrev Front := StateT (List Char) Option

def satisfy (test : Char → Bool) : Front Char
  | [] => none
  | c :: rest => if test c then some (c, rest) else none

def char (c : Char) : Front Unit := do
  let _ ← satisfy (· == c)

def literal : List Char → Front Unit
  | [] => pure ()
  | c :: rest => do
    char c
    literal rest

/-- Takes every character up to the first that fails a test. -/
def takeWhile (test : Char → Bool) : Front (List Char) := fun cs =>
  some (cs.span test)

def optional? (p : Front α) : Front (Option α) := fun cs =>
  match p cs with
  | some (a, rest) => some (some a, rest)
  | none => some (none, cs)

/-- Takes as many pieces as `p` takes, `fuel` at most.  Where `p` takes at least one character, the
length of the text is fuel enough. -/
def manyOf (p : Front α) : Nat → Front (List α)
  | 0 => pure []
  | fuel + 1 => do
    match ← optional? p with
    | none => return []
    | some a => return a :: (← manyOf p fuel)

def many (p : Front α) : Front (List α) := do
  manyOf p (← get).length

def separated (separator : Front Unit) (p : Front α) : Front (List α) := do
  let first ← p
  let rest ← many (do separator; p)
  return first :: rest

/-! ## Blanks, comments, lines -/

def isBlank (c : Char) : Bool := c == ' ' || c == '\t'

def blanks : Front Unit := modify (·.dropWhile isBlank)

/-- The end of a line: a line feed, which a carriage return may precede. -/
def newline : Front Unit := literal ['\n'] <|> literal ['\r', '\n']

def atEnd : Front Unit
  | [] => some ((), [])
  | _ => none

/-- A character that is neither a control character nor, where that is said, excluded. -/
def isPrintable (c : Char) : Bool :=
  c == '\t' || (0x20 ≤ c.toNat && c.toNat ≤ 0x7E) || c.toNat ≥ 0x80

def comment : Front Unit := do
  char '#'
  let _ ← takeWhile isPrintable

/-- Blanks, comments and line ends between the items of a list. -/
def spacing : Front Unit := do
  let step : Front Unit := (do let _ ← satisfy isBlank) <|> newline <|> (do comment; newline)
  let _ ← many step

/-- The rest of a line behind an expression. -/
def lineRest : Front Unit := do
  blanks
  let _ ← optional? comment
  newline <|> atEnd

/-! ## Texts -/

/-- A character given by `digits` hexadecimal digits. -/
def codePoint (digits : Nat) : Front Char := fun cs => do
  let code ← (cs.take digits).foldlM (fun n c => (Text.Hex.value? c.toNat).map (n * 16 + ·)) 0
  if (cs.take digits).length = digits ∧ code.isValidChar then
    return (Char.ofNat code, cs.drop digits)
  else none

def escaped : Front Char := do
  match ← satisfy fun _ => true with
  | 'b' => return Char.ofNat 8
  | 't' => return '\t'
  | 'n' => return '\n'
  | 'f' => return Char.ofNat 12
  | 'r' => return '\r'
  | '"' => return '"'
  | '\\' => return '\\'
  | 'u' => codePoint 4
  | 'U' => codePoint 8
  | _ => failure

def escape : Front Char := do
  char '\\'
  escaped

def basicText : Front (List Char) := do
  char '"'
  let body ← many (escape <|> satisfy fun c => isPrintable c && c != '"' && c != '\\')
  char '"'
  return body

def literalText : Front (List Char) := do
  char '\''
  let body ← takeWhile fun c => isPrintable c && c != '\''
  char '\''
  return body

/-- A backslash at the end of a line, which hides the blanks and line ends behind it. -/
def continuation : Front Unit := do
  char '\\'
  blanks
  newline
  let _ ← many ((do let _ ← satisfy isBlank) <|> newline)

/-- The last delimiter of a long text, with the one or two quotes that may precede it. -/
def longEnd (quote : Char) : Front (List Char) :=
  let delimiter := List.replicate 3 quote
  (do literal (quote :: quote :: delimiter); return [quote, quote])
    <|> (do literal (quote :: delimiter); return [quote])
    <|> (do literal delimiter; return [])

/-- A piece of a long text: `plain`, a line end, or a quote that does not begin its last
delimiter. -/
def longPiece (quote : Char) (plain : Front (List Char)) : Front (List Char) := fun cs =>
  match longEnd quote cs with
  | some _ => none
  | none => (plain <|> (do newline; return ['\n']) <|> (do char quote; return [quote])) cs

/-- A text between triple quotes.  A line end right behind the first of them does not count. -/
def longText (quote : Char) (plain : Front (List Char)) : Front (List Char) := do
  literal (List.replicate 3 quote)
  let _ ← optional? newline
  let body ← many (longPiece quote plain)
  return body.flatten ++ (← longEnd quote)

def longBasicText : Front (List Char) :=
  longText '"' <| (do continuation; return []) <|> (do return [← escape])
    <|> do return [← satisfy fun c => isPrintable c && c != '"' && c != '\\']

def longLiteralText : Front (List Char) :=
  longText '\'' <| do return [← satisfy fun c => isPrintable c && c != '\'']

def quotedText : Front String := do
  return String.ofList (← longBasicText <|> basicText <|> longLiteralText <|> literalText)

/-! ## Keys -/

def isBareKey (c : Char) : Bool := c.isAlphanum || c == '_' || c == '-'

def simpleKey : Front String := do
  match ← takeWhile isBareKey with
  | [] => return String.ofList (← basicText <|> literalText)
  | name => return String.ofList name

def maxKeyParts : Nat := 79

/-- A key: one or more parts with points between. -/
def key : Front (List String) := do
  let parts ← separated (char '.') (do blanks; let part ← simpleKey; blanks; return part)
  if parts.length ≤ maxKeyParts then return parts else failure

end Gatehouse.Config.Toml
