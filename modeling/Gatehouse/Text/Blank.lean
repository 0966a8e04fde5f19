/-!
# Blank characters

A blank is a character with the Unicode property White_Space.  Trimming, splitting into words and
the transparent part of an armoured certificate body all use this one class.  The wider alphabet
matters: a no-break space around a property name is blank, a zero-width space is not.
-/

namespace Gatehouse.Text

/-- The property White_Space, by code point. -/
def isBlank (c : Char) : Bool :=
  let n := c.toNat
  (9 ≤ n && n ≤ 13) || n == 0x20 || n == 0x85 || n == 0xA0 || n == 0x1680 ||
    (0x2000 ≤ n && n ≤ 0x200A) || n == 0x2028 || n == 0x2029 || n == 0x202F || n == 0x205F ||
    n == 0x3000

def trimStartChars : List Char → List Char
  | [] => []
  | c :: rest => if isBlank c then trimStartChars rest else c :: rest

/-- Drops the blanks after the last other character. -/
def trimEndChars : List Char → List Char
  | [] => []
  | c :: rest =>
    match trimEndChars rest with
    | [] => if isBlank c then [] else [c]
    | kept => c :: kept

/-- The text without the blanks around it. -/
def trimChars (cs : List Char) : List Char :=
  trimEndChars (trimStartChars cs)

def trim (s : String) : String :=
  String.ofList (trimChars s.toList)

/-- The maximal runs of characters that are not blank. -/
def wordsChars : List Char → List (List Char)
  | [] => []
  | c :: rest =>
    if isBlank c then wordsChars rest
    else
      match rest with
      | [] => [[c]]
      | d :: _ =>
        if isBlank d then [c] :: wordsChars rest
        else
          match wordsChars rest with
          | [] => [[c]]
          | word :: more => (c :: word) :: more

def words (s : String) : List String :=
  (wordsChars s.toList).map String.ofList

end Gatehouse.Text
