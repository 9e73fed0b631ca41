import ViewBinding.Text.Casing.Table
import ViewBinding.Text.Class

/-!
Full case mapping. One letter may become several, and the small sigma has a form for the end of a word.
-/
namespace ViewBinding.Text

def upperCase : Mapping := .ofTable Table.upperCase
def lowerCase : Mapping := .ofTable Table.lowerCase

def upperChar (c : Char) : List Char :=
  if isAscii c then [c.toUpper] else (upperCase.find? c).getD [c]

def lowerChar (c : Char) : List Char :=
  if isAscii c then [c.toLower] else (lowerCase.find? c).getD [c]

def upper (s : String) : String := String.ofList (s.toList.flatMap upperChar)

/-- Whether the next letter that counts has a case. -/
def meetsCased (text : List Char) : Bool :=
  match text.dropWhile isCaseIgnorable with
  | c :: _ => isCased c
  | [] => false

/-- The small form of a text; `before` is what precedes it, the nearest character first. -/
def lowerAfter (before : List Char) : List Char → List Char
  | [] => []
  | c :: rest =>
    let image :=
      if c == 'Σ' then [if meetsCased before && !meetsCased rest then 'ς' else 'σ'] else lowerChar c
    image ++ lowerAfter (c :: before) rest

def lower (s : String) : String := String.ofList (lowerAfter [] s.toList)

/-- The small form of the ASCII letters alone. -/
def asciiLower (s : String) : String := s.map Char.toLower

end ViewBinding.Text
