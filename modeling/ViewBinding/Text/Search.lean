/-!
Occurrences of one text in another: finding, cutting and replacing.
-/
namespace ViewBinding.Text

/-- Where `needle` first occurs. -/
def find? (needle : List Char) : List Char → Option Nat
  | [] => if needle.isEmpty then some 0 else none
  | c :: rest =>
    if needle.isPrefixOf (c :: rest) then some 0 else (find? needle rest).map (· + 1)

/-- Where `needle` first occurs at or behind an index. -/
def findFrom? (needle text : List Char) (start : Nat) : Option Nat :=
  (find? needle (text.drop start)).map (· + start)

/-- The pieces of a text after its first `skip` characters. -/
def piecesAfter (separator : List Char) : Nat → List Char → List (List Char)
  | _, [] => [[]]
  | skip + 1, _ :: rest => piecesAfter separator skip rest
  | 0, c :: rest =>
    if separator.isPrefixOf (c :: rest) then
      [] :: piecesAfter separator (separator.length - 1) rest
    else
      match piecesAfter separator 0 rest with
      | piece :: pieces => (c :: piece) :: pieces
      | [] => [[c]]

/-- The pieces between the occurrences of a separator that is not empty. -/
def pieces (separator text : List Char) : List (List Char) := piecesAfter separator 0 text

def replaceFirst (pattern replacement text : List Char) : List Char :=
  match find? pattern text with
  | some i => text.take i ++ replacement ++ text.drop (i + pattern.length)
  | none => text

/-- Replaces every occurrence; the empty pattern occurs at both ends of every character. -/
def replaceAll (pattern replacement text : List Char) : List Char :=
  if pattern.isEmpty then replacement ++ text.flatMap fun c => c :: replacement
  else replacement.intercalate (pieces pattern text)

/-- The first `n` characters of a text that is repeated without end. -/
def cycleTake (text : List Char) (n : Nat) : List Char :=
  match text with
  | [] => []
  | _ => (List.replicate (n / text.length + 1) text).flatten.take n

end ViewBinding.Text
