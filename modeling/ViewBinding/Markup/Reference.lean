import ViewBinding.Text.Lookup

/-!
Character references, and the escapes that markup is written with.
-/
namespace ViewBinding.Markup

def namedReference? : String → Option Char
  | "amp" => some '&'
  | "lt" => some '<'
  | "gt" => some '>'
  | "quot" => some '"'
  | "apos" => some '\''
  | "nbsp" => some '\u00a0'
  | "copy" => some '©'
  | "reg" => some '®'
  | "trade" => some '™'
  | "euro" => some '€'
  | "hellip" => some '…'
  | "middot" => some '·'
  | "laquo" => some '«'
  | "raquo" => some '»'
  | "times" => some '×'
  | "divide" => some '÷'
  | _ => none

/-- The character of a decimal or hexadecimal number. -/
def numericReference? (digits : List Char) : Option Char :=
  let code := match digits with
    | 'x' :: hex | 'X' :: hex => Number.natBelow? 16 (Nat.pow 2 32) hex
    | _ => Number.natBelow? 10 (Nat.pow 2 32) digits
  code.bind Text.scalar?

/-- The character that stands for the name between an ampersand and a semicolon. -/
def reference? (name : List Char) : Option Char :=
  match name with
  | '#' :: digits => numericReference? digits
  | _ => namedReference? (String.ofList name)

/-- The name that follows an ampersand, if a semicolon ends it before the next ampersand. -/
def referenceName? (text : List Char) : Option (List Char) :=
  let name := text.takeWhile fun c => c != ';' && c != '&'
  if text[name.length]? = some ';' then some name else none

/-- Resolves the references behind the first `skip` characters. -/
def decodeAfter : Nat → List Char → List Char
  | _, [] => []
  | skip + 1, _ :: rest => decodeAfter skip rest
  | 0, c :: rest =>
    if c = '&' then
      match referenceName? rest with
      | some name =>
        match reference? name with
        | some decoded => decoded :: decodeAfter (name.length + 1) rest
        | none => c :: decodeAfter 0 rest
      | none => c :: decodeAfter 0 rest
    else c :: decodeAfter 0 rest

/-- Resolves character references; what is none stays as it is. -/
def decode (text : List Char) : List Char := decodeAfter 0 text

def escapeChar (c : Char) : List Char :=
  match c with
  | '&' => "&amp;".toList
  | '<' => "&lt;".toList
  | '>' => "&gt;".toList
  | _ => [c]

def escapeText (s : String) : String := String.ofList (s.toList.flatMap escapeChar)

/-- Inside double quotes a double quote is escaped as well. -/
def escapeAttribute (s : String) : String :=
  String.ofList (s.toList.flatMap fun c => if c = '"' then "&quot;".toList else escapeChar c)

end ViewBinding.Markup
