import ViewBinding.Expr.Token
import ViewBinding.Number.Reader

/-!
Cutting a text into tokens. White space between tokens is dropped, and the last token marks the end.
-/
namespace ViewBinding.Expr

/-- A place in a text: the bytes before it and the characters after it. -/
structure Cursor where
  pos : Nat
  rest : List Char

namespace Cursor

def ofString (s : String) : Cursor := ⟨0, s.toList⟩

def byteSize (text : List Char) : Nat := text.foldl (fun n c => n + c.utf8Size) 0

def next? (cur : Cursor) : Option (Char × Cursor) :=
  match cur.rest with
  | [] => none
  | c :: rest => some (c, ⟨cur.pos + c.utf8Size, rest⟩)

def peek? (cur : Cursor) : Option Char := cur.rest.head?

def drop (n : Nat) (cur : Cursor) : Cursor :=
  ⟨cur.pos + byteSize (cur.rest.take n), cur.rest.drop n⟩

/-- The leading characters of a class, and the place after them. -/
def span (p : Char → Bool) (cur : Cursor) : List Char × Cursor :=
  let taken := cur.rest.takeWhile p
  (taken, ⟨cur.pos + byteSize taken, cur.rest.dropWhile p⟩)

def startsWith (cur : Cursor) (text : String) : Bool := text.toList.isPrefixOf cur.rest

def nextIs (cur : Cursor) (p : Char → Bool) : Bool := cur.peek?.any p

/-- The characters between two places. -/
def upTo (start stop : Cursor) : List Char :=
  start.rest.take (start.rest.length - stop.rest.length)

end Cursor

def backtick : Char := '\x60'

def isIdentStart (c : Char) : Bool := c == '_' || c == '$' || Text.isAlphabetic c

def isIdentContinue (c : Char) : Bool := c == '_' || c == '$' || Text.isAlphanumeric c

/-- The character with a code point below `2 ^ 32` that is no surrogate. -/
def codePoint? (digits : List Char) : Option Char :=
  (Number.natBelow? 16 (Nat.pow 2 32) digits).bind Text.scalar?

def codePointAt (pos : Nat) (digits : List Char) : Except ParseError Char :=
  match codePoint? digits with
  | some c => .ok c
  | none => .error (.invalidCodePoint pos)

/-- An escape of exactly `count` digits. -/
def hexEscape (count : Nat) (cur : Cursor) : Except ParseError (Char × Cursor) := do
  let digits := cur.rest.take count
  if digits.length < count || !digits.all Number.isHexDigit then
    throw (.invalidHexEscape cur.pos)
  let c ← codePointAt cur.pos digits
  return (c, cur.drop count)

/-- An escape of any number of digits, after its opening brace. -/
def bracedEscape (pos : Nat) (cur : Cursor) : Except ParseError (Char × Cursor) := do
  let (digits, cur) := cur.span Number.isHexDigit
  match cur.next? with
  | some ('\x7d', cur) =>
    let c ← codePointAt pos digits
    return (c, cur)
  | _ => throw (.invalidUnicodeEscape pos)

/-- What follows a backslash. An unknown escape stands for its own character. -/
def escape (cur : Cursor) : Except ParseError (Char × Cursor) :=
  match cur.next? with
  | none => .error (.danglingEscape cur.pos)
  | some (c, next) =>
    match c with
    | 'n' => .ok ('\n', next)
    | 't' => .ok ('\t', next)
    | 'r' => .ok ('\r', next)
    | '0' => .ok ('\x00', next)
    | 'b' => .ok ('\x08', next)
    | 'f' => .ok ('\x0c', next)
    | 'v' => .ok ('\x0b', next)
    | 'x' => hexEscape 2 next
    | 'u' =>
      match next.next? with
      | some ('\x7b', inner) => bracedEscape cur.pos inner
      | _ => hexEscape 4 next
    | _ => .ok (c, next)

/-- A string after its opening quote; `start` is the place of that quote. -/
def stringBody (quote : Char) (start : Nat) : Nat → Cursor → Except ParseError (List Char × Cursor)
  | 0, _ => .error (.unterminatedString start)
  | fuel + 1, cur =>
    match cur.next? with
    | none => .error (.unterminatedString start)
    | some (c, cur) =>
      if c = quote then .ok ([], cur)
      else do
        let (c, cur) ← if c = '\\' then escape cur else .ok (c, cur)
        let (text, cur) ← stringBody quote start fuel cur
        return (c :: text, cur)

/-- A string from its opening quote. -/
def stringToken (quote : Char) (cur : Cursor) : Except ParseError (List Char × Cursor) :=
  stringBody quote cur.pos cur.rest.length (cur.drop 1)

/-- Puts a character in front of a template. -/
def consText (c : Char) : List TemplatePart → List TemplatePart
  | .text text :: parts => .text (c :: text) :: parts
  | parts => .text [c] :: parts

mutual

/-- A template after its opening backtick; `start` is the place of that backtick. -/
def templateBody (start : Nat) : Nat → Cursor → Except ParseError (List TemplatePart × Cursor)
  | 0, _ => .error (.unterminatedTemplate start)
  | fuel + 1, cur =>
    match cur.next? with
    | none => .error (.unterminatedTemplate start)
    | some (c, next) =>
      if c = backtick then .ok ([], next)
      else if c = '\\' then do
        let (c, next) ← escape next
        let (parts, next) ← templateBody start fuel next
        return (consText c parts, next)
      else if c = '$' ∧ next.peek? = some '\x7b' then do
        let inner := next.drop 1
        let stop ← substitutionEnd inner.pos 0 fuel inner
        let (parts, next) ← templateBody start fuel (stop.drop 1)
        return (.source (inner.upTo stop) :: parts, next)
      else do
        let (parts, next) ← templateBody start fuel next
        return (consText c parts, next)

/-- The place of the brace that closes a substitution. Strings and templates inside are passed over. -/
def substitutionEnd (start depth : Nat) : Nat → Cursor → Except ParseError Cursor
  | 0, _ => .error (.unterminatedSubstitution start)
  | fuel + 1, cur =>
    match cur.next? with
    | none => .error (.unterminatedSubstitution start)
    | some (c, next) =>
      if c = '\'' ∨ c = '"' then do
        let (_, next) ← stringToken c cur
        substitutionEnd start depth fuel next
      else if c = backtick then do
        let (_, next) ← templateBody cur.pos fuel next
        substitutionEnd start depth fuel next
      else if c = '\x7b' then substitutionEnd start (depth + 1) fuel next
      else if c = '\x7d' then
        match depth with
        | 0 => .ok cur
        | depth + 1 => substitutionEnd start depth fuel next
      else substitutionEnd start depth fuel next

end

/-- A template from its opening backtick. -/
def templateToken (cur : Cursor) : Except ParseError (List TemplatePart × Cursor) :=
  templateBody cur.pos cur.rest.length (cur.drop 1)

/-- The exponent of a number, if digits follow its mark. -/
def skipExponent (cur : Cursor) : Cursor :=
  match cur.next? with
  | some (c, next) =>
    if c == 'e' || c == 'E' then
      let digits := if next.nextIs (fun c => c == '+' || c == '-') then next.drop 1 else next
      if digits.nextIs Number.isDigit then (digits.span Number.isDigit).2 else cur
    else cur
  | none => cur

/-- The place after the digits, the point and the exponent of a number. -/
def skipDecimal (cur : Cursor) : Cursor :=
  let cur := (cur.span Number.isDigit).2
  skipExponent (if cur.peek? = some '.' then ((cur.drop 1).span Number.isDigit).2 else cur)

def numberToken (start : Cursor) : Except ParseError (Float × Cursor) :=
  if start.startsWith "0x" || start.startsWith "0X" then
    let (digits, cur) := (start.drop 2).span Number.isHexDigit
    match Number.natBelow? 16 (Nat.pow 2 64) digits with
    | some n => .ok (Number.ofNat n, cur)
    | none => .error (.invalidHexLiteral start.pos)
  else
    let cur := skipDecimal start
    if cur.nextIs isIdentStart then .error (.identifierAfterNumber cur.pos)
    else
      match Number.decimal? (start.upTo cur) with
      | some value => .ok (value, cur)
      | none => .error (.invalidNumber start.pos)

/-- Punctuators, the longer ones before their beginnings. -/
def punctuators : List Punctuator :=
  [.strictEq, .strictNe, .eq, .ne, .le, .ge, .and, .or, .nullish,
   .lparen, .rparen, .lbracket, .rbracket, .lbrace, .rbrace, .comma, .dot, .question, .colon,
   .not, .plus, .minus, .star, .slash, .percent, .lt, .gt, .assign]

/-- A question mark and a point join, unless a digit follows. -/
def optionalDot? (cur : Cursor) : Option Punctuator :=
  if cur.startsWith "?." && !(cur.drop 2).nextIs Number.isDigit then some .optionalDot else none

def punctuator? (cur : Cursor) : Option Punctuator :=
  (optionalDot? cur).or (punctuators.find? fun mark => cur.startsWith mark.text)

/-- The token at a place that starts with `c`. -/
def tokenAt (c : Char) (cur : Cursor) : Except ParseError (Token × Cursor) :=
  if Number.isDigit c || (c == '.' && (cur.drop 1).nextIs Number.isDigit) then
    return (← numberToken cur).map Token.number id
  else if c == '\'' || c == '"' then
    return (← stringToken c cur).map (fun text => Token.string (String.ofList text)) id
  else if c == backtick then
    return (← templateToken cur).map Token.template id
  else if isIdentStart c then
    return (cur.span isIdentContinue).map (fun name => Token.ident (String.ofList name)) id
  else
    match punctuator? cur with
    | some mark => .ok (.punct mark, cur.drop mark.text.length)
    | none => .error (.unexpectedCharacter c cur.pos)

/-- The tokens from a place on. -/
def tokensFrom : Nat → Cursor → Except ParseError (List Located)
  | 0, cur => .ok [⟨.eof, cur.pos⟩]
  | fuel + 1, cur =>
    let cur := (cur.span Text.isBlank).2
    match cur.peek? with
    | none => .ok [⟨.eof, cur.pos⟩]
    | some c => do
      let (token, next) ← tokenAt c cur
      let tokens ← tokensFrom fuel next
      return ⟨token, cur.pos⟩ :: tokens

/-- The tokens of a text; every token takes at least one character. -/
def tokens (s : String) : Except ParseError (List Located) :=
  tokensFrom (s.length + 1) (.ofString s)

end ViewBinding.Expr
