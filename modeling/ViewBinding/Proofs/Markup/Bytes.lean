import Mathlib.Tactic
import ViewBinding.Markup.Piece

/-!
Reading markup by byte positions. A reader stands at a position of a text and goes through it; to look at the text it cuts it
there. Neither a place within a character nor one behind the end is a place to cut, and a reader that goes to one, or cuts
there, halts. It halts as well where a loop would go on from the place where it is already.
-/
namespace ViewBinding.Markup.Bytes

/-- How many bytes a text has. -/
def bytes (text : List Char) : Nat := (text.map Char.utf8Size).sum

/-- The text before a number of bytes and the text after them, if no character is cut in two. -/
def cut? : List Char → Nat → Option (List Char × List Char)
  | s, 0 => some ([], s)
  | [], _ + 1 => none
  | c :: s, n + 1 =>
    if c.utf8Size ≤ n + 1 then (cut? s (n + 1 - c.utf8Size)).map fun (before, after) => (c :: before, after) else none

inductive Halt where
  | offBoundary
  | stuck
  | failed (e : ParseError)
  deriving Repr, DecidableEq

/-- Steps from position to position. -/
abbrev Reader := StateT Nat (Except Halt)

def fail {α : Type} (e : ParseError) : Reader α := throw (.failed e)

def orHalt {α : Type} : Option α → Reader α
  | some a => return a
  | none => throw .offBoundary

section

variable (text : List Char)

def rest : Reader (List Char) := do return (← orHalt (cut? text (← get))).2

/-- Goes on by a number of bytes, to where the text can be cut. -/
def advance (n : Nat) : Reader Unit := do
  modify (· + n)
  let _ ← rest text

/-- The text between two positions. -/
def slice (start stop : Nat) : Reader (List Char) := do
  let (_, after) ← orHalt (cut? text start)
  return (← orHalt (if start ≤ stop then cut? after (stop - start) else none)).1

def peek : Reader (Option Char) := do return (← rest text).head?

def bump : Reader (Option Char) := do
  match ← peek text with
  | none => return none
  | some c => do
    advance text c.utf8Size
    return some c

/-- A round of a loop goes on with a state, or it ends the loop. One that goes on has to end behind the place where it starts. -/
def loop {σ α : Type} (round : σ → Reader (σ ⊕ α)) (s : σ) (pos : Nat) : Except Halt (α × Nat) :=
  match round s pos with
  | .error e => .error e
  | .ok (.inr a, pos') => .ok (a, pos')
  | .ok (.inl s', pos') => if pos < pos' ∧ pos' ≤ bytes text then loop round s' pos' else .error .stuck
termination_by bytes text - pos

def skipRound (width : Char → Nat) (fit : Char → List Char → Bool) : Reader (Unit ⊕ Unit) := do
  match ← rest text with
  | [] => return .inr ()
  | c :: more =>
    if fit c more then do
      advance text (width c)
      return .inl ()
    else return .inr ()

/-- Goes over characters, each as wide as it is said to be, as long as they and what follows them are fit. -/
def skip (width : Char → Nat) (fit : Char → List Char → Bool) : Reader Unit :=
  loop text (fun _ => skipRound text width fit) ()

/-- Blanks are one byte wide. -/
def skipBlank : Reader Unit := skip text (fun _ => 1) fun c _ => Text.isAsciiBlank c

def takeFit (fit : Char → List Char → Bool) : Reader (List Char) := do
  let start ← get
  skip text Char.utf8Size fit
  slice text start (← get)

def takeWhile (accept : Char → Bool) : Reader (List Char) := takeFit text fun c _ => accept c

/-- Whether a value without quotes, or stray characters, go on. -/
def staysUnquoted (c : Char) (more : List Char) : Bool :=
  !(Text.isAsciiBlank c || c == '>' || (c == '/' && more.head? == some '>'))

def endTag : Reader String := do
  advance text 2
  skipBlank text
  let name := lowered (← takeWhile text isNameChar)
  let _ ← takeWhile text (· != '>')
  match ← bump text with
  | none => fail (.unclosedEndTag name)
  | some _ => return name

/-- What a character in a declaration comes to, inside quotes or not. -/
def pastChar : Option Char → Char → Option Char ⊕ Unit
  | some q, c => .inl (if c = q then none else some q)
  | none, c => if c = '"' ∨ c = '\'' then .inl (some c) else if c = '>' then .inr () else .inl none

def declarationRound (quote : Option Char) : Reader (Option Char ⊕ Unit) := do
  match ← bump text with
  | none => fail .unclosedDeclaration
  | some c => return pastChar quote c

/-- What follows `<!`, up to a bracket that is not inside quotes. -/
def declaration : Reader Unit := loop text (declarationRound text) none

def attributeValue : Reader (List Char) := do
  match ← peek text with
  | none => fail .missingValue
  | some c =>
    if c = '"' ∨ c = '\'' then do
      advance text 1
      let body ← takeWhile text (· != c)
      match ← bump text with
      | none => fail .unclosedValue
      | some _ => return decode body
    else return decode (← takeFit text staysUnquoted)

/-- An attribute, or else stray characters. -/
def oneAttribute : Reader (Option (String × String)) := do
  let name ← takeWhile text isAttributeChar
  if name.isEmpty then do
    skip text Char.utf8Size staysUnquoted
    return none
  else do
    skipBlank text
    if (← peek text) = some '=' then do
      advance text 1
      skipBlank text
      let value ← attributeValue text
      return some (lowered name, String.ofList value)
    else return some (lowered name, "")

/-- One round in a start tag: what `oneAttribute` finds, or else the end of the tag and whether a slash stands there. -/
def attributeStep (tag : String) : Reader (Option (String × String) ⊕ Bool) := do
  skipBlank text
  let here ← rest text
  if here.isEmpty then fail (.unclosedStartTag tag)
  else if ['>'].isPrefixOf here then do
    advance text 1
    return .inr false
  else if ['/', '>'].isPrefixOf here then do
    advance text 2
    return .inr true
  else return .inl (← oneAttribute text)

def attributesRound (tag : String) (found : List (String × String)) :
    Reader (List (String × String) ⊕ List (String × String) × Bool) := do
  match ← attributeStep text tag with
  | .inr selfClosing => return .inr (found, selfClosing)
  | .inl more => return .inl (found ++ more.toList)

/-- The attributes up to the end of a start tag, and whether a slash stands there. -/
def attributes (tag : String) : Reader (List (String × String) × Bool) := loop text (attributesRound text tag) []

def startTag : Reader StartTag := do
  let _ ← bump text
  let name := lowered (← takeWhile text isNameChar)
  if name.isEmpty then fail (.described "empty tag name")
  else do
    let (attrs, selfClosing) ← attributes text name
    return ⟨name, .ofList attrs, selfClosing⟩

/-- The byte offsets at which `</` stands in a text, which starts at an offset itself. -/
def slashes : Nat → List Char → List Nat
  | _, [] => []
  | offset, c :: more =>
    (if c = '<' ∧ more.head? = some '/' then [offset] else []) ++ slashes (offset + c.utf8Size) more

/-- Whether the end tag of an element starts at an offset, however its name is spelled. -/
def endsAt (name : String) (body : List Char) (offset : Nat) : Reader Bool := do
  let (_, candidate) ← orHalt (cut? body (offset + 2))
  match cut? (Text.skipBlank candidate) name.utf8ByteSize with
  | none => return false
  | some (head, after) => return lowered head == lowered name.toList && !after.head?.any Text.isAsciiWord

def rawEnd? (name : String) (body : List Char) : List Nat → Reader (Option Nat)
  | [] => return none
  | offset :: more => do
    if ← endsAt name body offset then return some offset else rawEnd? name body more

/-- Raw text and the end tag behind it. -/
def rawBody (name : String) : Reader String := do
  let body ← rest text
  match ← rawEnd? name body (slashes 0 body) with
  | none => fail (.unclosedElement name)
  | some close => do
    let (found, _) ← orHalt (cut? body close)
    advance text close
    let _ ← endTag text
    return String.ofList (if isVerbatim name then found else decode found)

def element : Reader Piece := do
  let tag ← startTag text
  if isRawText tag.name && !tag.selfClosing then return .raw tag (← rawBody text tag.name)
  else return .start tag

/-- The byte offset at which a part first occurs. -/
def find? (part body : List Char) : Option Nat := (Text.find? part body).map fun i => bytes (body.take i)

def comment : Reader Unit := do
  match find? "-->".toList ((← rest text).drop 4) with
  | none => fail .unclosedComment
  | some close => advance text (4 + close + 3)

/-- A text up to the next bracket. The character that it starts with may be a bracket itself. -/
def plain : Reader Piece := do
  let start ← get
  let _ ← bump text
  let _ ← takeWhile text (· != '<')
  return .text (String.ofList (decode (← slice text start (← get))))

/-- One round of the reader: a piece, or something that is dropped. -/
def step : Reader (Option Piece) := do
  let here ← rest text
  if ['<', '!', '-', '-'].isPrefixOf here then do
    comment text
    return none
  else if ['<', '/'].isPrefixOf here then return some (.stop (← endTag text))
  else if ['<', '!'].isPrefixOf here then do
    advance text 2
    declaration text
    return none
  else if here.head? = some '<' ∧ here.tail.head?.any Text.isAsciiLetter then return some (← element text)
  else return some (← plain text)

def piecesRound (found : List Piece) : Reader (List Piece ⊕ List Piece) := do
  if (← get) < bytes text then do
    let more ← step text
    return .inl (found ++ more.toList)
  else return .inr found

/-- The pieces up to the end of the text. -/
def pieces : Reader (List Piece) := loop text (piecesRound text) []

end

end ViewBinding.Markup.Bytes
