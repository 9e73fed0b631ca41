/-!
Cutting a text at separators outside quotes and brackets.

A backslash takes the character after it out of play. Quotes end at the same quote, and a closing bracket
too many is passed over.
-/
namespace ViewBinding.Binding

def isQuote (c : Char) : Bool := c == '\'' || c == '"' || c == '\x60'

def isOpening (c : Char) : Bool := c == '(' || c == '[' || c == '\x7b'

def isClosing (c : Char) : Bool := c == ')' || c == ']' || c == '\x7d'

/-- Where a scan stands: an open quote, the number of open brackets, and a backslash just before. -/
structure Nesting where
  quote : Option Char
  depth : Nat
  escaped : Bool
  deriving Repr, DecidableEq

namespace Nesting

def start : Nesting := ⟨none, 0, false⟩

def step (s : Nesting) (c : Char) : Nesting :=
  if s.escaped then { s with escaped := false }
  else if c = '\\' then { s with escaped := true }
  else
    match s.quote with
    | some q => if c = q then { s with quote := none } else s
    | none =>
      if isQuote c then { s with quote := some c }
      else if isOpening c then { s with depth := s.depth + 1 }
      else if isClosing c then { s with depth := s.depth - 1 }
      else s

/-- The state after a whole text. -/
def after (s : Nesting) (text : List Char) : Nesting := text.foldl step s

end Nesting

/-- Puts a character in front of the first part. -/
def consHead (c : Char) : List (List Char) → List (List Char)
  | part :: parts => (c :: part) :: parts
  | [] => [[c]]

/-- The parts of a text whose first `skip` characters belong to a separator. -/
def splitFrom (separator : List Char) : Nat → Nesting → List Char → List (List Char)
  | _, _, [] => [[]]
  | skip + 1, s, _ :: rest => splitFrom separator skip s rest
  | 0, s, c :: rest =>
    if s = .start ∧ separator.isPrefixOf (c :: rest) then
      [] :: splitFrom separator (separator.length - 1) s rest
    else consHead c (splitFrom separator 0 (s.step c) rest)

/-- The parts between separators that stand outside quotes and brackets. Escapes stay as they are. -/
def splitTopLevel (separator text : List Char) : List (List Char) :=
  splitFrom separator 0 .start text

/-- The open quote after one more character. -/
def quoteAfter (quote : Option Char) (c : Char) : Option Char :=
  match quote with
  | some q => if c = q then none else quote
  | none => if isQuote c then some c else none

def isEscapable (c : Char) : Bool := c == ',' || c == ':' || c == '\\'

def unescapeFrom (quote : Option Char) : List Char → List Char
  | [] => []
  | '\\' :: c :: rest =>
    if quote.isNone && isEscapable c then c :: unescapeFrom quote rest
    else '\\' :: c :: unescapeFrom quote rest
  | c :: rest => c :: unescapeFrom (quoteAfter quote c) rest

/-- Drops the backslash before a comma, a colon or a backslash, but not inside quotes. -/
def unescape (field : List Char) : List Char := unescapeFrom none field

end ViewBinding.Binding
