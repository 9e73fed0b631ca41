import ViewBinding.Text.Class.Table
import ViewBinding.Text.Lookup

/-!
Classes of characters. Of each class the ASCII part is written out, the rest comes from a table.
-/
namespace ViewBinding.Text

def isAscii (c : Char) : Bool := c.toNat < 128

def isAsciiLetter (c : Char) : Bool := ('a' ≤ c && c ≤ 'z') || ('A' ≤ c && c ≤ 'Z')

def isAsciiDigit (c : Char) : Bool := Number.isDigit c

def isAsciiWord (c : Char) : Bool := isAsciiLetter c || isAsciiDigit c

/-- Space, tab, line feed, form feed and carriage return. -/
def isAsciiBlank (c : Char) : Bool :=
  c == ' ' || c == '\t' || c == '\n' || c == '\x0c' || c == '\r'

def whiteSpace : Ranges := .ofTable Table.whiteSpace
def alphabetic : Ranges := .ofTable Table.alphabetic
def numeric : Ranges := .ofTable Table.numeric
def word : Ranges := .ofTable Table.word
def hidden : Ranges := .ofTable Table.hidden
def extending : Ranges := .ofTable Table.extending
def cased : Ranges := .ofTable Table.cased
def caseIgnorable : Ranges := .ofTable Table.caseIgnorable

/-- White space, the vertical tab included. -/
def isBlank (c : Char) : Bool :=
  if isAscii c then isAsciiBlank c || c == '\x0b' else whiteSpace.contains c

def isAlphabetic (c : Char) : Bool :=
  if isAscii c then isAsciiLetter c else alphabetic.contains c

def isAlphanumeric (c : Char) : Bool :=
  if isAscii c then isAsciiWord c else alphabetic.contains c || numeric.contains c

/-- Characters of words: letters, marks, decimal digits, connectors and joiners. -/
def isWord (c : Char) : Bool :=
  if isAscii c then isAsciiWord c || c == '_' else word.contains c

/-- Characters that a message shows as they are. -/
def isShown (c : Char) : Bool :=
  if isAscii c then ' ' ≤ c && c ≤ '~' else !(hidden.contains c || extending.contains c)

def isCased (c : Char) : Bool :=
  if isAscii c then isAsciiLetter c else cased.contains c

def isCaseIgnorable (c : Char) : Bool := caseIgnorable.contains c

def trimStart (p : Char → Bool) (text : List Char) : List Char := text.dropWhile p

def trimEnd (p : Char → Bool) (text : List Char) : List Char := (text.reverse.dropWhile p).reverse

/-- Without the blanks of ASCII in front. -/
def skipBlank (text : List Char) : List Char := trimStart isAsciiBlank text

/-- Without the characters of a class at both ends. -/
def trimBy (p : Char → Bool) (text : List Char) : List Char := trimEnd p (trimStart p text)

/-- Without white space at both ends. -/
def trim (text : List Char) : List Char := trimBy isBlank text

end ViewBinding.Text

namespace ViewBinding

/-- Without white space at both ends. -/
def trimmed (s : String) : String := String.ofList (Text.trim s.toList)

end ViewBinding
