import ViewBinding.Selector.Basic
import ViewBinding.Text.Casing

/-!
Reading selectors. A text that is none has no further explanation.

Each function takes the characters that are left and returns what it read with the characters behind it.
-/
namespace ViewBinding.Selector

def isIdentChar (c : Char) : Bool := Text.isAsciiWord c || c == '_' || c == '-'

def isAttributeNameChar (c : Char) : Bool := isIdentChar c || c == ':' || c == '.'

/-- One or more characters of a class. -/
def takeSome? (p : Char → Bool) (s : List Char) : Option (String × List Char) :=
  let taken := s.takeWhile p
  if taken.isEmpty then none else some (String.ofList taken, s.dropWhile p)

def ident? (s : List Char) : Option (String × List Char) := takeSome? isIdentChar s

/-- A quoted value, or all up to a blank or the closing bracket. -/
def attributeValue? (s : List Char) : Option (String × List Char) :=
  match s with
  | [] => none
  | c :: rest =>
    if c = '"' ∨ c = '\'' then
      match rest.dropWhile (· != c) with
      | [] => none
      | _ :: left => some (String.ofList (rest.takeWhile (· != c)), left)
    else takeSome? (fun c => !Text.isAsciiBlank c && c != ']') s

def attributeOp? : List Char → Option (AttributeOp × List Char)
  | '=' :: rest => some (.equals, rest)
  | '^' :: '=' :: rest => some (.startsWith, rest)
  | '$' :: '=' :: rest => some (.endsWith, rest)
  | '*' :: '=' :: rest => some (.contains, rest)
  | '~' :: '=' :: rest => some (.word, rest)
  | _ => none

/-- A closing bracket, maybe after blanks. -/
def closeBracket? (s : List Char) : Option (List Char) :=
  match Text.skipBlank s with
  | ']' :: rest => some rest
  | _ => none

/-- A test of an attribute behind its opening bracket. -/
def attributeTest? (s : List Char) : Option (AttributeTest × List Char) := do
  let (name, s) ← takeSome? isAttributeNameChar (Text.skipBlank s)
  let name := Text.asciiLower name
  match closeBracket? s with
  | some rest => return (⟨name, none⟩, rest)
  | none =>
    let (op, s) ← attributeOp? (Text.skipBlank s)
    let (value, s) ← attributeValue? (Text.skipBlank s)
    let s ← closeBracket? s
    return (⟨name, some (op, value)⟩, s)

def state? : String → Option State
  | "first-child" => some .firstChild
  | "last-child" => some .lastChild
  | "checked" => some .checked
  | "disabled" => some .disabled
  | "enabled" => some .enabled
  | _ => none

/-- The tests behind a tag. A second id makes no selector. -/
def tests? : Nat → Compound → List Char → Option (Compound × List Char)
  | 0, _, _ => none
  | fuel + 1, compound, s =>
    match s with
    | '#' :: s => do
      let (id, s) ← ident? s
      if compound.id.isSome then none
      else tests? fuel { compound with id := some id } s
    | '.' :: s => do
      let (cls, s) ← ident? s
      tests? fuel { compound with classes := compound.classes ++ [cls] } s
    | '[' :: s => do
      let (test, s) ← attributeTest? s
      tests? fuel { compound with attributes := compound.attributes ++ [test] } s
    | ':' :: s => do
      let (name, s) ← ident? s
      let state ← state? name
      tests? fuel { compound with states := compound.states ++ [state] } s
    | _ => some (compound, s)

/-- A star or a tag, and tests; one of them has to be there. -/
def compound? (s : List Char) : Option (Compound × List Char) :=
  let (tag, rest) := match s with
    | '*' :: rest => (none, rest)
    | _ =>
      match ident? s with
      | some (tag, rest) => (some (Text.asciiLower tag), rest)
      | none => (none, s)
  match tests? (rest.length + 1) ⟨tag, none, [], [], []⟩ rest with
  | some (compound, left) => if left.length = s.length then none else some (compound, left)
  | none => none

/-- The combinator in front of the next compound; blanks alone stand for a descendant. -/
def combinator? (s : List Char) : Option (Option Combinator × List Char) :=
  let rest := Text.skipBlank s
  match rest with
  | [] => some (none, rest)
  | ',' :: _ => some (none, rest)
  | '>' :: rest => some (some .child, Text.skipBlank rest)
  | '+' :: rest => some (some .adjacent, Text.skipBlank rest)
  | '~' :: rest => some (some .sibling, Text.skipBlank rest)
  | _ => if rest.length < s.length then some (some .descendant, rest) else none

/-- The compounds that follow `subject`. -/
def complexFrom? : Nat → Complex → List Char → Option (Complex × List Char)
  | 0, _, _ => none
  | fuel + 1, complex, s => do
    let (link, s) ← combinator? s
    match link with
    | none => return (complex, s)
    | some combinator =>
      let (compound, s) ← compound? s
      complexFrom? fuel ⟨compound, (combinator, complex.subject) :: complex.chain⟩ s

def complex? (s : List Char) : Option (Complex × List Char) := do
  let (compound, s) ← compound? (Text.skipBlank s)
  complexFrom? (s.length + 1) ⟨compound, []⟩ s

/-- Groups between commas, up to the end. -/
def groups? : Nat → List Char → Option (List Complex)
  | 0, _ => none
  | fuel + 1, s => do
    let (complex, s) ← complex? s
    match s with
    | ',' :: s =>
      let rest ← groups? fuel s
      return complex :: rest
    | [] => return [complex]
    | _ => none

def parse? (s : String) : Option Selector := (groups? (s.length + 1) s.toList).map Selector.mk

end ViewBinding.Selector
