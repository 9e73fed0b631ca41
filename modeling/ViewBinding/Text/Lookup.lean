import ViewBinding.Number.Reader

/-!
Properties and mappings of code points, read from the text of a table.
-/
namespace ViewBinding.Text

/-- The pieces between separating characters, empty ones included. -/
def splitOn (separator : Char → Bool) : List Char → List (List Char)
  | [] => [[]]
  | c :: rest =>
    if separator c then [] :: splitOn separator rest
    else
      match splitOn separator rest with
      | piece :: pieces => (c :: piece) :: pieces
      | [] => [[c]]

/-- The pieces between separating characters that are not empty. -/
def words (separator : Char → Bool) (text : List Char) : List (List Char) :=
  (splitOn separator text).filter (!·.isEmpty)

/-- The entries of a table stand between spaces and line ends. -/
def tableEntries (table : List Char) : List (List Char) := words (fun c => c == ' ' || c == '\n') table

def hexValue (digits : List Char) : Nat := Number.digitsValue 16 digits

/-- The character with a code point, unless it is a surrogate or out of range. -/
def scalar? (n : Nat) : Option Char := if h : n.isValidChar then some (Char.ofNatAux n h) else none

/-- Closed ranges of code points. -/
structure Ranges where
  entries : Array (Nat × Nat)

/-- Reads `first-last` and single code points. -/
def Ranges.ofChars (table : List Char) : Ranges :=
  ⟨((tableEntries table).map fun entry =>
    match splitOn (· == '-') entry with
    | [first, last] => (hexValue first, hexValue last)
    | _ => (hexValue entry, hexValue entry)).toArray⟩

def Ranges.ofTable (table : String) : Ranges := .ofChars table.toList

def Ranges.contains (ranges : Ranges) (c : Char) : Bool :=
  ranges.entries.any fun (first, last) => first ≤ c.toNat && c.toNat ≤ last

/-- What some code points are mapped to. -/
structure Mapping where
  entries : Array (Nat × List Char)

/-- Reads `from=to,…`. -/
def Mapping.ofTable (table : String) : Mapping :=
  ⟨((tableEntries table.toList).map fun entry =>
    match splitOn (· == '=') entry with
    | [key, image] => (hexValue key, (splitOn (· == ',') image).map fun c => Char.ofNat (hexValue c))
    | _ => (0, [])).toArray⟩

def Mapping.find? (mapping : Mapping) (c : Char) : Option (List Char) :=
  (mapping.entries.find? fun entry => entry.1 == c.toNat).map (·.2)

end ViewBinding.Text
