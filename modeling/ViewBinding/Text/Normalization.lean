import ViewBinding.Text.Normalization.Table
import ViewBinding.Text.Lookup

/-!
The four normalization forms: decompose, put marks into canonical order, and compose again.
-/
namespace ViewBinding.Text

inductive NormalForm where
  | nfc | nfd | nfkc | nfkd
  deriving Repr, DecidableEq

def NormalForm.ofName? : String → Option NormalForm
  | "NFC" => some .nfc
  | "NFD" => some .nfd
  | "NFKC" => some .nfkc
  | "NFKD" => some .nfkd
  | _ => none

def NormalForm.isCompatibility : NormalForm → Bool
  | .nfkc | .nfkd => true
  | _ => false

def NormalForm.isComposed : NormalForm → Bool
  | .nfc | .nfkc => true
  | _ => false

def canonicalMapping : Mapping := .ofTable Table.canonical
def compatibilityMapping : Mapping := .ofTable Table.compatibility

/-- First and second code point of a composite, and the composite. -/
def composites : Array (Nat × Nat × Char) :=
  ((tableEntries Table.composites.toList).map fun entry =>
    match splitOn (fun c => c == ',' || c == '=') entry with
    | [first, second, whole] => (hexValue first, hexValue second, Char.ofNat (hexValue whole))
    | _ => (0, 0, ' ')).toArray

/-- First and last code point of a range, and their class. -/
def combiningClasses : Array (Nat × Nat × Nat) :=
  ((tableEntries Table.combiningClasses.toList).map fun entry =>
    match splitOn (fun c => c == '-' || c == '=') entry with
    | [first, last, cls] => (hexValue first, hexValue last, Number.digitsValue 10 cls)
    | _ => (0, 0, 0)).toArray

/-- Zero for the characters that start a sequence. -/
def combiningClass (c : Char) : Nat :=
  let n := c.toNat
  if n < 0x300 then 0
  else ((combiningClasses.find? fun (first, last, _) => first ≤ n && n ≤ last).map (·.2.2)).getD 0

/-- Syllables are numbered by lead consonant, vowel and trailing consonant. -/
def decomposeSyllable? (c : Char) : Option (List Char) :=
  let n := c.toNat
  if 0xac00 ≤ n ∧ n ≤ 0xd7a3 then
    let index := n - 0xac00
    let parts := [Char.ofNat (0x1100 + index / 588), Char.ofNat (0x1161 + index % 588 / 28)]
    some (if index % 28 = 0 then parts else parts ++ [Char.ofNat (0x11a7 + index % 28)])
  else none

def composeSyllable? (a b : Char) : Option Char :=
  let l := a.toNat
  let r := b.toNat
  if 0x1100 ≤ l ∧ l < 0x1113 ∧ 0x1161 ≤ r ∧ r < 0x1176 then
    some (Char.ofNat (0xac00 + ((l - 0x1100) * 21 + (r - 0x1161)) * 28))
  else if 0xac00 ≤ l ∧ l ≤ 0xd7a3 ∧ (l - 0xac00) % 28 = 0 ∧ 0x11a7 < r ∧ r < 0x11c3 then
    some (Char.ofNat (l + (r - 0x11a7)))
  else none

def decomposeChar (compatible : Bool) (c : Char) : List Char :=
  if c.toNat < 128 then [c]
  else
    match decomposeSyllable? c with
    | some parts => parts
    | none =>
      ((if compatible then compatibilityMapping.find? c else none).or
        (canonicalMapping.find? c)).getD [c]

def compose? (a b : Char) : Option Char :=
  (composeSyllable? a b).or
    ((composites.find? fun (first, second, _) => first == a.toNat && second == b.toNat).map (·.2.2))

/-- Marks by class, and in their old order within a class. -/
def orderedMarks (marks : List Char) : List Char :=
  marks.mergeSort fun a b => combiningClass a ≤ combiningClass b

/-- Orders each run of marks; `marks` are those of the present run so far, the last one first. -/
def orderFrom (marks : List Char) : List Char → List Char
  | [] => orderedMarks marks.reverse
  | c :: rest =>
    if combiningClass c = 0 then orderedMarks marks.reverse ++ c :: orderFrom [] rest
    else orderFrom (c :: marks) rest

def canonicalOrder (text : List Char) : List Char := orderFrom [] text

/-- `starter` may still take up marks; `marks` are those that it did not, the last one first. -/
def composeFrom (starter : Option Char) (marks : List Char) : List Char → List Char
  | [] => starter.toList ++ marks.reverse
  | c :: rest =>
    let blocked : Bool := match marks with
      | last :: _ => combiningClass c ≤ combiningClass last
      | [] => false
    match if blocked then none else starter.bind (compose? · c) with
    | some whole => composeFrom (some whole) marks rest
    | none =>
      if combiningClass c = 0 then starter.toList ++ marks.reverse ++ composeFrom (some c) [] rest
      else composeFrom starter (c :: marks) rest

def normalize (form : NormalForm) (s : String) : String :=
  let ordered := canonicalOrder (s.toList.flatMap (decomposeChar form.isCompatibility))
  String.ofList (if form.isComposed then composeFrom none [] ordered else ordered)

end ViewBinding.Text
