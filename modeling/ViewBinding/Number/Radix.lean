import ViewBinding.Number.Decimal
import ViewBinding.Number.Reader

/-!
Whole numbers in bases up to 36, and the numbers that a text begins with.
-/
namespace ViewBinding.Number

/-- A whole number in a base from 2 to 36; from `2 ^ 128` upward the decimal text is shown. -/
def radixText (base : Nat) (x : Float) : String :=
  match decode x with
  | .finite negative m e =>
    let n := wholePart m e
    if n < Nat.pow 2 128 then
      if n = 0 then "0" else signed negative (radixDigits n)
    else text x
  | _ => text x
where
  /-- Most significant digit first; no digits at all for zero. -/
  radixDigits (n : Nat) : List Char := (go n n []).map letter
  letter (d : Nat) : Char :=
    if d < 10 then Char.ofNat ('0'.toNat + d) else Char.ofNat ('a'.toNat + (d - 10))
  go : Nat → Nat → List Nat → List Nat
    | 0, _, digits => digits
    | fuel + 1, n, digits => if n = 0 then digits else go fuel (n / base) (n % base :: digits)

/-- The value of leading digits, each one multiplied in as a double. -/
def accumulate (base : Nat) (digits : List Nat) : Float :=
  digits.foldl (fun value d => value * ofNat base + ofNat d) 0

/-- The digits that a text begins with. -/
def leadingDigits (base : Nat) : List Char → List Nat
  | [] => []
  | c :: rest =>
    match digit? base c with
    | some d => d :: leadingDigits base rest
    | none => []

/-- Drops the mark of a hexadecimal number. -/
def stripHexMark? : List Char → Option (List Char)
  | '0' :: 'x' :: rest => some rest
  | '0' :: 'X' :: rest => some rest
  | _ => none

/--
The whole number that a text without leading blanks begins with. Base 0 stands for ten, or for sixteen
after the hexadecimal mark, which base 16 skips as well.
-/
def leadingInteger (base : Nat) (text : List Char) : Float :=
  let (negative, text) := match text with
    | '-' :: rest => (true, rest)
    | '+' :: rest => (false, rest)
    | _ => (false, text)
  let (base, text) := match if base = 0 ∨ base = 16 then stripHexMark? text else none with
    | some rest => (16, rest)
    | none => (if base = 0 then 10 else base, text)
  if base < 2 ∨ 36 < base then nan
  else
    match leadingDigits base text with
    | [] => nan
    | digits => (if negative then -1 else 1) * accumulate base digits

/-- How far the run of characters that can belong to a decimal has come. -/
structure DecimalRun where
  started : Bool
  digit : Bool
  point : Bool
  mark : Bool
  /-- The character before is the mark of an exponent. -/
  afterMark : Bool

/-- The next state of the run, unless the character ends it. -/
def DecimalRun.step? (run : DecimalRun) (c : Char) : Option DecimalRun :=
  if isDigit c then some { run with started := true, digit := true, afterMark := false }
  else if c == '+' || c == '-' then
    if !run.started || run.afterMark then some { run with started := true, afterMark := false } else none
  else if c == '.' then
    if run.point || run.mark then none else some { run with started := true, point := true }
  else if c == 'e' || c == 'E' then
    if run.digit && !run.mark then some { run with mark := true, afterMark := true } else none
  else none

/-- The longest beginning of a text that can belong to a decimal. -/
def DecimalRun.collect (run : DecimalRun) : List Char → List Char
  | [] => []
  | c :: rest =>
    match run.step? c with
    | some next => c :: next.collect rest
    | none => []

/-- The longest of the first `n` beginnings of a text that is a decimal. -/
def longestDecimal? (text : List Char) : Nat → Option Float
  | 0 => none
  | n + 1 => (decimal? (text.take (n + 1))).or (longestDecimal? text n)

/-- The decimal that a text without leading blanks begins with. -/
def leadingDecimal (text : List Char) : Float :=
  if "Infinity".toList.isPrefixOf text || "+Infinity".toList.isPrefixOf text then infinity false
  else if "-Infinity".toList.isPrefixOf text then infinity true
  else
    let run := DecimalRun.collect ⟨false, false, false, false, false⟩ text
    if run.any isDigit then (longestDecimal? run run.length).getD nan else nan

end ViewBinding.Number
