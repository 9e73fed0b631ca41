import ViewBinding.Number.Exact

/-!
The decimal text of a double.

`shortest` finds the fewest digits that read back as the same double, `text` is how a number is shown,
`literalText` how a number is shown inside a message, and `fixed` writes a given count of places.
-/
namespace ViewBinding.Number

/-- A positive decimal, `digits · 10 ^ exponent`. -/
structure Decimal where
  digits : Nat
  exponent : Int
  deriving Repr, DecidableEq

/--
The numbers between `low` and `high`, in units of a quarter of the last bit of a double. Every number
in between, and with `closed` also the two ends, rounds to the double `center`.
-/
structure Interval where
  low : Nat
  center : Nat
  high : Nat
  closed : Bool
  deriving Repr

/-- Below a power of two the doubles lie twice as close. -/
def Interval.around (m : Nat) (e : Int) : Interval where
  low := 4 * m - if m = Nat.pow 2 52 ∧ -1074 < e then 1 else 2
  center := 4 * m
  high := 4 * m + 2
  closed := m % 2 == 0

/-- Whether `d · grid` lies in the interval, whose ends are counted in `unit`. -/
def Interval.contains (i : Interval) (unit grid d : Nat) : Bool :=
  if i.closed then i.low * unit ≤ d * grid && d * grid ≤ i.high * unit
  else i.low * unit < d * grid && d * grid < i.high * unit

/-- The point of a grid nearest to the center, if one lies in the interval; a tie goes up. -/
def Interval.nearest? (i : Interval) (unit grid : Nat) : Option Nat :=
  let below := i.center * unit / grid
  let above := below + 1
  match i.contains unit grid below, i.contains unit grid above with
  | true, true =>
    some (if i.center * unit - below * grid < above * grid - i.center * unit then below else above)
  | true, false => some below
  | false, true => some above
  | false, false => none

/-- Tries the grids `10 ^ k`, `10 ^ (k - 1)`, …, the coarsest first. -/
def Interval.coarsest (i : Interval) (e : Int) : Nat → Int → Decimal
  | 0, k => ⟨0, k⟩
  | fuel + 1, k =>
    match i.nearest? (Nat.pow 2 (e - 2).toNat * Nat.pow 10 (-k).toNat)
        (Nat.pow 2 (2 - e).toNat * Nat.pow 10 k.toNat) with
    | some d => ⟨d, k⟩
    | none => i.coarsest e fuel (k - 1)

/--
The fewest digits that read back as the double `m · 2 ^ e`, and of those the nearest. No grid above the
first one tried has a point in the interval, and seventeen digits always suffice.
-/
def shortest (m : Nat) (e : Int) : Decimal :=
  (Interval.around m e).coarsest e 24 ((e + bitLength m) * 30103 / 100000 + 2)

def digitChars (n : Nat) : List Char := Nat.toDigits 10 n

def natText (n : Nat) : String := String.ofList (digitChars n)

def zeros (n : Nat) : List Char := List.replicate n '0'

/-- Whole digits and fraction digits of a decimal, written without an exponent. -/
def Decimal.positional (d : Decimal) : List Char × List Char :=
  let digits := digitChars d.digits
  if 0 ≤ d.exponent then (digits ++ zeros d.exponent.toNat, [])
  else
    let places := (-d.exponent).toNat
    let padded := zeros (places + 1 - digits.length) ++ digits
    padded.splitAt (padded.length - places)

def signed (negative : Bool) (digits : List Char) : String :=
  String.ofList (if negative then '-' :: digits else digits)

/-- The text of a finite number with its shortest digits and no exponent. -/
def positionalText (negative : Bool) (m : Nat) (e : Int) : String :=
  match (shortest m e).positional with
  | (whole, []) => signed negative whole
  | (whole, fraction) => signed negative (whole ++ '.' :: fraction)

/--
The text of a number. A whole number below `10 ^ 21` shows its exact value and every other number its
shortest digits, never with an exponent; both zeros show as `0`.
-/
def text (x : Float) : String :=
  match decode x with
  | .nan => "NaN"
  | .infinite false => "Infinity"
  | .infinite true => "-Infinity"
  | .finite negative m e =>
    if m = 0 then "0"
    else if isWhole m e && wholePart m e < Nat.pow 10 21 then signed negative (digitChars (wholePart m e))
    else positionalText negative m e

/-- The text of a number that tells the two zeros apart. -/
def signedText (x : Float) : String :=
  if decode x = .finite true 0 (-1074) then "-0" else text x

/--
The text of a number token inside a message: at least one place, and an exponent from `10 ^ 16` upward
and below `10 ^ -4`.
-/
def literalText (x : Float) : String :=
  match decode x with
  | .nan => "NaN"
  | .infinite negative => signed negative "inf".toList
  | .finite negative m e =>
    if m = 0 then signed negative "0.0".toList
    else
      let d := shortest m e
      let digits := digitChars d.digits
      let point := d.exponent + digits.length
      if 16 < point || point < -3 then
        let fraction := digits.drop 1
        let mantissa := digits.take 1 ++ if fraction.isEmpty then [] else '.' :: fraction
        signed negative (mantissa ++ 'e' :: (toString (point - 1)).toList)
      else
        match d.positional with
        | (whole, []) => signed negative (whole ++ ".0".toList)
        | (whole, fraction) => signed negative (whole ++ '.' :: fraction)

/-- A finite number with a given count of places; the exact value is rounded, a half to even. -/
def fixed (places : Nat) (negative : Bool) (m : Nat) (e : Int) : String :=
  let scaled := roundDiv (m * Nat.pow 10 places * Nat.pow 2 e.toNat) (Nat.pow 2 (-e).toNat)
  match (Decimal.mk scaled (-(places : Int))).positional with
  | (whole, []) => signed negative whole
  | (whole, fraction) => signed negative (whole ++ '.' :: fraction)

end ViewBinding.Number
