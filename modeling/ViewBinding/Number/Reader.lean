import ViewBinding.Number.Exact

/-!
Reading numbers: decimal texts as doubles, and runs of digits in a base as natural numbers.
-/
namespace ViewBinding.Number

/-- The value of a digit below `base`; letters of either case follow the ten decimal digits. -/
def digit? (base : Nat) (c : Char) : Option Nat :=
  let value :=
    if '0' ≤ c ∧ c ≤ '9' then some (c.toNat - '0'.toNat)
    else if 'a' ≤ c ∧ c ≤ 'z' then some (c.toNat - 'a'.toNat + 10)
    else if 'A' ≤ c ∧ c ≤ 'Z' then some (c.toNat - 'A'.toNat + 10)
    else none
  value.filter (· < base)

def isDigit (c : Char) : Bool := '0' ≤ c && c ≤ '9'

def isHexDigit (c : Char) : Bool := (digit? 16 c).isSome

/-- The value of a text of digits; characters that are none count as zero. -/
def digitsValue (base : Nat) (digits : List Char) : Nat :=
  digits.foldl (fun value c => value * base + (digit? base c).getD 0) 0

/-- The value of digits as long as it stays below `bound`. -/
def digitsBelow? (base bound : Nat) (digits : List Char) : Option Nat :=
  digits.foldlM (fun value c => ((digit? base c).map (value * base + ·)).filter (· < bound)) 0

/-- A natural number below `bound`: digits only, after at most one plus sign. -/
def natBelow? (base bound : Nat) (text : List Char) : Option Nat :=
  let digits := match text with
    | '+' :: rest => rest
    | _ => text
  if digits.isEmpty then none else digitsBelow? base bound digits

/-- The number of indices that an array or a string can have. -/
def indexBound : Nat := Nat.pow 2 64

/-- A decimal index. -/
def index? (text : List Char) : Option Nat := natBelow? 10 indexBound text

/--
The double nearest to `digits · 10 ^ exponent`. Far outside the range of doubles the answer is known
without the power of ten.
-/
def ofDecimal (digits : Nat) (exponent : Int) : Float :=
  let point := exponent + (Nat.toDigits 10 digits).length
  if digits = 0 ∨ point < -330 then 0
  else if 310 < point then infinity false
  else Float.ofScientific digits (exponent < 0) exponent.natAbs

/-- How many digits of a decimal are read one by one. -/
def digitBound : Nat := 800

/--
The double nearest to the number with some digits, the last of which stands for `10 ^ exponent`. No number
half way between two doubles has more than 767 digits from its first nonzero one on, so of the digits behind
the bound it only counts whether there is a nonzero one among them.
-/
def ofDigits (digits : List Char) (exponent : Int) : Float :=
  let digits := digits.dropWhile (· == '0')
  let behind := digits.drop digitBound
  if behind.isEmpty then ofDecimal (digitsValue 10 digits) exponent
  else
    let above := if behind.all (· == '0') then 0 else 1
    ofDecimal (digitsValue 10 (digits.take digitBound) * 10 + above) (exponent + behind.length - 1)

/-- From this value on an exponent takes up no further digits. -/
def exponentBound : Nat := Nat.pow 2 16

/-- The value of the digits of an exponent: those behind the first value from the bound on are passed over. -/
def exponentValue (digits : List Char) : Nat :=
  digits.foldl
    (fun value c => if value < exponentBound then value * 10 + (digit? 10 c).getD 0 else value) 0

/-- An exponent: a letter `e`, at most one sign, and one or more digits. -/
def exponent? : List Char → Option Int
  | [] => some 0
  | c :: rest =>
    if c == 'e' || c == 'E' then
      let (negative, digits) := match rest with
        | '-' :: rest => (true, rest)
        | '+' :: rest => (false, rest)
        | _ => (false, rest)
      if digits.isEmpty || !digits.all isDigit then none
      else
        let value : Int := exponentValue digits
        some (if negative then -value else value)
    else none

/-- A decimal without a sign: digits around an optional point, at least one of them, and an exponent. -/
def magnitude? (text : List Char) : Option Float :=
  let whole := text.takeWhile isDigit
  let afterWhole := text.dropWhile isDigit
  let (fraction, rest) := match afterWhole with
    | '.' :: rest => (rest.takeWhile isDigit, rest.dropWhile isDigit)
    | _ => ([], afterWhole)
  if whole.isEmpty && fraction.isEmpty then none
  else (exponent? rest).map fun e =>
    ofDigits (whole ++ fraction) (e - fraction.length)

/-- The words for infinity and for no number, in either case. -/
def word? (text : List Char) : Option Float :=
  let word := String.ofList (text.map Char.toLower)
  if word == "inf" || word == "infinity" then some (infinity false)
  else if word == "nan" then some nan
  else none

/-- A decimal with at most one sign. -/
def decimal? (text : List Char) : Option Float :=
  match text with
  | '-' :: rest => ((magnitude? rest).or (word? rest)).map (-·)
  | '+' :: rest => (magnitude? rest).or (word? rest)
  | _ => (magnitude? text).or (word? text)

end ViewBinding.Number
