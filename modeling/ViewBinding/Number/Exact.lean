/-!
The exact value of a double, and the whole-number operations that are defined through it.

A finite double is `± mantissa · 2 ^ exponent`. `decode` reads that off the bits and `ofScaled` rounds
such a value back to the nearest double, so that rounding toward zero, the remainder and the
conversions to natural numbers are arithmetic on integers.
-/
namespace ViewBinding.Number

/-- What the bits of a double say. -/
inductive Exact where
  | nan
  | infinite (negative : Bool)
  | finite (negative : Bool) (mantissa : Nat) (exponent : Int)
  deriving Repr, DecidableEq

/-- Sign, exponent and fraction fields of the binary format. -/
def decode (x : Float) : Exact :=
  let bits := x.toBits.toNat
  let negative := bits / Nat.pow 2 63 == 1
  let field : Nat := bits / Nat.pow 2 52 % 2048
  let fraction : Nat := bits % Nat.pow 2 52
  if field == 2047 then
    if fraction == 0 then .infinite negative else .nan
  else if field == 0 then .finite negative fraction (-1074)
  else .finite negative (Nat.pow 2 52 + fraction) (Int.ofNat field - 1075)

/-- A quotient rounded to the nearest natural number, a half going to the even neighbour. -/
def roundDiv (num den : Nat) : Nat :=
  let q := num / den
  let r := num % den
  if 2 * r < den then q else if den < 2 * r then q + 1 else q + q % 2

/-- The number of binary digits. -/
def bitLength (n : Nat) : Nat := if n = 0 then 0 else n.log2 + 1

def ofFields (negative : Bool) (field fraction : Nat) : Float :=
  Float.ofBits (UInt64.ofNat ((if negative then Nat.pow 2 63 else 0) + field * Nat.pow 2 52 + fraction))

def infinity (negative : Bool) : Float := ofFields negative 2047 0

/-- The double nearest to `± m · 2 ^ e`, ties to even. -/
def ofScaled (negative : Bool) (m : Nat) (e : Int) : Float :=
  let unit : Int := max (e + bitLength m - 53) (-1074)
  let rounded :=
    if unit ≤ e then m * Nat.pow 2 (e - unit).toNat else roundDiv m (Nat.pow 2 (unit - e).toNat)
  -- Rounding up may reach the next power of two.
  let (rounded, unit) := if rounded = Nat.pow 2 53 then (Nat.pow 2 52, unit + 1) else (rounded, unit)
  if rounded < Nat.pow 2 52 then ofFields negative 0 rounded
  else if unit > 971 then infinity negative
  else ofFields negative (unit + 1075).toNat (rounded - Nat.pow 2 52)

/-- The double nearest to a natural number. -/
def ofNat (n : Nat) : Float := ofScaled false n 0

/-- The whole part of `m · 2 ^ e`. -/
def wholePart (m : Nat) (e : Int) : Nat :=
  if 0 ≤ e then m * Nat.pow 2 e.toNat else m / Nat.pow 2 (-e).toNat

/-- Whether `m · 2 ^ e` is a whole number. -/
def isWhole (m : Nat) (e : Int) : Bool := 0 ≤ e || m % Nat.pow 2 (-e).toNat == 0

/-- Whether a double is finite without a fraction. -/
def isInteger (x : Float) : Bool :=
  match decode x with
  | .finite _ m e => isWhole m e
  | _ => false

def isFinite (x : Float) : Bool :=
  match decode x with
  | .finite .. => true
  | _ => false

/-- Rounding toward zero; it keeps the sign of zero. -/
def trunc (x : Float) : Float :=
  match decode x with
  | .finite negative m e => if isWhole m e then x else ofScaled negative (wholePart m e) 0
  | _ => x

/-- The greatest whole number that is not above `x`. -/
def floor (x : Float) : Float :=
  match decode x with
  | .finite negative m e =>
    if isWhole m e then x
    else ofScaled negative (wholePart m e + if negative then 1 else 0) 0
  | _ => x

/-- The least whole number that is not below `x`; between `-1` and `0` it is the negative zero. -/
def ceil (x : Float) : Float :=
  match decode x with
  | .finite negative m e =>
    if isWhole m e then x
    else ofScaled negative (wholePart m e + if negative then 0 else 1) 0
  | _ => x

def nan : Float := Float.ofBits 0x7ff8000000000000

/-- The remainder of the division rounded toward zero; it has the sign of the dividend. -/
def rem (x y : Float) : Float :=
  match decode x, decode y with
  | .finite negative m e, .finite _ n f =>
    if n = 0 then nan
    else
      let low := min e f
      ofScaled negative (m * Nat.pow 2 (e - low).toNat % (n * Nat.pow 2 (f - low).toNat)) low
  | .finite .., .infinite _ => x
  | _, _ => nan

/--
The whole part as a natural number below `bound`. Numbers of at most `-1`, numbers whose whole part
reaches the bound, and the number that is none have no such part.
-/
def toNatBelow? (bound : Nat) (x : Float) : Option Nat :=
  match decode x with
  | .finite negative m e =>
    let n := wholePart m e
    if negative && n != 0 then none else if n < bound then some n else none
  | _ => none

end ViewBinding.Number
