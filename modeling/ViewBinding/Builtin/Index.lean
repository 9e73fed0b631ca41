import ViewBinding.Number.Exact

/-!
Positions in a text or an array of `len` places, given as numbers.
-/
namespace ViewBinding.Builtin

open Number

/-- Rounds toward zero, counts negative positions from the end, and clamps to `0 … len`. -/
def relativeIndex (len : Nat) (x : Float) : Nat :=
  match decode x with
  | .nan => 0
  | .infinite negative => if negative then 0 else len
  | .finite negative m e =>
    let n := wholePart m e
    if negative && n != 0 then len - n else min n len

/-- Rounds toward zero and clamps to `0 … len`. -/
def clampedIndex (len : Nat) (x : Float) : Nat :=
  match decode x with
  | .nan => 0
  | .infinite negative => if negative then 0 else len
  | .finite negative m e => if negative then 0 else min (wholePart m e) len

/-- The place that a number names; negative numbers count from the end. -/
def placeAt? (len : Nat) (x : Float) : Option Nat :=
  match decode x with
  | .nan => some 0
  | .infinite _ => none
  | .finite negative m e =>
    let n := wholePart m e
    if negative && n != 0 then if n ≤ len then some (len - n) else none else some n

/-- The places from `start` up to `stop`. -/
def between {α : Type} (xs : List α) (start stop : Nat) : List α := (xs.drop start).take (stop - start)

theorem relativeIndex_le (len : Nat) (x : Float) : relativeIndex len x ≤ len := by
  unfold relativeIndex
  split
  · omega
  · split <;> omega
  · simp only []
    split <;> omega

theorem clampedIndex_le (len : Nat) (x : Float) : clampedIndex len x ≤ len := by
  unfold clampedIndex
  split
  · omega
  · split <;> omega
  · split <;> omega

theorem between_append_drop {α : Type} (xs : List α) (k : Nat) :
    between xs 0 k ++ xs.drop k = xs := by
  simp [between]

end ViewBinding.Builtin
