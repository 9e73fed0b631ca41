import ViewBinding.Builtin.StringMethod
import ViewBinding.Number.Radix
import ViewBinding.Value.Equality

/-!
The methods of arrays and of numbers. No method writes to its receiver.
-/
namespace ViewBinding.Builtin

/-- Strict equality, but for the number that is none, which is found as well. -/
def foundEqual (a b : Value) : Bool :=
  a.strictEquals b ||
    match a, b with
    | .number x, .number y => x.isNaN && y.isNaN
    | _, _ => false

/-- The items with those of the arrays among the arguments and the other arguments behind them. -/
def joinedItems (h : Heap) (items args : List Value) : List Value :=
  items ++ args.flatMap fun v => (h.items? v).getD [v]

def arrayMethod (r : ArrayRef) (method : String) (args : List Value) : Eval Value := do
  let h ← Eval.view id
  let items := (h.items r).toList
  let len := items.length
  match method with
  | "includes" => return .bool (items.any (foundEqual · (argument args 0)))
  | "indexOf" =>
    let start := relativeArg h len 0 args 1
    match (items.drop start).findIdx? (·.strictEquals (argument args 0)) with
    | some i => return .ofNat (start + i)
    | none => return .number (-1)
  | "join" => return .string ((textOr h "," args 0).intercalate (items.map h.display))
  | "slice" => Eval.newArray (between items (relativeArg h len 0 args 0) (relativeArg h len len args 1))
  | "at" =>
    let place := placeAt? len (h.number (argument args 0))
    return (place.bind (items[·]?)).getD .undefined
  | "concat" => Eval.newArray (joinedItems h items args)
  | "toString" => return .string (h.string (.array r))
  | _ => throw (.notFunction "array" method)

/-- A number with a count of places between 0 and 100. -/
def toFixed (x places : Float) : Except EvalError Value :=
  match (Number.toNatBelow? Number.indexBound (if places.isNaN then 0 else places)).filter (· ≤ 100) with
  | none => .error .fixedDigits
  | some places =>
    match Number.decode x with
    | .finite negative m e => .ok (.string (Number.fixed places negative m e))
    | _ => .ok (.string (Number.text x))

/-- A number in a base from 2 to 36; only whole numbers are written in another base than ten. -/
def toRadix (x : Float) (base : Nat) : Except EvalError Value :=
  if base < 2 ∨ 36 < base then .error .radixRange
  else .ok (.string (if base = 10 || !Number.isInteger x then Number.text x else Number.radixText base x))

/-- The base in an argument; what is no count counts as zero. -/
def baseArg (h : Heap) (v : Value) : Nat := (Number.toNatBelow? (Nat.pow 2 32) (h.number v)).getD 0

def numberMethod (x : Float) (method : String) (args : List Value) : Eval Value := do
  match method with
  | "toFixed" => toFixed x (← Eval.view (·.number (argument args 0)))
  | "toString" =>
    match argument args 0 with
    | .undefined => toRadix x 10
    | v => toRadix x (← Eval.view (baseArg · v))
  | _ => throw (.notFunction "number" method)

/-- Calls a method of a value that is not nullish. -/
def callMethod (receiver : Value) (method : String) (args : List Value) : Eval Value :=
  match receiver with
  | .string s => stringMethod s method args
  | .array r => arrayMethod r method args
  | .number x => numberMethod x method args
  | .bool b =>
    if method = "toString" then return .string (if b then "true" else "false")
    else throw (.notFunction receiver.kind method)
  | _ => throw (.notFunction receiver.kind method)

end ViewBinding.Builtin
