import ViewBinding.Builtin.ArrayMethod

/-!
The functions and the namespaces that every expression can call.
-/
namespace ViewBinding.Builtin

def isNamespace (name : String) : Bool := ["Math", "JSON", "Object"].contains name

def isFunction (name : String) : Bool :=
  ["String", "Number", "Boolean", "parseInt", "parseFloat", "isNaN"].contains name

/-- The first argument is the value so far; one that is no number wins. -/
def least (a b : Float) : Float :=
  if a.isNaN || b.isNaN then Number.nan else if b < a then b else a

/-- As `least`, for the greatest. -/
def greatest (a b : Float) : Float :=
  if a.isNaN || b.isNaN then Number.nan else if a < b then b else a

/-- The sign of a number; zeros keep theirs. -/
def signOf (x : Float) : Float := if x.isNaN || x == 0 then x else if x < 0 then -1 else 1

/-- The nearest whole number, a half going up. -/
def roundHalfUp (x : Float) : Float := Number.floor (x + 0.5)

/-- A function of the `Math` namespace on the numbers of its arguments. -/
def math? (method : String) (first : Float) (all : List Float) : Option Float :=
  match method with
  | "abs" => some first.abs
  | "floor" => some (Number.floor first)
  | "ceil" => some (Number.ceil first)
  | "round" => some (roundHalfUp first)
  | "trunc" => some (Number.trunc first)
  | "sign" => some (signOf first)
  | "min" => some (all.foldl least (Number.infinity false))
  | "max" => some (all.foldl greatest (Number.infinity true))
  | _ => none

def callNamespace (name method : String) (args : List Value) : Eval Value := do
  let h ← Eval.view id
  let first := argument args 0
  match name, method with
  | "JSON", "stringify" => return if first.isUndefined then .undefined else .string (h.json first)
  | "Object", "keys" => Eval.newArray ((h.keys first).map Value.string)
  | "Object", "values" => Eval.newArray (h.values first)
  | _, _ =>
    match if name = "Math" then math? method (h.number first) (args.map h.number) else none with
    | some x => return .number x
    | none => throw (.notFunction name method)

/-- Reads a whole number after leading blanks, in the base of the second argument if one is given. -/
def readInteger (h : Heap) (args : List Value) : Float :=
  let base := argument args 1
  Number.leadingInteger (if base.isNullish then 0 else baseArg h base)
    (Text.trimStart Text.isBlank (h.string (argument args 0)).toList)

def readDecimal (h : Heap) (args : List Value) : Float :=
  Number.leadingDecimal (Text.trimStart Text.isBlank (h.string (argument args 0)).toList)

def callFunction (name : String) (args : List Value) : Eval Value := do
  let h ← Eval.view id
  match name with
  | "String" => return .string ((args.head?.map h.string).getD "")
  | "Number" => return .number ((args.head?.map h.number).getD 0)
  | "Boolean" => return .bool (argument args 0).truthy
  | "parseInt" => return .number (readInteger h args)
  | "parseFloat" => return .number (readDecimal h args)
  | "isNaN" => return .bool (h.number (argument args 0)).isNaN
  | _ => throw (.notDefined name)

end ViewBinding.Builtin
