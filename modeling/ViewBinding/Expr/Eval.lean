import ViewBinding.Builtin.Global
import ViewBinding.Expr.Basic

/-!
Evaluation of expressions. Nothing but the scope and the built-in functions can be reached, and only
assignments write to arrays and objects that were there before.
-/
namespace ViewBinding

/-- The value of a variable, or of one of the two names for numbers. -/
def Scope.value (scope : Scope) (name : String) : Except EvalError Value :=
  match scope.get? name with
  | some v => .ok v
  | none =>
    if name = "NaN" then .ok (.number Number.nan)
    else if name = "Infinity" then .ok (.number (Number.infinity false))
    else if Builtin.isNamespace name || Builtin.isFunction name then .error (.onlyCallable name)
    else .error (.notDefined name)

namespace Expr

/-- Whether the operand of `typeof` is a name that has no value. -/
def isUndeclared (scope : Scope) : Expr → Bool
  | .ident name => match scope.value name with
    | .ok _ => false
    | .error _ => true
  | _ => false

/-- The namespace that an expression names, unless a variable hides it. -/
def namespace? (scope : Scope) : Expr → Option String
  | .ident name => if !scope.contains name && Builtin.isNamespace name then some name else none
  | _ => none

/-- Reads a property of a value that has properties. -/
def readProperty (h : Heap) (v : Value) (key : String) : Except EvalError Value :=
  if v.isNullish then .error (.readOfNullish (h.string v) key) else .ok (h.get v key)

def applyUnary (h : Heap) (v : Value) : UnaryOp → Value
  | .not => .bool !v.truthy
  | .neg => .number (-(h.number v))
  | .plus => .number (h.number v)
  | .typeOf => .string v.kind

/-- Whether `+` joins texts when it meets such a value. -/
def isTextual : Value → Bool
  | .string _ | .array _ | .object _ => true
  | _ => false

def add (h : Heap) (a b : Value) : Value :=
  if isTextual a || isTextual b then .string (h.string a ++ h.string b)
  else .number (h.number a + h.number b)

/-- Two strings are compared as texts and all else as numbers. -/
def compare (h : Heap) (a b : Value) (numeric : Float → Float → Bool) (textual : String → String → Bool) :
    Value :=
  match a, b with
  | .string s, .string t => .bool (textual s t)
  | _, _ =>
    let x := h.number a
    let y := h.number b
    .bool (!x.isNaN && !y.isNaN && numeric x y)

def applyBinary (h : Heap) (a b : Value) : BinaryOp → Value
  | .add => add h a b
  | .sub => .number (h.number a - h.number b)
  | .mul => .number (h.number a * h.number b)
  | .div => .number (h.number a / h.number b)
  | .rem => .number (Number.rem (h.number a) (h.number b))
  | .lt => compare h a b (· < ·) (· < ·)
  | .gt => compare h a b (· > ·) (· > ·)
  | .le => compare h a b (· ≤ ·) (fun s t => !(t < s))
  | .ge => compare h a b (· ≥ ·) (fun s t => !(s < t))
  | .looseEq => .bool (h.looseEquals a b)
  | .looseNe => .bool !(h.looseEquals a b)
  | .strictEq => .bool (a.strictEquals b)
  | .strictNe => .bool !(a.strictEquals b)

/-- Whether the left operand decides. -/
def decides (v : Value) : LogicalOp → Bool
  | .and => !v.truthy
  | .or => v.truthy
  | .nullish => !v.isNullish

mutual

def eval (scope : Scope) : Expr → Eval Value
  | .number x => return .number x
  | .string s => return .string s
  | .bool b => return .bool b
  | .null => return .null
  | .undefined => return .undefined
  | .ident name => scope.value name
  | .template segments => do return .string (← evalSegments scope segments)
  | .array items => do Eval.newArray (← evalAll scope items)
  | .object entries => do Eval.newObject (← evalEntries scope entries)
  | .member owner property optional => do
    let v ← eval scope owner
    if optional && v.isNullish then return .undefined
    readProperty (← Eval.view id) v property
  | .index owner key optional => do
    let v ← eval scope owner
    if optional && v.isNullish then return .undefined
    let key ← eval scope key
    let h ← Eval.view id
    readProperty h v (h.propertyKey key)
  | .call (.member owner property memberOptional) args optional =>
    match namespace? scope owner with
    | some name => do Builtin.callNamespace name property (← evalAll scope args)
    | none => do
      let receiver ← eval scope owner
      if receiver.isNullish then
        if memberOptional || optional then return .undefined
        throw (.readOfNullish (← Eval.view (·.string receiver)) property)
      Builtin.callMethod receiver property (← evalAll scope args)
  | .call (.ident name) args _ =>
    if scope.contains name then throw .notCallable
    else do Builtin.callFunction name (← evalAll scope args)
  | .call _ _ _ => throw .notCallable
  | .unary op operand =>
    if op = .typeOf ∧ isUndeclared scope operand then return .string "undefined"
    else do
      let v ← eval scope operand
      return applyUnary (← Eval.view id) v op
  | .binary op left right => do
    let a ← eval scope left
    let b ← eval scope right
    return applyBinary (← Eval.view id) a b op
  | .logical op left right => do
    let v ← eval scope left
    if decides v op then return v else eval scope right
  | .conditional test consequent alternate => do
    let v ← eval scope test
    if v.truthy then eval scope consequent else eval scope alternate
  | .assign (.member owner property _) value => do
    let value ← eval scope value
    let target ← eval scope owner
    Eval.update (·.set target property value)
    return value
  | .assign (.index owner key _) value => do
    let value ← eval scope value
    let target ← eval scope owner
    let key ← eval scope key
    Eval.update fun h => h.set target (h.propertyKey key) value
    return value
  | .assign _ value => do
    let _ ← eval scope value
    throw .invalidTarget
  | .sequence items => do return (← evalAll scope items).getLastD .undefined

def evalAll (scope : Scope) : List Expr → Eval (List Value)
  | [] => return []
  | item :: rest => do
    let v ← eval scope item
    return v :: (← evalAll scope rest)

def evalEntries (scope : Scope) : List (String × Expr) → Eval (List (String × Value))
  | [] => return []
  | (key, value) :: rest => do
    let v ← eval scope value
    return (key, v) :: (← evalEntries scope rest)

/-- The text of a template; what fills a hole becomes text at once. -/
def evalSegments (scope : Scope) : List TemplateSegment → Eval String
  | [] => return ""
  | .text s :: rest => do return s ++ (← evalSegments scope rest)
  | .hole expr :: rest => do
    let v ← eval scope expr
    let shown ← Eval.view (·.string v)
    return shown ++ (← evalSegments scope rest)

end

end Expr

end ViewBinding
