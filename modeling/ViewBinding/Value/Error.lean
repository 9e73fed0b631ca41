/-!
The ways in which evaluating an expression fails.
-/
namespace ViewBinding

inductive EvalError where
  | notDefined (name : String)
  | onlyCallable (name : String)
  | notFunction (receiver method : String)
  | notCallable
  | readOfNullish (receiver key : String)
  | invalidTarget
  | invalidIndex (key : String)
  | setOnPrimitive (key kind : String)
  | pushOnPrimitive (kind : String)
  | invalidRepeat (count : String)
  | invalidForm (name : String)
  | fixedDigits
  | radixRange
  /-- A failure that an application reports in its own words. -/
  | described (text : String)
  deriving Repr, DecidableEq

def EvalError.message : EvalError → String
  | .notDefined name => s!"{name} is not defined"
  | .onlyCallable name => s!"{name} can only be used in a call"
  | .notFunction receiver method => s!"{receiver}.{method} is not a function"
  | .notCallable => "expression is not callable"
  | .readOfNullish receiver key => s!"cannot read properties of {receiver} (reading '{key}')"
  | .invalidTarget => "invalid assignment target"
  | .invalidIndex key => s!"invalid array index: {key}"
  | .setOnPrimitive key kind => s!"cannot set property '{key}' on {kind}"
  | .pushOnPrimitive kind => s!"cannot push onto {kind}"
  | .invalidRepeat count => s!"invalid repeat count: {count}"
  | .invalidForm name => s!"invalid normalization form: {name}"
  | .fixedDigits => "toFixed() digits argument must be between 0 and 100"
  | .radixRange => "toString() radix must be between 2 and 36"
  | .described text => text

end ViewBinding
