import ViewBinding.Builtin.Index
import ViewBinding.Expr.Scope
import ViewBinding.Text.Casing
import ViewBinding.Text.Normalization
import ViewBinding.Text.Search
import ViewBinding.Value.Conversion

/-!
The methods of strings. Positions count characters.
-/
namespace ViewBinding.Builtin

/-- An argument, or `undefined` where none is given. -/
def argument (args : List Value) (i : Nat) : Value := args[i]?.getD .undefined

/-- A position in an argument, or `default` where nothing is given. -/
def positionOr (h : Heap) (index : Float → Nat) (default : Nat) (v : Value) : Nat :=
  if v.isNullish then default else index (h.number v)

def relativeArg (h : Heap) (len default : Nat) (args : List Value) (i : Nat) : Nat :=
  positionOr h (relativeIndex len) default (argument args i)

def clampedArg (h : Heap) (len default : Nat) (args : List Value) (i : Nat) : Nat :=
  positionOr h (clampedIndex len) default (argument args i)

/-- A count in an argument; what is no count counts as zero. -/
def countArg (h : Heap) (args : List Value) (i : Nat) : Nat :=
  (Number.toNatBelow? Number.indexBound (h.number (argument args i))).getD 0

/-- The text of an argument, or `default` where it is missing or undefined. -/
def textOr (h : Heap) (default : String) (args : List Value) (i : Nat) : String :=
  match args[i]? with
  | none | some .undefined => default
  | some v => h.string v

/-- What fills a text up to the length that is asked for. -/
def padding (h : Heap) (text : List Char) (args : List Value) : List Char :=
  Text.cycleTake (textOr h " " args 1).toList (countArg h args 0 - text.length)

/-- The methods that read the arguments and yield a value without failing. -/
def pureStringMethod? (h : Heap) (s method : String) (args : List Value) : Option Value :=
  let text := s.toList
  let len := text.length
  let pattern := (h.string (argument args 0)).toList
  let replacement := (h.string (argument args 1)).toList
  let chars (cs : List Char) : Value := .string (String.ofList cs)
  match method with
  | "toUpperCase" => some (.string (Text.upper s))
  | "toLowerCase" => some (.string (Text.lower s))
  | "trim" => some (chars (Text.trim text))
  | "trimStart" => some (chars (Text.trimStart Text.isBlank text))
  | "trimEnd" => some (chars (Text.trimEnd Text.isBlank text))
  | "toString" => some (.string s)
  | "includes" => some (.bool (Text.findFrom? pattern text (clampedArg h len 0 args 1)).isSome)
  | "startsWith" => some (.bool (pattern.isPrefixOf (text.drop (clampedArg h len 0 args 1))))
  | "endsWith" => some (.bool (pattern.isSuffixOf (text.take (clampedArg h len len args 1))))
  | "indexOf" =>
    match Text.findFrom? pattern text (clampedArg h len 0 args 1) with
    | some i => some (.ofNat i)
    | none => some (.number (-1))
  | "slice" => some (chars (between text (relativeArg h len 0 args 0) (relativeArg h len len args 1)))
  | "substring" =>
    let start := clampedArg h len 0 args 0
    let stop := clampedArg h len len args 1
    some (chars (between text (min start stop) (max start stop)))
  | "charAt" => some (chars (text[clampedArg h len 0 args 0]?.toList))
  | "at" =>
    let place := placeAt? len (h.number (argument args 0))
    some (((place.bind (text[·]?)).map Value.ofChar).getD .undefined)
  | "padStart" => some (chars (padding h text args ++ text))
  | "padEnd" => some (chars (text ++ padding h text args))
  | "replace" => some (chars (Text.replaceFirst pattern replacement text))
  | "replaceAll" => some (chars (Text.replaceAll pattern replacement text))
  | "concat" => some (.string (args.foldl (fun out v => out ++ h.string v) s))
  | _ => none

/-- Repeats a text a whole, finite and not negative number of times. -/
def repeated (s : String) (count : Float) : Except EvalError Value :=
  let count := if count.isNaN then 0 else Number.trunc count
  match Number.toNatBelow? Number.indexBound count with
  | some n => .ok (.string (if s.isEmpty then "" else String.join (List.replicate n s)))
  | none => .error (.invalidRepeat (Number.text count))

def normalized (s form : String) : Except EvalError Value :=
  match Text.NormalForm.ofName? form with
  | some form => .ok (.string (Text.normalize form s))
  | none => .error (.invalidForm form)

/-- The pieces of a text between separators; no separator leaves the text whole. -/
def splitPieces (h : Heap) (s : String) (args : List Value) : List String :=
  match args.head? with
  | none | some .undefined => [s]
  | some v =>
    let separator := (h.string v).toList
    if separator.isEmpty then s.toList.map Char.toString
    else (Text.pieces separator s.toList).map String.ofList

/-- At most as many pieces as the second argument says. -/
def splitLimited (h : Heap) (s : String) (args : List Value) : List String :=
  let all := splitPieces h s args
  if (argument args 1).isNullish then all else all.take (countArg h args 1)

def stringMethod (s method : String) (args : List Value) : Eval Value := do
  match ← Eval.view (pureStringMethod? · s method args) with
  | some v => return v
  | none =>
    match method with
    | "repeat" => repeated s (← Eval.view (·.number (argument args 0)))
    | "normalize" => normalized s (← Eval.view (textOr · "NFC" args 0))
    | "split" => Eval.newArray ((← Eval.view (splitLimited · s args)).map Value.string)
    | _ => throw (.notFunction "string" method)

end ViewBinding.Builtin
