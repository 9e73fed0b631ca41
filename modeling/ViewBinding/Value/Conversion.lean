import ViewBinding.Number.Decimal
import ViewBinding.Text.Quoted
import ViewBinding.Value.Basic

/-!
Values as text, as numbers and as JSON.

Arrays are converted item by item, so each conversion has a bound on the nesting that it follows;
`Heap.depth` is one that a value not containing itself never reaches.
-/
namespace ViewBinding.Heap

def stringWithin (h : Heap) : Nat → Value → String
  | _, .undefined => "undefined"
  | _, .null => "null"
  | _, .bool true => "true"
  | _, .bool false => "false"
  | _, .number x => Number.text x
  | _, .string s => s
  | _, .object _ => "[object Object]"
  | 0, .array _ => ""
  | fuel + 1, .array r =>
    ",".intercalate ((h.items r).toList.map fun item =>
      if item.isNullish then "" else h.stringWithin fuel item)

/-- The text of a value. Items of arrays stand between commas, and those that are nothing are empty. -/
def string (h : Heap) (v : Value) : String := h.stringWithin h.depth v

/-- The text that a view shows; nothing is shown of `undefined` and `null`. -/
def display (h : Heap) (v : Value) : String := if v.isNullish then "" else h.string v

/-- The number that a text stands for; a blank text stands for zero. -/
def numberOfText (s : String) : Float :=
  let text := Text.trim s.toList
  if text.isEmpty then 0 else (Number.decimal? text).getD Number.nan

def numberWithin (h : Heap) : Nat → Value → Float
  | _, .undefined => Number.nan
  | _, .null => 0
  | _, .bool b => if b then 1 else 0
  | _, .number x => x
  | _, .string s => numberOfText s
  | _, .object _ => Number.nan
  | 0, .array _ => Number.nan
  | fuel + 1, .array r =>
    match (h.items r).toList with
    | [] => 0
    | [item] => h.numberWithin fuel item
    | _ => Number.nan

/-- The number of a value. An array counts as its only item. -/
def number (h : Heap) (v : Value) : Float := h.numberWithin h.depth v

def jsonWithin (h : Heap) : Nat → Value → String
  | _, .undefined | _, .null => "null"
  | _, .bool true => "true"
  | _, .bool false => "false"
  | _, .number x => if Number.isFinite x then Number.text x else "null"
  | _, .string s => Text.jsonQuoted s
  | 0, _ => "null"
  | fuel + 1, .array r =>
    "[" ++ ",".intercalate ((h.items r).toList.map (h.jsonWithin fuel)) ++ "]"
  | fuel + 1, .object r =>
    let shown := (h.fields r).entries.filter fun entry => !entry.2.isUndefined
    "\x7b" ++ ",".intercalate (shown.map fun (key, value) =>
      Text.jsonQuoted key ++ ":" ++ h.jsonWithin fuel value) ++ "\x7d"

/-- The JSON text; entries that are undefined are left out. -/
def json (h : Heap) (v : Value) : String := h.jsonWithin h.depth v

/-- The name under which a value is looked up. -/
def propertyKey (h : Heap) (v : Value) : String := h.string v

end ViewBinding.Heap
