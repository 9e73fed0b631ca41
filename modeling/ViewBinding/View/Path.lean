import ViewBinding.View.Basic

/-!
Paths into the model: what a user types into a bound element is written where the path of the binding leads.

A path names its start and then the keys to follow. Its last key is the one that is written; the keys before
it have to lead through arrays and objects.
-/
namespace ViewBinding.View

/-- The names of a path, the first of which only says where it starts. -/
def pathParts (path : String) : List String :=
  (Text.splitOn (· == '.') path.toList).map fun name => String.ofList (Text.trim name)

/-- Where a path starts: the item of a list, or the object of the view model. -/
def pathStart (v : View) (first : String) (scope : Option ItemScope) : Value :=
  match scope with
  | some item => if first = "$item" then item.item else v.object
  | none => v.object

def isContainer : Value → Bool
  | .array _ | .object _ => true
  | _ => false

/-- Follows names through arrays and objects only. -/
def follow? (h : Heap) (start : Value) (names : List String) : Option Value :=
  names.foldlM (fun v name => let next := h.get v name; if isContainer next then some next else none) start

/-- Writes a value into the model, if the path leads to an array or an object. -/
def writePath? (v : View) (h : Heap) (path : String) (scope : Option ItemScope) (value : Value) :
    Option Heap :=
  match pathParts path with
  | first :: second :: rest =>
    let names := second :: rest
    let last := names.getLastD ""
    if last.isEmpty then none
    else
      (follow? h (v.pathStart first scope) names.dropLast).bind fun target =>
        (h.set target last value).toOption
  | _ => none

end ViewBinding.View
