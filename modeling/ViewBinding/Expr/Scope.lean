import ViewBinding.Value.Basic

/-!
The variables that an expression sees, and evaluation as a state of the heap that can fail.
-/
namespace ViewBinding

/-- Setting a variable again keeps its place. -/
abbrev Scope := OrderedMap Value

/-- A failed evaluation keeps what it has written to the heap. -/
abbrev Eval (α : Type) := ExceptT EvalError (StateM Heap) α

namespace Eval

/-- Reads the heap. -/
def view {α : Type} (f : Heap → α) : Eval α := do return f (← getThe Heap)

def newArray (items : List Value) : Eval Value :=
  modifyGetThe Heap fun h => h.newArray items

def newObject (entries : List (String × Value)) : Eval Value :=
  modifyGetThe Heap fun h => h.newObject entries

/-- Writes to the heap if the write succeeds. -/
def update (f : Heap → Except EvalError Heap) : Eval Unit := do
  match f (← getThe Heap) with
  | .ok h => set h
  | .error e => throw e

def runIn {α : Type} (x : Eval α) (h : Heap) : Except EvalError α × Heap := x.run.run h

end Eval

end ViewBinding
