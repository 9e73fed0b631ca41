import ViewBinding.Association
import ViewBinding.Error

/-!
Named functions on text that a value passes through on its way into the view.
-/
namespace ViewBinding

/-- Pipes by name. No name occurs twice. -/
structure PipeRegistry where
  pipes : List (String × (String → String))
  nodup_names : (pipes.map (·.1)).Nodup

namespace PipeRegistry

def empty : PipeRegistry := ⟨[], List.nodup_nil⟩

def get? (r : PipeRegistry) (name : String) : Option (String → String) := r.pipes.lookup name

def contains (r : PipeRegistry) (name : String) : Bool := (r.get? name).isSome

/-- A pipe takes the place of an earlier one of its name. -/
def register (r : PipeRegistry) (name : String) (pipe : String → String) : PipeRegistry :=
  ⟨(name, pipe) :: r.pipes.filter (·.1 != name),
    List.nodup_cons.2 ⟨by simp, Association.nodup_keys_filter _ r.nodup_names⟩⟩

/-- A pipe that is not registered is an error of the page, not an empty text. -/
def apply (r : PipeRegistry) (name input : String) : Except Error String :=
  match r.get? name with
  | some pipe => .ok (pipe input)
  | none => .error (.unknownPipe name)

/-- The registered names in increasing order. -/
def names (r : PipeRegistry) : List String :=
  (r.pipes.map (·.1)).mergeSort fun s t => !(t < s)

def shown (r : PipeRegistry) : String :=
  "PipeRegistry \x7b pipes: [" ++ ", ".intercalate (r.names.map Text.quoted) ++ "] \x7d"

@[simp] theorem get?_register_self (r : PipeRegistry) (name : String) (pipe : String → String) :
    (r.register name pipe).get? name = some pipe := by
  simp [get?, register]

theorem get?_register_of_ne (r : PipeRegistry) {name other : String} (h : other ≠ name)
    (pipe : String → String) : (r.register name pipe).get? other = r.get? other := by
  rw [get?, register, List.lookup_cons, beq_eq_false_iff_ne.2 h]
  exact (Association.lookup_filter (· != name) other r.pipes).trans (if_pos (bne_iff_ne.2 h))

end PipeRegistry

end ViewBinding
