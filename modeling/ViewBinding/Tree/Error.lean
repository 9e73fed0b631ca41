/-!
Handles of nodes, and the ways in which an operation on a tree fails.
-/
namespace ViewBinding

/--
A slot and the number of times it had been given back when the node took it. A handle to a removed node
names nothing, whatever is in its slot.
-/
structure NodeId where
  slot : Nat
  generation : UInt32
  deriving Repr, DecidableEq

namespace Tree

inductive Error where
  | unknownNode (id : NodeId)
  | notElement (op : String)
  | invalidNode (op : String)
  | cycle (op : String)
  | detached
  | copyOfRoot
  | removalOfRoot
  /-- A failure that an application reports in its own words. -/
  | described (text : String)
  deriving Repr, DecidableEq

def Error.message : Error → String
  | .unknownNode id => s!"unknown node: node#{id.slot}.{id.generation}"
  | .notElement op => s!"{op} target is not an element"
  | .invalidNode op => s!"invalid {op} node"
  | .cycle op => s!"{op} would create a cycle"
  | .detached => "insertAfter target is detached"
  | .copyOfRoot => "cannot clone the document node"
  | .removalOfRoot => "cannot remove document root"
  | .described text => text

end Tree

end ViewBinding
