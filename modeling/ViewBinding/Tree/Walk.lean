import ViewBinding.Markup.Write
import ViewBinding.Tree.Basic

/-!
Walks through a tree: document order, ancestors, and the markup of a node.

No path in a tree is longer than the number of slots, which bounds every walk.
-/
namespace ViewBinding.Tree

def preorderWithin (t : Tree) : Nat → NodeId → List NodeId
  | 0, _ => []
  | fuel + 1, id => id :: (t.children id).flatMap (t.preorderWithin fuel)

/-- A node and all nodes below it, in document order. -/
def preorder (t : Tree) (id : NodeId) : List NodeId := t.preorderWithin t.slots.size id

/-- The elements below a node, in document order. -/
def elementsBelow (t : Tree) (id : NodeId) : List NodeId :=
  ((t.children id).flatMap t.preorder).filter t.isElement

/-- The elements of the document, in document order. -/
def elements (t : Tree) : List NodeId := t.elementsBelow root

def elementChildren (t : Tree) (id : NodeId) : List NodeId := (t.children id).filter t.isElement

def ancestorsWithin (t : Tree) : Nat → NodeId → List NodeId
  | 0, _ => []
  | fuel + 1, id =>
    match t.parent? id with
    | some p => p :: t.ancestorsWithin fuel p
    | none => []

/-- The ancestors of a node, its parent first. -/
def ancestors (t : Tree) (id : NodeId) : List NodeId := t.ancestorsWithin t.slots.size id

/-- Whether a node is the document or below it. -/
def isConnected (t : Tree) (id : NodeId) : Bool := (id :: t.ancestors id).contains root

/-- The elements before an element below the same parent, the nearest first. -/
def elementsBefore (t : Tree) (id : NodeId) : List NodeId :=
  match t.parent? id with
  | some p => ((t.elementChildren p).takeWhile (· != id)).reverse
  | none => []

def contentWithin (t : Tree) : Nat → NodeId → List Markup
  | 0, _ => []
  | fuel + 1, id =>
    match t.get? id with
    | none => []
    | some s =>
      match s.data with
      | .document => s.children.flatMap (t.contentWithin fuel)
      | .text text => [.text text]
      | .element e => [.element e (s.children.flatMap (t.contentWithin fuel))]

/-- A node as markup; the document is what is in it, and a handle that names nothing is no markup. -/
def content (t : Tree) (id : NodeId) : List Markup := t.contentWithin t.slots.size id

/-- What is in a node. -/
def inner (t : Tree) (id : NodeId) : List Markup := (t.children id).flatMap t.content

def textContent (t : Tree) (id : NodeId) : String := Markup.textOf (t.content id)

/-- A node as text. -/
def dump (t : Tree) (id : NodeId) : String := Markup.writeAll (t.content id)

def innerHtml (t : Tree) (id : NodeId) : Except Error String := do
  let _ ← t.element id "innerHTML"
  return Markup.writeAll (t.inner id)

/-- The nearest ancestor with a tag. -/
def ancestorWithTag? (t : Tree) (id : NodeId) (tag : String) : Option NodeId :=
  (t.ancestors id).find? fun a => ((t.element? a).map (·.tag)) == some tag

end ViewBinding.Tree
