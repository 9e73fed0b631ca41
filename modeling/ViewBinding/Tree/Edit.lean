import ViewBinding.Tree.Walk

/-!
Changing the shape of a tree: copying, inserting, replacing and removing nodes.
-/
namespace ViewBinding.Tree

/-- Gives a slot back. A handle that names nothing is passed over. -/
def freeSlot (t : Tree) (id : NodeId) : Tree :=
  if t.isLive id then
    { t.modify id fun s => ⟨s.generation + 1, none, [], .text ""⟩ with free := id.slot :: t.free }
  else t

/-- Gives back the slots of a node and of all nodes below it. -/
def release (t : Tree) (id : NodeId) : Tree := (t.preorder id).foldl freeSlot t

/-- Takes away all that is in a node. -/
def clear (t : Tree) (id : NodeId) : Tree :=
  let children := t.children id
  children.foldl release (t.modify id fun s => { s with children := [] })

def setTextContent (t : Tree) (id : NodeId) (text : String) : Except Error Tree := do
  let _ ← t.element id "textContent"
  return ((t.clear id).fill id (if text.isEmpty then [] else [.text text])).touch

/-- Replaces what is in an element. -/
def replaceInner (t : Tree) (id : NodeId) (content : List Markup) : Except Error Tree := do
  let _ ← t.element id "innerHTML"
  return ((t.clear id).fill id content).touch

/-- Copies a node and what is in it; the copy has no parent. -/
def copy (t : Tree) (id : NodeId) : Except Error (NodeId × Tree) :=
  match t.get? id with
  | none => .error (.unknownNode id)
  | some s =>
    match s.data, t.content id with
    | .document, _ => .error .copyOfRoot
    | _, m :: _ => .ok (place none m t)
    | _, [] => .error (.unknownNode id)

/-- Takes a node out of the list of its parent. -/
def unlink (t : Tree) (id : NodeId) : Tree :=
  match t.parent? id with
  | some p => t.modify p fun s => { s with children := s.children.filter (· != id) }
  | none => t

/-- Puts `child` behind `target` in a list of siblings. -/
def insertBehind (target child : NodeId) : List NodeId → List NodeId
  | [] => []
  | id :: rest => if id = target then id :: child :: rest else id :: insertBehind target child rest

/-- Makes a node the next sibling of another one. -/
def insertAfter (t : Tree) (target child : NodeId) : Except Error Tree :=
  match t.parent? target with
  | none => .error .detached
  | some p =>
    if child = root ∨ child = target ∨ t.isLive child = false then .error (.invalidNode "insertAfter")
    else if (p :: t.ancestors p).contains child then .error (.cycle "insertAfter")
    else
      let t := (t.unlink child).modify child fun s => { s with parent := some p }
      .ok (t.modify p fun s => { s with children := insertBehind target child s.children }).touch

/-- Removes a node and what is in it. -/
def remove (t : Tree) (id : NodeId) : Except Error Tree :=
  if id = root then .error .removalOfRoot
  else
    let unlinked := if (t.parent? id).isSome then (t.unlink id).touch else t
    .ok (unlinked.release id)

end ViewBinding.Tree
