import ViewBinding.View.Install
import ViewBinding.View.Scan

/-!
Lists: a template makes one copy for each item of an array.

The copies of the last pass are removed before new ones are made, but only once the expression has yielded
an array; otherwise they stay. The depth of templates within templates bounds the work: a template is
larger than the templates in it.
-/
namespace ViewBinding.View

/-- The items of a list expression; `none` if it fails or yields something else than an array. -/
def iterate (source : String) (scope : Scope) : Render (Option (List Value)) := do
  match ← Render.evaluate source scope with
  | .ok value => Render.view (·.heap.items? value)
  | .error _ => return none

/-- Drops a copy with its listeners and all record of it. -/
def dropCopy (id : NodeId) : Render Unit := do
  let nodes := (← Render.tree).preorder id
  modifyThe Pass fun p =>
    { p with
      document := { p.document with listeners := p.document.listeners.purge nodes }
      copies := p.copies.filter fun copy => !nodes.contains copy }
  Render.edit (·.remove id)

/-- The copies beside a template that carry its class. -/
def staleCopies (t : Tree) (copies : List NodeId) (template : NodeId) (cls : String) : List NodeId :=
  match t.parent? template with
  | none => []
  | some p => (t.elementChildren p).filter fun id => copies.contains id && t.hasClass id cls

def tearDown (template : NodeId) (cls : String) : Render Unit := do
  let stale ← Render.view fun p => staleCopies p.document.tree p.copies template cls
  stale.forM dropCopy

/-- Puts a copy of a template behind `anchor`, without the marks of a template. -/
def insertCopy (v : View) (template anchor : NodeId) : Render NodeId := do
  match (← Render.tree).copy template with
  | .error e => throw (.invalidTree e)
  | .ok (copy, t) =>
    Render.setTree t
    Render.edit (·.removeAttr copy (v.attributeName .foreach))
    Render.edit (·.removeAttr copy v.options.hiddenAttribute)
    Render.edit (·.insertAfter anchor copy)
    return copy

/-- Binds a copy and what is in it; `nested` makes the lists in it. -/
def bindCopy (v : View) (nested : NodeId → Scope → Render Unit) (copy : NodeId) (item : ItemScope) :
    Render Unit := do
  let found ← Render.view fun p => v.scan p.document.tree p.copies copy
  v.sync item.scope found.elements
  Render.editDocument fun d => found.elements.foldl (v.listen (some item)) d
  found.templates.forM (nested · item.scope)

/-- Makes the copies of the items from `index` on behind `anchor`. -/
def makeCopies (v : View) (nested : NodeId → Scope → Render Unit) (template : NodeId) (scope : Scope)
    (cls : String) : List Value → Nat → NodeId → Render Unit
  | [], _, _ => return
  | item :: rest, index, anchor => do
    let copy ← v.insertCopy template anchor
    v.bindCopy nested copy (.within scope item index)
    Render.edit (·.addClass copy cls)
    modifyThe Pass fun p => { p with copies := copy :: p.copies }
    v.makeCopies nested template scope cls rest (index + 1) copy

/-- The expression of a template, if it is not blank. -/
def listExpression? (v : View) (t : Tree) (template : NodeId) : Option String :=
  (v.entriesAt .foreach t template).head?.map (·.expression)

def renderListWithin (v : View) : Nat → NodeId → Scope → Render Unit
  | 0, _, _ => return
  | fuel + 1, template, scope => do
    let t ← Render.tree
    if !t.isConnected template then return
    match v.listExpression? t template with
    | none => return
    | some expression =>
      match ← iterate expression scope with
      | none => return
      | some items =>
        let cls := v.copyClass expression
        tearDown template cls
        v.makeCopies (v.renderListWithin fuel) template scope cls items 0 template
        Render.edit (·.setAttr template v.options.hiddenAttribute "")

/-- Makes the copies of a template anew. -/
def renderList (v : View) (template : NodeId) (scope : Scope) : Render Unit := do
  v.renderListWithin (← Render.tree).slots.size template scope

end ViewBinding.View
