import ViewBinding.Listener
import ViewBinding.Selector.Match

/-!
Documents: a tree and the listeners on it, which several view models may share.
-/
namespace ViewBinding

structure Document where
  tree : Tree
  listeners : ListenerStore

namespace Document

def parse (html : String) : Except Error Document :=
  match Markup.parse html with
  | .ok content => .ok ⟨.ofMarkup content, .empty⟩
  | .error e => .error (.htmlParse e)

/-- The selected elements in document order. -/
def selectAll (d : Document) (selector : String) : Except Error (List NodeId) := d.tree.query selector

/-- The first selected element, if there is one. -/
def select? (d : Document) (selector : String) : Except Error (Option NodeId) := do
  return (← d.selectAll selector).head?

/-- The first selected element; it is an error if there is none. -/
def select (d : Document) (selector : String) : Except Error NodeId := do
  match ← d.select? selector with
  | some id => return id
  | none => throw (.selectorNotFound selector)

def text (d : Document) (selector : String) : Except Error String := do
  return d.tree.textContent (← d.select selector)

def attr (d : Document) (selector name : String) : Except Error (Option String) := do
  return d.tree.attr? (← d.select selector) name

def value (d : Document) (selector : String) : Except Error String := do
  liftError .invalidTree (d.tree.value (← d.select selector))

def checked (d : Document) (selector : String) : Except Error Bool := do
  liftError .invalidTree (d.tree.flag (← d.select selector) .checked)

def dump (d : Document) : String := d.tree.dump Tree.root

def dumpOf (d : Document) (selector : String) : Except Error String := do
  return d.tree.dump (← d.select selector)

/-- Carries a change of the tree over to the document. -/
def edit (d : Document) (f : Tree → Except Tree.Error Tree) : Except Error Document := do
  return { d with tree := ← liftError .invalidTree (f d.tree) }

/-- Sets the value of a control without an event. -/
def setValue (d : Document) (selector value : String) : Except Error Document := do
  let id ← d.select selector
  d.edit (·.setValue id value)

/-- Sets the state of a box without an event. -/
def setChecked (d : Document) (selector : String) (checked : Bool) : Except Error Document := do
  let id ← d.select selector
  d.edit (·.setFlag id .checked checked)

/-- At most `n` characters of a text, and an ellipsis if that cuts it short. -/
def cut (n : Nat) (s : String) : String :=
  if s.length ≤ n then s else String.ofList (s.toList.take n) ++ "..."

/-- The error of an expectation that an element does not meet. -/
def mismatch (d : Document) (selector : String) (id : NodeId) (expected actual : String) : Error :=
  .assertionFailed selector expected actual (cut 200 (d.tree.dump id))

def assertText (d : Document) (selector expected : String) : Except Error Unit := do
  let id ← d.select selector
  let actual := d.tree.textContent id
  if actual ≠ expected then throw (d.mismatch selector id expected actual)

def assertValue (d : Document) (selector expected : String) : Except Error Unit := do
  let id ← d.select selector
  let actual ← liftError .invalidTree (d.tree.value id)
  if actual ≠ expected then throw (d.mismatch selector id expected actual)

def assertChecked (d : Document) (selector : String) (expected : Bool) : Except Error Unit := do
  let id ← d.select selector
  let actual ← liftError .invalidTree (d.tree.flag id .checked)
  if actual ≠ expected then throw (d.mismatch selector id (toString expected) (toString actual))

def attributeShown (name : String) : Option String → String
  | some value => name ++ "=" ++ Text.quoted value
  | none => "no " ++ name ++ " attribute"

/-- Expects a value of an attribute, or its absence. -/
def assertAttr (d : Document) (selector name : String) (expected : Option String) : Except Error Unit := do
  let id ← d.select selector
  let actual := d.tree.attr? id name
  if actual ≠ expected then
    throw (d.mismatch selector id (attributeShown name expected) (attributeShown name actual))

def assertExists (d : Document) (selector : String) : Except Error Unit := do
  let _ ← d.select selector

end Document

end ViewBinding
