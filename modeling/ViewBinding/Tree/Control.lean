import ViewBinding.Text.Casing
import ViewBinding.Tree.Walk

/-!
Attributes, live state and values of elements.

A write that changes nothing is not counted as a change. The value of a select and the selected options
in it follow each other.
-/
namespace ViewBinding.Tree

open Markup (Flag)

def value (t : Tree) (id : NodeId) : Except Error String := do
  return (← t.element id "value").value

def flag (t : Tree) (id : NodeId) (flag : Flag) : Except Error Bool := do
  return (← t.element id flag.attribute).flag flag

/-- Attribute names have no case. -/
def attr? (t : Tree) (id : NodeId) (name : String) : Option String :=
  (t.element? id).bind (·.attrs.get? (Text.asciiLower name))

def hasAttr (t : Tree) (id : NodeId) (name : String) : Bool := (t.attr? id name).isSome

def hasClass (t : Tree) (id : NodeId) (cls : String) : Bool :=
  (t.element? id).any fun e => e.classes.contains cls

def hasTag (t : Tree) (id : NodeId) (tag : String) : Bool :=
  (t.element? id).any fun e => e.tag == tag

/-- The options below a select. -/
def options (t : Tree) (select : NodeId) : List NodeId :=
  (t.elementsBelow select).filter (t.hasTag · "option")

/-- The value of an option: its attribute, or else its text. -/
def optionValue (t : Tree) (option : NodeId) : String :=
  (t.attr? option "value").getD (t.textContent option)

/-- Gives a select the value that its options stand for. -/
def syncSelect (t : Tree) (select : NodeId) : Tree :=
  match t.element? select with
  | some e => t.setElement select { e with value := Markup.selectValue (t.inner select) }
  | none => t

/-- An option whose attributes have changed may change the value of its select. -/
def syncOption (t : Tree) (id : NodeId) (name : String) : Tree :=
  if t.hasTag id "option" && (name == "selected" || name == "value") then
    match t.ancestorWithTag? id "select" with
    | some select => t.syncSelect select
    | none => t
  else t

def setAttr (t : Tree) (id : NodeId) (name value : String) : Except Error Tree := do
  let name := Text.asciiLower name
  let e ← t.element id "setAttribute"
  if e.attrs.get? name = some value then return t
  return ((t.setElement id (e.setAttr name value)).touch).syncOption id name

def removeAttr (t : Tree) (id : NodeId) (name : String) : Except Error Tree := do
  let name := Text.asciiLower name
  let e ← t.element id "removeAttribute"
  if !e.attrs.contains name then return t
  return ((t.setElement id (e.removeAttr name)).touch).syncOption id name

def addClass (t : Tree) (id : NodeId) (cls : String) : Except Error Tree := do
  let e ← t.element id "classList"
  if e.classes.contains cls then return t
  t.setAttr id "class" (" ".intercalate (e.classes ++ [cls]))

/-- All states but `checked` are written to their attribute as well. -/
def reflected (e : Markup.Element) (flag : Flag) (on : Bool) : Markup.Element :=
  let e := e.setFlag on flag
  if flag = .checked then e
  else if on then
    if e.attrs.contains flag.attribute then e
    else { e with attrs := e.attrs.insert flag.attribute "" }
  else { e with attrs := e.attrs.erase flag.attribute }

def setFlag (t : Tree) (id : NodeId) (flag : Flag) (on : Bool) : Except Error Tree := do
  let e ← t.element id flag.attribute
  let changed := t.setElement id (reflected e flag on)
  return if e.flag flag = on then changed else changed.touch

/-- Writes the live value; a value that is there already is no change. -/
def writeValue (t : Tree) (id : NodeId) (value op : String) : Except Error Tree := do
  let e ← t.element id op
  if e.value = value then return t
  return (t.setElement id { e with value := value }).touch

/-- Marks one of the options as the selected one. -/
def select (t : Tree) (chosen : Option NodeId) (option : NodeId) : Tree :=
  match t.element? option with
  | some e =>
    let attrs := if chosen = some option then e.attrs.insert "selected" "" else e.attrs.erase "selected"
    t.setElement option { e with attrs := attrs }
  | none => t

/-- Selects the first option with a value; without one the select has the empty value. -/
def setSelectValue (t : Tree) (id : NodeId) (value : String) : Except Error Tree :=
  let options := t.options id
  let chosen := options.find? fun option => t.optionValue option = value
  (options.foldl (fun t option => t.select chosen option) t).writeValue id
    (if chosen.isSome then value else "") "select"

def setValue (t : Tree) (id : NodeId) (value : String) : Except Error Tree :=
  if t.hasTag id "select" then t.setSelectValue id value else t.writeValue id value "value"

end ViewBinding.Tree
