import ViewBinding.Markup.Forest
import ViewBinding.Tree.Control
import ViewBinding.Tree.Edit
import ViewBinding.Value.Conversion

/-!
The properties of elements that values can be bound to.
-/
namespace ViewBinding

namespace Tree

/--
Replaces what is in an element by markup, unless it reads the same already. A text that is no markup is
written as a text.
-/
def setInnerMarkup (t : Tree) (id : NodeId) (markup : String) : Except Error Tree :=
  match Markup.parse markup with
  | .error _ => if t.textContent id = markup then .ok t else t.setTextContent id markup
  | .ok content => do
    if (← t.innerHtml id) = Markup.writeAll content then return t
    t.replaceInner id content

end Tree

inductive Property where
  | value | checked | disabled | readOnly | required | hidden
  | textContent | innerHtml | className | id
  deriving Repr, DecidableEq

namespace Property

def name : Property → String
  | .value => "value"
  | .checked => "checked"
  | .disabled => "disabled"
  | .readOnly => "readOnly"
  | .required => "required"
  | .hidden => "hidden"
  | .textContent => "textContent"
  | .innerHtml => "innerHTML"
  | .className => "className"
  | .id => "id"

def all : List Property :=
  [.value, .checked, .disabled, .readOnly, .required, .hidden, .textContent, .innerHtml, .className, .id]

/-- Names are matched exactly, case included. -/
def ofName? (name : String) : Option Property := all.find? (·.name = name)

def isBoolean : Property → Bool
  | .checked | .disabled | .readOnly | .required | .hidden => true
  | _ => false

theorem ofName?_name (p : Property) : ofName? p.name = some p := by cases p <;> decide

/-- The present value, as it is written back into a model. -/
def read (p : Property) (t : Tree) (id : NodeId) : Except Tree.Error Value :=
  match p with
  | .checked => return .bool (← t.flag id .checked)
  | .disabled => return .bool (← t.flag id .disabled)
  | .readOnly => return .bool (← t.flag id .readonly)
  | .required => return .bool (← t.flag id .required)
  | .value => return .string (← t.value id)
  | .hidden => .ok (.bool (t.hasAttr id "hidden"))
  | .textContent => .ok (.string (t.textContent id))
  | .innerHtml => return .string (← t.innerHtml id)
  | .className => .ok (.string ((t.attr? id "class").getD ""))
  | .id => .ok (.string ((t.attr? id "id").getD ""))

/-- Boolean properties take the truth of a value and the others its text. -/
def write (p : Property) (h : Heap) (t : Tree) (id : NodeId) (v : Value) : Except Tree.Error Tree :=
  let text := h.display v
  match p with
  | .checked => t.setFlag id .checked v.truthy
  | .disabled => t.setFlag id .disabled v.truthy
  | .readOnly => t.setFlag id .readonly v.truthy
  | .required => t.setFlag id .required v.truthy
  | .value => t.setValue id text
  | .hidden => if v.truthy then t.setAttr id "hidden" "" else t.removeAttr id "hidden"
  | .textContent => if t.textContent id = text then .ok t else t.setTextContent id text
  | .innerHtml => t.setInnerMarkup id text
  | .className => t.setAttr id "class" text
  | .id => t.setAttr id "id" text

end Property

end ViewBinding
