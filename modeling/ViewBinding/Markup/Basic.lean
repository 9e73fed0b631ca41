import ViewBinding.Markup.Attributes
import ViewBinding.Text.Class

/-!
Elements with their live state, and markup as plain trees of elements and texts.
-/
namespace ViewBinding

namespace Markup

/-- Yes-or-no state of an element that starts out as an attribute of the same name. -/
inductive Flag where
  | checked | disabled | readonly | required
  deriving Repr, DecidableEq

def Flag.attribute : Flag → String
  | .checked => "checked"
  | .disabled => "disabled"
  | .readonly => "readonly"
  | .required => "required"

/-- The state that an attribute is tied to. -/
def Flag.ofAttribute? : String → Option Flag
  | "checked" => some .checked
  | "disabled" => some .disabled
  | "readonly" => some .readonly
  | "required" => some .required
  | _ => none

structure Element where
  tag : String
  attrs : Attributes
  value : String
  checked : Bool
  disabled : Bool
  readonly : Bool
  required : Bool
  deriving Repr, DecidableEq

/-- Elements without content and without an end tag. -/
def isVoid (tag : String) : Bool :=
  ["area", "base", "br", "col", "embed", "hr", "img", "input", "link", "meta", "param", "source",
   "track", "wbr"].contains tag

namespace Element

/-- The state that the attributes give a new element. -/
def new (tag : String) (attrs : Attributes) : Element where
  tag := tag
  attrs := attrs
  value := (attrs.get? "value").getD ""
  checked := attrs.contains "checked"
  disabled := attrs.contains "disabled"
  readonly := attrs.contains "readonly"
  required := attrs.contains "required"

def flag (e : Element) : Flag → Bool
  | .checked => e.checked
  | .disabled => e.disabled
  | .readonly => e.readonly
  | .required => e.required

def setFlag (e : Element) (on : Bool) : Flag → Element
  | .checked => { e with checked := on }
  | .disabled => { e with disabled := on }
  | .readonly => { e with readonly := on }
  | .required => { e with required := on }

/-- Writes an attribute and the state that is tied to it. -/
def setAttr (e : Element) (name value : String) : Element :=
  let e := { e with attrs := e.attrs.insert name value }
  if name = "value" then { e with value := value }
  else
    match Flag.ofAttribute? name with
    | some flag => e.setFlag true flag
    | none => e

/-- Takes an attribute away and resets the state that is tied to it. -/
def removeAttr (e : Element) (name : String) : Element :=
  let e := { e with attrs := e.attrs.erase name }
  if name = "value" then { e with value := "" }
  else
    match Flag.ofAttribute? name with
    | some flag => e.setFlag false flag
    | none => e

/-- The classes of an element, separated by white space. -/
def classes (e : Element) : List String :=
  (Text.words Text.isBlank ((e.attrs.get? "class").getD "").toList).map String.ofList

end Element

end Markup

/-- A text, or an element with what is in it. -/
inductive Markup where
  | text (text : String)
  | element (element : Markup.Element) (children : List Markup)

namespace Markup

instance : Inhabited Markup := ⟨.text ""⟩

mutual

/-- All text in document order. -/
def textContent : Markup → String
  | .text s => s
  | .element _ children => textOf children

def textOf : List Markup → String
  | [] => ""
  | m :: rest => m.textContent ++ textOf rest

end

mutual

/-- The elements in document order, each with what is in it. -/
def elements : Markup → List (Element × List Markup)
  | .text _ => []
  | .element e children => (e, children) :: elementsOf children

def elementsOf : List Markup → List (Element × List Markup)
  | [] => []
  | m :: rest => m.elements ++ elementsOf rest

end

/-- The value of an option: its attribute, or else its text. -/
def optionValue (e : Element) (children : List Markup) : String :=
  (e.attrs.get? "value").getD (textOf children)

/-- The options in the content of a select. -/
def options (children : List Markup) : List (Element × List Markup) :=
  (elementsOf children).filter fun option => option.1.tag = "option"

/-- The value of the first selected option, or else of the first one. -/
def selectValue (children : List Markup) : String :=
  let options := options children
  match (options.find? fun option => option.1.attrs.contains "selected").or options.head? with
  | some (e, inner) => optionValue e inner
  | none => ""

/-- The state that the content gives a text area or a select. -/
def seeded (e : Element) (children : List Markup) : Element :=
  if e.tag = "textarea" then { e with value := textOf children }
  else if e.tag = "select" then { e with value := selectValue children }
  else e

mutual

/-- Gives every control the value that its content stands for. -/
def seed : Markup → Markup
  | .text s => .text s
  | .element e children => .element (seeded e children) (seedAll children)

def seedAll : List Markup → List Markup
  | [] => []
  | m :: rest => m.seed :: seedAll rest

end

end Markup

end ViewBinding
