import ViewBinding.Error
import ViewBinding.Selector.Parser
import ViewBinding.Text.Search
import ViewBinding.Tree.Control

/-!
Which elements of a tree a selector selects.
-/
namespace ViewBinding

namespace Selector

/-- Whether an attribute value passes; an empty text is no beginning, end or part. -/
def AttributeOp.holds (op : AttributeOp) (actual value : String) : Bool :=
  let text := actual.toList
  let part := value.toList
  match op with
  | .equals => actual == value
  | .word => (Text.words Text.isAsciiBlank text).contains part
  | .startsWith => !part.isEmpty && part.isPrefixOf text
  | .endsWith => !part.isEmpty && part.isSuffixOf text
  | .contains => !part.isEmpty && (Text.find? part text).isSome

def AttributeTest.holds (test : AttributeTest) (e : Markup.Element) : Bool :=
  match e.attrs.get? test.name, test.expected with
  | none, _ => false
  | some _, none => true
  | some actual, some (op, value) => op.holds actual value

def State.holds (t : Tree) (id : NodeId) (e : Markup.Element) : State → Bool
  | .firstChild => (t.elementsBefore id).isEmpty
  | .lastChild => (t.parent? id).any fun p => (t.elementChildren p).getLast? == some id
  | .checked => e.checked
  | .disabled => e.disabled
  | .enabled => !e.disabled

def Compound.holds (compound : Compound) (t : Tree) (id : NodeId) : Bool :=
  match t.element? id with
  | none => false
  | some e =>
    compound.tag.all (· == e.tag) &&
    compound.id.all (fun id => e.attrs.get? "id" == some id) &&
    compound.classes.all e.classes.contains &&
    compound.attributes.all (·.holds e) &&
    compound.states.all (State.holds t id e)

/-- The nodes that stand to a node as a combinator says, the nearest first. -/
def Combinator.candidates (t : Tree) (id : NodeId) : Combinator → List NodeId
  | .child => (t.parent? id).toList
  | .descendant => t.ancestors id
  | .adjacent => (t.elementsBefore id).take 1
  | .sibling => t.elementsBefore id

/-- Whether compounds to the left of a node can be met. -/
def chainHolds (t : Tree) : List (Combinator × Compound) → NodeId → Bool
  | [], _ => true
  | (combinator, compound) :: rest, id =>
    (combinator.candidates t id).any fun candidate =>
      compound.holds t candidate && chainHolds t rest candidate

def Complex.holds (complex : Complex) (t : Tree) (id : NodeId) : Bool :=
  complex.subject.holds t id && chainHolds t complex.chain id

def holds (selector : Selector) (t : Tree) (id : NodeId) : Bool :=
  selector.groups.any (·.holds t id)

end Selector

/-- The elements that a selector selects, in document order. -/
def Tree.query (t : Tree) (selector : String) : Except ViewBinding.Error (List NodeId) :=
  match Selector.parse? selector with
  | some parsed => .ok (t.elements.filter (parsed.holds t))
  | none => .error (.unsupportedSelector selector)

end ViewBinding
