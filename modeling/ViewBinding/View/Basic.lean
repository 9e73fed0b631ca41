import ViewBinding.Document
import ViewBinding.Evaluation
import ViewBinding.Pipe

/-!
Views: what a view model knows of the page, and what a pass over the page works on.
-/
namespace ViewBinding

/-- The names that a view model uses in the page. -/
structure BindingOptions where
  /-- The attribute that names the view model of an element. -/
  rootMarker : String
  /-- What the classes of copies start with. -/
  classStart : String
  /-- The attribute that list templates are hidden by. -/
  hiddenAttribute : String
  deriving Repr, DecidableEq

def BindingOptions.standard : BindingOptions := ⟨"ft-view-model", "ft-foreach", "hidden"⟩

structure View where
  name : String
  /-- The object that expressions see as `$vm`. -/
  object : Value
  roots : List NodeId
  options : BindingOptions
  pipes : PipeRegistry

namespace View

/-- The attribute with the bindings of a kind. -/
def attributeName (v : View) (kind : BindingKind) : String := kind.attributeName v.name

/-- The attribute of elements that are written back while the user types. -/
def realTimeAttribute (v : View) : String := v.name ++ "-real-time-bind"

/-- The variables outside of lists. -/
def scope (v : View) : Scope := OrderedMap.empty.insert "$vm" v.object

/-- A hash of the bytes of a text that does not change between runs. -/
def hash (s : String) : UInt32 :=
  s.toUTF8.toList.foldl (fun h byte => (h ^^^ byte.toUInt32) * 0x01000193) 0x811c9dc5

def eightDigits (n : UInt32) : String :=
  let digits := Text.hexDigits n.toNat
  String.ofList (List.replicate (8 - digits.length) '0' ++ digits)

/-- The class of the copies that a list expression makes. -/
def copyClass (v : View) (expression : String) : String :=
  let expression := trimmed expression
  v.options.classStart ++ "-" ++ Binding.classSafe expression ++ "-" ++ eightDigits (hash expression)

/-- The copies of a list expression in document order. -/
def copies (v : View) (d : Document) (expression : String) : List NodeId :=
  d.tree.elements.filter (d.tree.hasClass · (v.copyClass expression))

/-- The elements of a page that are marked with the name of a view model. -/
def rootsIn (t : Tree) (options : BindingOptions) (name : String) : List NodeId :=
  t.elements.filter fun id => t.attr? id options.rootMarker == some name

end View

/--
What a pass reads and writes: the document, the heap, the roots of the copies that were made, and the
expressions that have been read.
-/
structure Pass where
  document : Document
  heap : Heap
  copies : List NodeId
  cache : ExprCache

/-- A step of a pass. A failed step keeps what it has done. -/
abbrev Render (α : Type) := ExceptT Error (StateM Pass) α

namespace Render

def tree : Render Tree := do return (← getThe Pass).document.tree

def view {α : Type} (f : Pass → α) : Render α := do return f (← getThe Pass)

def editDocument (f : Document → Document) : Render Unit :=
  modifyThe Pass fun p => { p with document := f p.document }

def setTree (t : Tree) : Render Unit := editDocument fun d => { d with tree := t }

/-- Changes the tree if the change succeeds. -/
def edit (f : Tree → Except Tree.Error Tree) : Render Unit := do
  match f (← tree) with
  | .ok t => setTree t
  | .error e => throw (.invalidTree e)

/-- The result of an expression. -/
def evaluate (source : String) (scope : Scope) : Render (Except Error Value) :=
  modifyGetThe Pass fun p =>
    match p.cache.evaluate source scope p.heap with
    | ((result, h), cache) => (result, { p with heap := h, cache := cache })

/-- The value of an expression; a failed one counts as the empty text. -/
def evaluateOrBlank (source : String) (scope : Scope) : Render Value := do
  match ← evaluate source scope with
  | .ok value => return value
  | .error _ => return .string ""

end Render

end ViewBinding
