import ViewBinding.View.Handler
import ViewBinding.View.Render

/-!
View models: a view, the copies it has made, the expressions it has read, and the handler of its events.
-/
namespace ViewBinding

structure ViewModel (σ : Type) where
  view : View
  handler : Handler σ
  copies : List NodeId
  cache : ExprCache

/-- What view models share: the document, the heap, and the state of the handlers. -/
structure Page (σ : Type) where
  document : Document
  heap : Heap
  user : σ

/-- A view model and the page it lives on. -/
structure Session (σ : Type) where
  model : ViewModel σ
  page : Page σ

namespace ViewModel

variable {σ : Type}

/-- A new view model listens to the events of its roots; nothing is rendered yet. -/
def create (page : Page σ) (name : String) (model : Value) (options : BindingOptions)
    (pipes : PipeRegistry) (handler : Handler σ) : Except Error (Session σ) :=
  if name.isEmpty then .error (.bindingSyntax .unnamedModel)
  else
    let roots := View.rootsIn page.document.tree options name
    let (object, heap) := page.heap.newObject [("name", .string name), ("model", model)]
    let view : View := ⟨name, object, roots, options, pipes⟩
    .ok ⟨⟨view, handler, [], .empty⟩, { page with document := view.listenAll page.document, heap := heap }⟩

def name (vm : ViewModel σ) : String := vm.view.name

def model (vm : ViewModel σ) (h : Heap) : Value := h.get vm.view.object "model"

def context (vm : ViewModel σ) (d : Document) : HandlerContext := ⟨vm.name, vm.view.object, d⟩

end ViewModel

namespace Session

variable {σ : Type}

/-- The result of an action and the session afterwards. -/
abbrev Outcome (σ : Type) := Except Error Unit × Session σ

/-- Brings the page up to date. -/
def render (s : Session σ) : Outcome σ :=
  let (result, pass) :=
    s.model.view.render.run.run ⟨s.page.document, s.page.heap, s.model.copies, s.model.cache⟩
  (result,
    ⟨{ s.model with copies := pass.copies, cache := pass.cache },
      { s.page with document := pass.document, heap := pass.heap }⟩)

/-- Goes on after success. -/
def andThen (o : Outcome σ) (f : Session σ → Outcome σ) : Outcome σ :=
  match o with
  | (.ok (), s) => f s
  | (.error e, s) => (.error e, s)

/-- Runs a part of the handler. The flag says whether it asked for a pass over the page. -/
def runHandler (s : Session σ) (x : HandlerContext → Handling σ Unit) :
    Except Error Bool × Session σ :=
  let (result, after) :=
    (x (s.model.context s.page.document)).run.run ⟨s.page.heap, false, s.page.user⟩
  (result.map fun _ => after.renderRequested,
    { s with page := { s.page with heap := after.heap, user := after.user } })

/-- Runs the start of the handler, then the first pass over the page. -/
def initialise (s : Session σ) : Outcome σ :=
  let (result, s) := s.runHandler s.model.handler.onInit
  match result with
  | .ok _ => s.render
  | .error e => (.error e, s)

def writeObject (s : Session σ) (key : String) (value : Value) : Outcome σ :=
  match s.page.heap.set s.model.view.object key value with
  | .ok h => (.ok (), { s with page := { s.page with heap := h } })
  | .error e => (.error (.expressionRuntime e), s)

/-- Replaces the model; the page catches up with the next pass. -/
def setModel (s : Session σ) (model : Value) : Outcome σ := s.writeObject "model" model

/-- Shows a further property to expressions as `$vm.key`; the name is reserved. -/
def setProperty (s : Session σ) (key : String) (value : Value) : Outcome σ :=
  if key = "name" then (.error (.bindingSyntax .reservedName), s) else s.writeObject key value

end Session

end ViewBinding
