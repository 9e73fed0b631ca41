import ViewBinding.View.Basic

/-!
Handlers: what an application does when an event reaches a bound element.

A handler reads the document, reads and writes the model, may ask for a pass over the page, and has a state
of its own.
-/
namespace ViewBinding

structure Event where
  type : String
  /-- The element on which the event was fired. -/
  target : NodeId
  /-- The element whose binding is being handled. -/
  current : NodeId
  deriving Repr, DecidableEq

/-- What a handler reads. -/
structure HandlerContext where
  name : String
  /-- The object that expressions see as `$vm`. -/
  object : Value
  document : Document

/-- What a handler writes. -/
structure HandlerState (σ : Type) where
  heap : Heap
  renderRequested : Bool
  user : σ

/-- A failed handler keeps what it has written. -/
abbrev Handling (σ α : Type) := ExceptT Error (StateM (HandlerState σ)) α

namespace HandlerContext

variable {σ : Type}

def model (ctx : HandlerContext) (h : Heap) : Value := h.get ctx.object "model"

/-- Asks for a pass over the page. -/
def requestRender : Handling σ Unit :=
  modifyThe (HandlerState σ) fun s => { s with renderRequested := true }

/-- Replaces the model and asks for a pass over the page. -/
def setModel (ctx : HandlerContext) (model : Value) : Handling σ Unit := do
  let s ← getThe (HandlerState σ)
  match s.heap.set ctx.object "model" model with
  | .ok h => set { s with heap := h, renderRequested := true }
  | .error e => throw (.expressionRuntime e)

/-- Evaluates an expression. -/
def evaluate (source : String) (scope : Scope) : Handling σ Value := do
  let s ← getThe (HandlerState σ)
  match ViewBinding.evaluate source scope s.heap with
  | (result, h) =>
    set { s with heap := h }
    result

end HandlerContext

structure Handler (σ : Type) where
  onInit : HandlerContext → Handling σ Unit
  /-- Gets the event, the name of the handler and the value of its argument. -/
  onEvent : HandlerContext → Event → String → Value → Handling σ Unit

/-- The handler of a view model that was given none; every event fails. -/
def Handler.none (σ : Type) : Handler σ where
  onInit _ := return
  onEvent _ _ handler _ := throw (.handlerNotImplemented handler)

end ViewBinding
