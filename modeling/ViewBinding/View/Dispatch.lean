import ViewBinding.View.Model
import ViewBinding.View.Path

/-!
Events: they start at an element and go up to the document, and every listener of the view model on the way
runs once. A failed listener stops neither the others nor the pass that follows.
-/
namespace ViewBinding

namespace Session

variable {σ : Type}

/-- Copies a property of the target into the model. The flag says whether the model was written. -/
def writeBack (s : Session σ) (target : NodeId) (p : Property) (path : String)
    (scope : Option ItemScope) : Except Error Bool × Session σ :=
  match p.read s.page.document.tree target with
  | .error e => (.error (.invalidTree e), s)
  | .ok value =>
    match s.model.view.writePath? s.page.heap path scope value with
    | some h => (.ok true, { s with page := { s.page with heap := h } })
    | none => (.ok false, s)

/-- The value of an argument; a failed one counts as the empty text. -/
def argument (s : Session σ) (source : Option String) (scope : Option ItemScope) : Value × Session σ :=
  match source with
  | none => (.undefined, s)
  | some source =>
    match s.model.cache.evaluate source ((scope.map (·.scope)).getD s.model.view.scope) s.page.heap with
    | ((result, h), cache) =>
      (match result with
        | .ok value => value
        | .error _ => .string "",
        { s with model := { s.model with cache := cache }, page := { s.page with heap := h } })

/-- Runs a listener. The flag says whether a pass over the page is to follow. -/
def runListener (s : Session σ) (event : Event) (listener : Listener) : Except Error Bool × Session σ :=
  match listener.action with
  | .handle handler source =>
    let (value, s) := s.argument source listener.scope
    s.runHandler fun ctx => s.model.handler.onEvent ctx event handler value
  | .writeBack p path => s.writeBack event.target p path listener.scope

/-- What the listeners so far ask for: a pass over the page, and the first error. -/
structure Progress where
  render : Bool
  failure : Option Error

/-- Runs one more listener that an event meets. -/
def step (type : String) (target : NodeId) (state : Progress × Session σ) (met : NodeId × Listener) :
    Progress × Session σ :=
  let (progress, s) := state
  match s.runListener ⟨type, target, met.1⟩ met.2 with
  | (.ok requested, s) => ({ progress with render := progress.render || requested }, s)
  | (.error e, s) => ({ progress with failure := progress.failure.or (some e) }, s)

/-- The listeners that an event meets, with the elements they are on. -/
def met (s : Session σ) (target : NodeId) (type : String) : List (NodeId × Listener) :=
  (target :: s.page.document.tree.ancestors target).flatMap fun id =>
    (s.page.document.listeners.matching id s.model.name type).map (id, ·)

/--
Fires an event on an element. A pass over the page follows if a listener wrote to the model or asked for it;
its error comes before the first error of a listener.
-/
def dispatch (s : Session σ) (target : NodeId) (type : String) : Outcome σ :=
  if !s.page.document.tree.isLive target then (.error (.invalidTree (.unknownNode target)), s)
  else
    let (progress, s) := (s.met target type).foldl (step type target) (⟨false, none⟩, s)
    andThen (if progress.render then s.render else (.ok (), s)) fun s =>
      match progress.failure with
      | some e => (.error e, s)
      | none => (.ok (), s)

/-- Acts on the first selected element. -/
def onSelected (s : Session σ) (selector : String) (f : NodeId → Outcome σ) : Outcome σ :=
  match s.page.document.select selector with
  | .ok id => f id
  | .error e => (.error e, s)

/-- Changes the tree if the change succeeds. -/
def edit (s : Session σ) (f : Tree → Except Tree.Error Tree) : Outcome σ :=
  match s.page.document.edit f with
  | .ok d => (.ok (), { s with page := { s.page with document := d } })
  | .error e => (.error e, s)

def click (s : Session σ) (selector : String) : Outcome σ :=
  s.onSelected selector fun id => s.dispatch id "click"

/-- Sets a value as typing does: an `input` event follows. -/
def typeText (s : Session σ) (selector text : String) : Outcome σ :=
  s.onSelected selector fun id =>
    andThen (s.edit (·.setValue id text)) fun s => s.dispatch id "input"

/-- The events of a changed control: `input`, then `change`. -/
def dispatchChange (s : Session σ) (id : NodeId) : Outcome σ :=
  andThen (s.dispatch id "input") fun s => s.dispatch id "change"

def changeValue (s : Session σ) (selector value : String) : Outcome σ :=
  s.onSelected selector fun id =>
    andThen (s.edit (·.setValue id value)) fun s => s.dispatchChange id

def setChecked (s : Session σ) (selector : String) (checked : Bool) : Outcome σ :=
  s.onSelected selector fun id =>
    andThen (s.edit (·.setFlag id .checked checked)) fun s => s.dispatchChange id

end Session

end ViewBinding
