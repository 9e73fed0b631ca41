import ViewBinding.View.Sync

/-!
The listeners that the bindings of an element ask for.
-/
namespace ViewBinding.View

/-- The event on which an element is written back. -/
def writeBackEvent (v : View) (t : Tree) (id : NodeId) : String :=
  if t.hasAttr id v.realTimeAttribute then "input" else "change"

/-- One listener for each property that is bound. -/
def writeBackListeners (v : View) (t : Tree) (id : NodeId) (scope : Option ItemScope) : List Listener :=
  (v.entriesAt .value t id).filterMap fun b =>
    (property? b).map fun p =>
      ⟨v.writeBackEvent t id, v.name, .writeBack p, .writeBack p b.expression, scope⟩

/-- One listener for each handler that is called. -/
def handlerListeners (v : View) (t : Tree) (id : NodeId) (scope : Option ItemScope) : List Listener :=
  (v.entriesAt .event t id).filterMap fun b =>
    (Binding.handlerCall b.expression).toOption.map fun call =>
      let event := b.target.getD ""
      ⟨event, v.name, .event event, .handle call.name call.argument, scope⟩

/-- Installs the listeners of an element. -/
def listen (v : View) (scope : Option ItemScope) (d : Document) (id : NodeId) : Document :=
  let listeners := v.writeBackListeners d.tree id scope ++ v.handlerListeners d.tree id scope
  { d with listeners := listeners.foldl (·.install id ·) d.listeners }

end ViewBinding.View
