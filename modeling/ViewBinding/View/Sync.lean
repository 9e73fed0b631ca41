import ViewBinding.View.Basic

/-!
Bringing elements up to date: attributes, then content, then live properties.

Malformed entries and unknown properties are skipped, and an expression that fails counts as the empty text.
-/
namespace ViewBinding.View

/-- The well-formed entries of an attribute. -/
def entries (kind : BindingKind) (raw : String) : List Binding :=
  (Binding.parseAll kind raw).filterMap Except.toOption

/-- The entries on an element. -/
def entriesAt (v : View) (kind : BindingKind) (t : Tree) (id : NodeId) : List Binding :=
  ((t.attr? id (v.attributeName kind)).map (entries kind)).getD []

/-- Sends the text of a value through a pipe, if there is one. -/
def piped (v : View) (pipe : Option String) (value : Value) : Render (Option String) := do
  match pipe with
  | none => return none
  | some name =>
    let input ← Render.view (·.heap.display value)
    return some (← v.pipes.apply name input)

def isFalse : Value → Bool
  | .bool b => !b
  | _ => false

/-- Writes an attribute; without a pipe the boolean `false` takes it away. -/
def bindAttribute (v : View) (scope : Scope) (id : NodeId) (b : Binding) : Render Unit := do
  match b.target with
  | none => return
  | some target =>
    let value ← Render.evaluateOrBlank b.expression scope
    match ← v.piped b.pipe value with
    | some text => Render.edit (·.setAttr id target text)
    | none =>
      if isFalse value then Render.edit (·.removeAttr id target)
      else
        let text ← Render.view (·.heap.display value)
        Render.edit (·.setAttr id target text)

def bindAttributes (v : View) (scope : Scope) (id : NodeId) : Render Unit := do
  (v.entriesAt .attr (← Render.tree) id).forM (v.bindAttribute scope id)

/-- Replaces the inner markup of an element. -/
def bindContentEntry (v : View) (scope : Scope) (id : NodeId) (b : Binding) : Render Unit := do
  let value ← Render.evaluateOrBlank b.expression scope
  let shown ← v.piped b.pipe value
  let text ← Render.view (·.heap.display value)
  Render.edit (·.setInnerMarkup id (shown.getD text))

def bindContent (v : View) (scope : Scope) (id : NodeId) : Render Unit := do
  (v.entriesAt .content (← Render.tree) id).forM (v.bindContentEntry scope id)

/-- The property of an entry, if it has a known one. -/
def property? (b : Binding) : Option Property := Property.ofName? (b.target.getD "")

def bindProperty (scope : Scope) (id : NodeId) (b : Binding) : Render Unit := do
  match property? b with
  | none => return
  | some p =>
    let value ← Render.evaluateOrBlank b.expression scope
    let h ← Render.view (·.heap)
    Render.edit (p.write h · id value)

def bindProperties (v : View) (scope : Scope) (id : NodeId) : Render Unit := do
  (v.entriesAt .value (← Render.tree) id).forM (bindProperty scope id)

/-- Brings elements up to date, one kind of binding after the other. -/
def sync (v : View) (scope : Scope) (ids : List NodeId) : Render Unit := do
  ids.forM (v.bindAttributes scope)
  ids.forM (v.bindContent scope)
  ids.forM (v.bindProperties scope)

end ViewBinding.View
