import ViewBinding.View.Foreach

/-!
A pass over a page: every root that is still in the document is brought up to date, and its lists are made.
-/
namespace ViewBinding.View

def renderRoot (v : View) (root : NodeId) : Render Unit := do
  if (← Render.tree).isConnected root then
    let found ← Render.view fun p => v.scan p.document.tree p.copies root
    v.sync v.scope found.elements
    found.templates.forM (v.renderList · v.scope)

def render (v : View) : Render Unit := v.roots.forM v.renderRoot

/-- Installs the listeners of everything that is not in a list. -/
def listenAll (v : View) (d : Document) : Document :=
  v.roots.foldl (fun d root => (v.scan d.tree [] root).elements.foldl (v.listen none) d) d

end ViewBinding.View
