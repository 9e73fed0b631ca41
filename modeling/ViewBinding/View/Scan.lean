import ViewBinding.View.Basic

/-!
The parts of a page that a pass binds: elements, and the list templates that it leaves to their lists.
-/
namespace ViewBinding

/-- Elements to bind, and outermost list templates, each in document order. -/
structure Scan where
  elements : List NodeId
  templates : List NodeId
  deriving Repr, DecidableEq

namespace Scan

def empty : Scan := ⟨[], []⟩

def append (a b : Scan) : Scan := ⟨a.elements ++ b.elements, a.templates ++ b.templates⟩

end Scan

namespace View

def scanWithin (v : View) (t : Tree) (copies : List NodeId) : Nat → NodeId → Scan
  | 0, _ => .empty
  | fuel + 1, id =>
    if !t.isElement id then .empty
    else if t.hasAttr id (v.attributeName .foreach) then ⟨[], [id]⟩
    else if copies.contains id then .empty
    else
      let below := (t.children id).map (v.scanWithin t copies fuel)
      Scan.append ⟨[id], []⟩ (below.foldr Scan.append .empty)

/-- Leaves out what is in list templates and in copies that are there already. -/
def scan (v : View) (t : Tree) (copies : List NodeId) (id : NodeId) : Scan :=
  v.scanWithin t copies t.slots.size id

end View

end ViewBinding
