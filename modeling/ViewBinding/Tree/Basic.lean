import ViewBinding.Markup.Basic
import ViewBinding.Tree.Error

/-!
The tree of a document: slots for nodes, with handles that stop naming a node once it is removed.

A slot that is given back counts up its generation and goes to the list of free slots. The tree also
counts the changes made to it.
-/
namespace ViewBinding

inductive NodeData where
  | document
  | element (element : Markup.Element)
  | text (text : String)
  deriving Repr, DecidableEq

def NodeData.element? : NodeData → Option Markup.Element
  | .element e => some e
  | _ => none

structure Slot where
  generation : UInt32
  parent : Option NodeId
  children : List NodeId
  data : NodeData
  deriving Repr, DecidableEq

structure Tree where
  slots : Array Slot
  /-- Slots without a node, the one to be taken next in front. -/
  free : List Nat
  mutations : Nat
  deriving Repr

namespace Tree

/-- The document node. -/
def root : NodeId := ⟨0, 0⟩

def empty : Tree := ⟨#[⟨0, none, [], .document⟩], [], 0⟩

/-- The slot that a handle names, while its node is there. -/
def get? (t : Tree) (id : NodeId) : Option Slot :=
  t.slots[id.slot]?.filter (·.generation == id.generation)

def isLive (t : Tree) (id : NodeId) : Bool := (t.get? id).isSome

def modify (t : Tree) (id : NodeId) (f : Slot → Slot) : Tree :=
  { t with slots := t.slots.modify id.slot fun s => if s.generation = id.generation then f s else s }

/-- Counts a change. -/
def touch (t : Tree) : Tree := { t with mutations := t.mutations + 1 }

def parent? (t : Tree) (id : NodeId) : Option NodeId := (t.get? id).bind (·.parent)

def children (t : Tree) (id : NodeId) : List NodeId := ((t.get? id).map (·.children)).getD []

def element? (t : Tree) (id : NodeId) : Option Markup.Element :=
  (t.get? id).bind (·.data.element?)

def isElement (t : Tree) (id : NodeId) : Bool := (t.element? id).isSome

/-- The element at a handle, or the error of an operation on something else. -/
def element (t : Tree) (id : NodeId) (op : String) : Except Error Markup.Element :=
  match t.element? id with
  | some e => .ok e
  | none => .error (.notElement op)

def setElement (t : Tree) (id : NodeId) (e : Markup.Element) : Tree :=
  t.modify id fun s => { s with data := .element e }

/-- Changing a node changes what its handle names. -/
theorem get?_modify_self (t : Tree) (id : NodeId) {f : Slot → Slot}
    (hf : ∀ s, (f s).generation = s.generation) : (t.modify id f).get? id = (t.get? id).map f := by
  simp only [get?, modify, Array.getElem?_modify, if_pos]
  cases t.slots[id.slot]? with
  | none => rfl
  | some s => by_cases h : s.generation = id.generation <;> simp [Option.filter, h, hf]

/-- What any other handle names stays as it is. -/
theorem get?_modify_of_ne (t : Tree) {id other : NodeId} (h : other ≠ id) {f : Slot → Slot}
    (hf : ∀ s, (f s).generation = s.generation) : (t.modify id f).get? other = t.get? other := by
  simp only [get?, modify, Array.getElem?_modify]
  by_cases hs : id.slot = other.slot
  · rw [if_pos hs]
    cases t.slots[other.slot]? with
    | none => rfl
    | some s =>
      by_cases hg : s.generation = id.generation
      · have hne : id.generation ≠ other.generation := fun hgo => by
          cases id; cases other; simp_all
        simp [Option.filter, hg, hf, hne]
      · simp [hg]
  · rw [if_neg hs]

theorem isLive_modify (t : Tree) (id other : NodeId) {f : Slot → Slot}
    (hf : ∀ s, (f s).generation = s.generation) : (t.modify id f).isLive other = t.isLive other := by
  by_cases h : other = id
  · simp [h, isLive, get?_modify_self t id hf]
  · simp [isLive, get?_modify_of_ne t h hf]

theorem element?_setElement_self (t : Tree) (id : NodeId) (e : Markup.Element) :
    (t.setElement id e).element? id = if t.isLive id then some e else none := by
  rw [element?, setElement, get?_modify_self, isLive]
  · cases t.get? id <;> rfl
  · exact fun _ => rfl

theorem element?_setElement_of_ne (t : Tree) {id other : NodeId} (h : other ≠ id) (e : Markup.Element) :
    (t.setElement id e).element? other = t.element? other := by
  rw [element?, setElement, get?_modify_of_ne t h, element?]
  exact fun _ => rfl

/-- Takes a free slot or a new one. The parent does not list the node yet. -/
def allocate (t : Tree) (parent : Option NodeId) (data : NodeData) : NodeId × Tree :=
  match t.free with
  | i :: free =>
    let generation := (t.slots[i]?.map (·.generation)).getD 0
    (⟨i, generation⟩,
      { t with slots := t.slots.setIfInBounds i ⟨generation, parent, [], data⟩, free := free })
  | [] => (⟨t.slots.size, 0⟩, { t with slots := t.slots.push ⟨0, parent, [], data⟩ })

mutual

/-- Makes nodes of markup below a parent, which does not list the new node yet. -/
def place (parent : Option NodeId) : Markup → Tree → NodeId × Tree
  | .text s, t => t.allocate parent (.text s)
  | .element e children, t =>
    let (id, t) := t.allocate parent (.element e)
    let (ids, t) := placeAll id children t
    (id, t.modify id fun s => { s with children := ids })

def placeAll (parent : NodeId) : List Markup → Tree → List NodeId × Tree
  | [], t => ([], t)
  | m :: rest, t =>
    let (id, t) := place (some parent) m t
    let (ids, t) := placeAll parent rest t
    (id :: ids, t)

end

/-- Makes markup the content of a node that has none. -/
def fill (t : Tree) (id : NodeId) (content : List Markup) : Tree :=
  let (ids, t) := placeAll id content t
  t.modify id fun s => { s with children := ids }

/-- A tree with the given content. -/
def ofMarkup (content : List Markup) : Tree := empty.fill root content

end Tree

end ViewBinding
