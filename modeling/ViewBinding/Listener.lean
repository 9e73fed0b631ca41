import ViewBinding.Association
import ViewBinding.Expr.Scope
import ViewBinding.Property

/-!
The listeners that view models install on nodes.

A node has at most one listener for each owner and slot: a new one takes the place of the old one and goes
to the end of the line.
-/
namespace ViewBinding

/-- What a copy of a list template was bound with. -/
structure ItemScope where
  item : Value
  index : Nat
  scope : Scope

/-- Adds the item and its index to the variables of the template. -/
def ItemScope.within (parent : Scope) (item : Value) (index : Nat) : ItemScope :=
  ⟨item, index, (parent.insert "$item" item).insert "$i" (.ofNat index)⟩

inductive ListenerAction where
  /-- Calls a handler; the source of the argument is evaluated when the event fires. -/
  | handle (handler : String) (argument : Option String)
  /-- Copies a property of the element into the model. -/
  | writeBack (property : Property) (path : String)
  deriving DecidableEq

inductive ListenerSlot where
  | event (name : String)
  | writeBack (property : Property)
  deriving DecidableEq

structure Listener where
  event : String
  owner : String
  slot : ListenerSlot
  action : ListenerAction
  scope : Option ItemScope

/-- The listeners of each node in the order of their installation. No node occurs twice. -/
structure ListenerStore where
  nodes : List (NodeId × List Listener)
  nodup_nodes : (nodes.map (·.1)).Nodup

namespace ListenerStore

def empty : ListenerStore := ⟨[], List.nodup_nil⟩

/-- The listeners on a node. -/
def on (s : ListenerStore) (id : NodeId) : List Listener := (s.nodes.lookup id).getD []

def sameSlot (a b : Listener) : Bool := a.owner == b.owner && a.slot == b.slot

/-- The listeners of a node after one more is installed. -/
def reinstalled (listener : Listener) (present : List Listener) : List Listener :=
  present.filter (fun other => !sameSlot other listener) ++ [listener]

def install (s : ListenerStore) (id : NodeId) (listener : Listener) : ListenerStore :=
  ⟨Association.update id (fun present => reinstalled listener (present.getD [])) s.nodes,
    Association.nodup_keys_update id _ s.nodup_nodes⟩

/-- Whether a listener takes the place of another one when it is installed. -/
def replaces (s : ListenerStore) (id : NodeId) (listener : Listener) : Bool :=
  (s.on id).any (sameSlot · listener)

/-- The listeners of an owner for an event, in the order of their installation. -/
def matching (s : ListenerStore) (id : NodeId) (owner event : String) : List Listener :=
  (s.on id).filter fun listener => listener.owner == owner && listener.event == event

/-- Drops all listeners on some nodes. -/
def purge (s : ListenerStore) (ids : List NodeId) : ListenerStore :=
  ⟨s.nodes.filter fun entry => !ids.contains entry.1, Association.nodup_keys_filter _ s.nodup_nodes⟩

def countOn (s : ListenerStore) (id : NodeId) : Nat := (s.on id).length

def size (s : ListenerStore) : Nat := s.nodes.foldl (fun n entry => n + entry.2.length) 0

/-- The number of listeners that are dropped with some nodes. -/
def countPurged (s : ListenerStore) (ids : List NodeId) : Nat := s.size - (s.purge ids).size

@[simp] theorem on_empty (id : NodeId) : empty.on id = [] := rfl

/-- A listener is installed behind all that stay on its node. -/
theorem on_install_self (s : ListenerStore) (id : NodeId) (listener : Listener) :
    (s.install id listener).on id = reinstalled listener (s.on id) := by
  simp [on, install, Association.lookup_update_self]

theorem on_install_of_ne (s : ListenerStore) {id other : NodeId} (h : other ≠ id) (listener : Listener) :
    (s.install id listener).on other = s.on other := by
  simp [on, install, Association.lookup_update_of_ne h]

/-- No listener is left on a node that is purged, and every other node keeps its own. -/
theorem on_purge (s : ListenerStore) (ids : List NodeId) (id : NodeId) :
    (s.purge ids).on id = if ids.contains id then [] else s.on id := by
  have h := Association.lookup_filter (fun node => !ids.contains node) id s.nodes
  simp only [on, purge, h]
  cases ids.contains id <;> rfl

end ListenerStore

end ViewBinding
