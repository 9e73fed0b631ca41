import ViewBinding.Association

/-!
Maps from names that remember the order in which the names came. Writing a name again keeps its place.
-/
namespace ViewBinding

/-- Entries in the order of their first write; no name occurs twice. -/
structure OrderedMap (α : Type) where
  entries : List (String × α)
  nodup_keys : (entries.map (·.1)).Nodup

namespace OrderedMap

variable {α : Type}

def empty : OrderedMap α := ⟨[], .nil⟩

instance : Inhabited (OrderedMap α) := ⟨empty⟩

def keys (m : OrderedMap α) : List String := m.entries.map (·.1)

def values (m : OrderedMap α) : List α := m.entries.map (·.2)

def size (m : OrderedMap α) : Nat := m.entries.length

/-- Writes an entry in place, or behind all others if its name is new. -/
def insert (m : OrderedMap α) (key : String) (value : α) : OrderedMap α :=
  ⟨Association.update key (fun _ => value) m.entries, Association.nodup_keys_update key _ m.nodup_keys⟩

def get? (m : OrderedMap α) (key : String) : Option α := m.entries.lookup key

def contains (m : OrderedMap α) (key : String) : Bool := (m.get? key).isSome

/-- The entries of a list, written one after the other. -/
def ofList (es : List (String × α)) : OrderedMap α :=
  es.foldl (fun m (key, value) => m.insert key value) empty

theorem keys_insert (m : OrderedMap α) (key : String) (value : α) :
    (m.insert key value).keys = if key ∈ m.keys then m.keys else m.keys ++ [key] :=
  Association.keys_update key _ m.entries

@[simp] theorem get?_insert_self (m : OrderedMap α) (key : String) (value : α) :
    (m.insert key value).get? key = some value :=
  Association.lookup_update_self key _ m.entries

theorem get?_insert_of_ne (m : OrderedMap α) {key other : String} (h : other ≠ key) (value : α) :
    (m.insert key value).get? other = m.get? other :=
  Association.lookup_update_of_ne h _ m.entries

@[simp] theorem get?_empty (key : String) : (empty : OrderedMap α).get? key = none := rfl

end OrderedMap

end ViewBinding
