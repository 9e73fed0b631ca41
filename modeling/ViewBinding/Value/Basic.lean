import ViewBinding.Number.Reader
import ViewBinding.OrderedMap
import ViewBinding.Text.Class
import ViewBinding.Value.Error

/-!
Values and the heap that holds the contents of arrays and objects.

Arrays and objects are references, so two values can share one of them, and a write through either is
seen through both. Nothing is ever taken out of a heap.
-/
namespace ViewBinding

structure ArrayRef where
  index : Nat
  deriving Repr, DecidableEq

structure ObjectRef where
  index : Nat
  deriving Repr, DecidableEq

inductive Value where
  | undefined
  | null
  | bool (value : Bool)
  | number (value : Float)
  | string (value : String)
  | array (ref : ArrayRef)
  | object (ref : ObjectRef)

instance : Inhabited Value := ⟨.undefined⟩

structure Heap where
  arrays : Array (Array Value)
  objects : Array (OrderedMap Value)
  deriving Inhabited

namespace Heap

def empty : Heap := ⟨#[], #[]⟩

def items (h : Heap) (r : ArrayRef) : Array Value := h.arrays[r.index]?.getD #[]

def fields (h : Heap) (r : ObjectRef) : OrderedMap Value := h.objects[r.index]?.getD .empty

def newArray (h : Heap) (items : List Value) : Value × Heap :=
  (.array ⟨h.arrays.size⟩, { h with arrays := h.arrays.push items.toArray })

def newObject (h : Heap) (entries : List (String × Value)) : Value × Heap :=
  (.object ⟨h.objects.size⟩, { h with objects := h.objects.push (.ofList entries) })

/-- Writes at a place; the places between the end and this one are filled. -/
def writeAt {α : Type} (filling : α) (xs : Array α) (i : Nat) (x : α) : Array α :=
  if i < xs.size then xs.setIfInBounds i x else (xs ++ Array.replicate (i - xs.size) filling).push x

def setItems (h : Heap) (r : ArrayRef) (items : Array Value) : Heap :=
  { h with arrays := writeAt #[] h.arrays r.index items }

def setField (h : Heap) (r : ObjectRef) (key : String) (value : Value) : Heap :=
  { h with objects := writeAt .empty h.objects r.index ((h.fields r).insert key value) }

theorem getElem?_writeAt_self {α : Type} (filling : α) (xs : Array α) (i : Nat) (x : α) :
    (writeAt filling xs i x)[i]? = some x := by
  unfold writeAt
  split
  · next hi => rw [Array.getElem?_setIfInBounds_self_of_lt hi]
  · next hi =>
    have hsize : (xs ++ Array.replicate (i - xs.size) filling).size = i := by
      rw [Array.size_append, Array.size_replicate]
      omega
    rw [Array.getElem?_push, if_pos hsize.symm]

/-- The other places keep what they have, and the filling counts as nothing. -/
theorem getElem?_writeAt_of_ne {α : Type} (filling : α) (xs : Array α) (x : α) {i j : Nat} (hne : j ≠ i) :
    ((writeAt filling xs i x)[j]?).getD filling = (xs[j]?).getD filling := by
  unfold writeAt
  split
  · rw [Array.getElem?_setIfInBounds_ne (Ne.symm hne)]
  · rw [Array.getElem?_push]
    split
    · next hi hj =>
      rw [Array.size_append, Array.size_replicate] at hj
      omega
    · rw [Array.getElem?_append]
      split
      · rfl
      · next hj =>
        rw [Array.getElem?_eq_none (Nat.not_lt.1 hj), Array.getElem?_replicate]
        split <;> rfl

theorem items_setItems_self (h : Heap) (r : ArrayRef) (items : Array Value) :
    (h.setItems r items).items r = items := by
  rw [Heap.items, setItems, getElem?_writeAt_self, Option.getD_some]

/-- Writing one array leaves the others as they are. -/
theorem items_setItems_of_ne (h : Heap) {r other : ArrayRef} (hne : other ≠ r) (items : Array Value) :
    (h.setItems r items).items other = h.items other :=
  getElem?_writeAt_of_ne _ _ _ fun hi => hne (congrArg ArrayRef.mk hi)

theorem fields_setField_self (h : Heap) (r : ObjectRef) (key : String) (value : Value) :
    (h.setField r key value).fields r = (h.fields r).insert key value := by
  rw [fields, setField, getElem?_writeAt_self, Option.getD_some]

/-- Writing one object leaves the others as they are. -/
theorem fields_setField_of_ne (h : Heap) {r other : ObjectRef} (hne : other ≠ r) (key : String)
    (value : Value) : (h.setField r key value).fields other = h.fields other :=
  getElem?_writeAt_of_ne _ _ _ fun hi => hne (congrArg ObjectRef.mk hi)

@[simp] theorem items_setField (h : Heap) (r : ObjectRef) (key : String) (value : Value)
    (other : ArrayRef) : (h.setField r key value).items other = h.items other := rfl

@[simp] theorem fields_setItems (h : Heap) (r : ArrayRef) (items : Array Value) (other : ObjectRef) :
    (h.setItems r items).fields other = h.fields other := rfl

/-- A bound on how deep values that do not contain themselves can be nested. -/
def depth (h : Heap) : Nat := h.arrays.size + h.objects.size + 1

end Heap

namespace Value

def isNullish : Value → Bool
  | .undefined | .null => true
  | _ => false

def truthy : Value → Bool
  | .undefined | .null => false
  | .bool b => b
  | .number x => x != 0 && !x.isNaN
  | .string s => !s.isEmpty
  | .array _ | .object _ => true

def kind : Value → String
  | .undefined => "undefined"
  | .null | .array _ | .object _ => "object"
  | .bool _ => "boolean"
  | .number _ => "number"
  | .string _ => "string"

def ofNat (n : Nat) : Value := .number (Number.ofNat n)

def ofChar (c : Char) : Value := .string c.toString

def isUndefined : Value → Bool
  | .undefined => true
  | _ => false

def asBool? : Value → Option Bool
  | .bool b => some b
  | _ => none

def asString? : Value → Option String
  | .string s => some s
  | _ => none

end Value

namespace Heap

/-- The items of an array; other values have none. -/
def items? (h : Heap) : Value → Option (List Value)
  | .array r => some (h.items r).toList
  | _ => none

/-- The number of items, of entries or of characters. -/
def length? (h : Heap) : Value → Option Nat
  | .array r => some (h.items r).size
  | .string s => some s.length
  | .object r => some (h.fields r).size
  | _ => none

/--
Reads a property. Arrays and strings know their length and arrays their items; whatever is missing is
undefined.
-/
def get (h : Heap) (v : Value) (key : String) : Value :=
  match v with
  | .object r => ((h.fields r).get? key).getD .undefined
  | .array r =>
    if key = "length" then .ofNat (h.items r).size
    else ((Number.index? key.toList).bind fun i => (h.items r)[i]?).getD .undefined
  | .string s => if key = "length" then .ofNat s.length else .undefined
  | _ => .undefined

/-- The item or the character at an index. -/
def itemAt (h : Heap) (v : Value) (i : Nat) : Value :=
  match v with
  | .array r => (h.items r)[i]?.getD .undefined
  | .string s => (s.toList[i]?.map Value.ofChar).getD .undefined
  | _ => .undefined

/-- Writes a property of an object, or an item of an array; the items between the end and this one are undefined. -/
def set (h : Heap) (v : Value) (key : String) (value : Value) : Except EvalError Heap :=
  match v with
  | .object r => .ok (h.setField r key value)
  | .array r =>
    match Number.index? key.toList with
    | some i => .ok (h.setItems r (writeAt .undefined (h.items r) i value))
    | none => .error (.invalidIndex key)
  | _ => .error (.setOnPrimitive key v.kind)

def push (h : Heap) (v value : Value) : Except EvalError Heap :=
  match v with
  | .array r => .ok (h.setItems r ((h.items r).push value))
  | _ => .error (.pushOnPrimitive v.kind)

/-- The names in a dotted path; empty ones are left out. -/
def pathNames (path : String) : List String :=
  (Text.words (· == '.') path.toList).map fun name => String.ofList (Text.trim name)

/-- Follows a dotted path. -/
def path (h : Heap) (v : Value) (path : String) : Value :=
  (pathNames path).foldl h.get v

/-- The names of an object's entries or the indices of an array. -/
def keys (h : Heap) : Value → List String
  | .object r => (h.fields r).keys
  | .array r => (List.range (h.items r).size).map fun i => toString i
  | _ => []

def values (h : Heap) : Value → List Value
  | .object r => (h.fields r).values
  | .array r => (h.items r).toList
  | _ => []

end Heap

end ViewBinding
