import Mathlib.Tactic
import ViewBinding.Value.Basic

/-! Reading a heap after one of its entries has been written. -/
namespace ViewBinding.Heap

variable {h h' : Heap} {v w value : Value} {key other : String}

/-- A write changes one array or object only. -/
theorem get_set_of_ne (hset : h.set v key value = .ok h') (hne : w ≠ v) (other : String) :
    h'.get w other = h.get w other := by
  cases v with
  | object r =>
    cases hset
    cases w with
    | object r' => simp only [get, fields_setField_of_ne h (fun he => hne (congrArg Value.object he))]
    | _ => rfl
  | array r =>
    rw [set] at hset
    split at hset
    · cases hset
      cases w with
      | array r' => simp only [get, items_setItems_of_ne h (fun he => hne (congrArg Value.array he))]
      | _ => rfl
    · cases hset
  | _ => cases hset

/-- A write to an object changes one of its entries only. -/
theorem get_set_object_of_ne {r : ObjectRef} (hset : h.set (.object r) key value = .ok h') (hne : other ≠ key) :
    h'.get (.object r) other = h.get (.object r) other := by
  cases hset
  rw [get, get, fields_setField_self, OrderedMap.get?_insert_of_ne _ hne]

/-- A write to an array changes one of its items only, and perhaps its length. -/
theorem get_set_array_of_ne {r : ArrayRef} {i : Nat} (hset : h.set (.array r) key value = .ok h')
    (hi : Number.index? key.toList = some i) (hne : Number.index? other.toList ≠ some i) (hlength : other ≠ "length") :
    h'.get (.array r) other = h.get (.array r) other := by
  rw [set, hi] at hset
  cases hset
  rw [get, get, if_neg hlength, if_neg hlength, items_setItems_self]
  cases hj : Number.index? other.toList with
  | none => rfl
  | some j => exact getElem?_writeAt_of_ne _ _ _ fun he => hne (he ▸ hj)

/-- What is written is read again. -/
theorem get_set_self (hset : h.set v key value = .ok h') : h'.get v key = value := by
  cases v with
  | object r =>
    cases hset
    rw [get, fields_setField_self, OrderedMap.get?_insert_self, Option.getD_some]
  | array r =>
    rw [set] at hset
    split at hset
    · next i hi =>
      cases hset
      have hlength : key ≠ "length" := fun he => by
        rw [he, show Number.index? "length".toList = none by decide +kernel] at hi
        cases hi
      rw [get, if_neg hlength, hi, items_setItems_self, Option.bind_some, getElem?_writeAt_self, Option.getD_some]
    · cases hset
  | _ => cases hset

/-- One entry of one array or object has been written, and no other. -/
structure Entered (h h' : Heap) (owner : Value) (key : String) (value : Value) : Prop where
  written : h'.get owner key = value
  elsewhere : ∀ w other, w ≠ owner → h'.get w other = h.get w other
  fields : ∀ r, owner = .object r → ∀ other, other ≠ key → h'.get owner other = h.get owner other
  items : ∀ r, owner = .array r → ∀ other, other ≠ "length" →
    Number.index? other.toList ≠ Number.index? key.toList → h'.get owner other = h.get owner other

theorem entered_of_set (hset : h.set v key value = .ok h') : Entered h h' v key value where
  written := get_set_self hset
  elsewhere w other hne := get_set_of_ne hset hne other
  fields := by
    rintro r rfl other hne
    exact get_set_object_of_ne hset hne
  items := by
    rintro r rfl other hlength hne
    cases hi : Number.index? key.toList with
    | none => simp [set, hi] at hset
    | some i => exact get_set_array_of_ne hset hi (hi ▸ hne) hlength

/-- A later heap in which everything that was there is as it was. -/
structure Extends (h h' : Heap) : Prop where
  arrays_le : h.arrays.size ≤ h'.arrays.size
  objects_le : h.objects.size ≤ h'.objects.size
  items : ∀ r : ArrayRef, r.index < h.arrays.size → h'.items r = h.items r
  fields : ∀ r : ObjectRef, r.index < h.objects.size → h'.fields r = h.fields r

namespace Extends

variable {h'' : Heap}

theorem refl (h : Heap) : h.Extends h := ⟨le_rfl, le_rfl, fun _ _ => rfl, fun _ _ => rfl⟩

theorem trans (hx : h.Extends h') (hy : h'.Extends h'') : h.Extends h'' where
  arrays_le := hx.arrays_le.trans hy.arrays_le
  objects_le := hx.objects_le.trans hy.objects_le
  items r hr := (hy.items r (hr.trans_le hx.arrays_le)).trans (hx.items r hr)
  fields r hr := (hy.fields r (hr.trans_le hx.objects_le)).trans (hx.fields r hr)

theorem newArray (h : Heap) (items : List Value) : h.Extends (h.newArray items).2 where
  arrays_le := by simp [Heap.newArray]
  objects_le := le_rfl
  items r hr := by simp [Heap.newArray, Heap.items, Array.getElem?_push, hr.ne]
  fields _ _ := rfl

theorem newObject (h : Heap) (entries : List (String × Value)) : h.Extends (h.newObject entries).2 where
  arrays_le := le_rfl
  objects_le := by simp [Heap.newObject]
  items _ _ := rfl
  fields r hr := by simp [Heap.newObject, Heap.fields, Array.getElem?_push, hr.ne]

/-- A later heap of the same size is the same heap. -/
theorem eq_of_size (hx : h.Extends h') (harrays : h'.arrays.size = h.arrays.size)
    (hobjects : h'.objects.size = h.objects.size) : h' = h := by
  have hitems : h'.arrays = h.arrays := Array.ext harrays fun i hi' hi => by
    simpa [Heap.items, hi, hi'] using hx.items ⟨i⟩ hi
  have hfields : h'.objects = h.objects := Array.ext hobjects fun i hi' hi => by
    simpa [Heap.fields, hi, hi'] using hx.fields ⟨i⟩ hi
  calc h' = ⟨h'.arrays, h'.objects⟩ := rfl
    _ = h := by rw [hitems, hfields]

end Extends

section
variable {kept : Value → Prop}

/-- Whether a value is an object in the heap. -/
def Holds (h : Heap) (v : Value) : Prop := ∃ r : ObjectRef, v = .object r ∧ r.index < h.objects.size

/-- A later heap in which some of the objects are as they were. -/
structure Keeps (kept : Value → Prop) (h h' : Heap) : Prop where
  objects_le : h.objects.size ≤ h'.objects.size
  get : ∀ v, kept v → h.Holds v → ∀ key, h'.get v key = h.get v key

theorem Keeps.holds (hk : h.Keeps kept h') (hv : h.Holds v) : h'.Holds v := by
  obtain ⟨r, rfl, hr⟩ := hv
  exact ⟨r, rfl, hr.trans_le hk.objects_le⟩

theorem Extends.keeps (hx : h.Extends h') (kept : Value → Prop) : h.Keeps kept h' where
  objects_le := hx.objects_le
  get v _ hv key := by
    obtain ⟨r, rfl, hr⟩ := hv
    rw [Heap.get, Heap.get, hx.fields r hr]

theorem Holds.exists_set (hv : h.Holds v) (key : String) (value : Value) : ∃ h', h.set v key value = .ok h' := by
  obtain ⟨r, rfl, -⟩ := hv
  exact ⟨_, rfl⟩

/-- Writing to an object in the heap takes nothing out of it. -/
theorem Holds.of_set {w : Value} (hv : h.Holds v) (hw : h.Holds w) (hset : h.set v key value = .ok h') : h'.Holds w := by
  obtain ⟨r, rfl, hr⟩ := hv
  obtain ⟨r', rfl, hr'⟩ := hw
  cases hset
  refine ⟨r', rfl, ?_⟩
  simpa [setField, writeAt, hr] using hr'

end

end ViewBinding.Heap
