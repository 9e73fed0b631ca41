import ViewBinding.Proofs.Association
import ViewBinding.Proofs.Value.Reach
import ViewBinding.Value.Equality

/-! Values of plain data: null, booleans, finite numbers, strings, and arrays and objects of such values none of which
contains itself, so that equality of contents follows them to the end. -/
namespace ViewBinding.Heap

open View

variable {h h' : Heap} {v w : Value} {n : Nat}

/-- Whether a number is finite and read from its text as a number equal to it. -/
def ReadsBack (x : Float) : Prop :=
  Number.isFinite x = true ∧ ∃ y, Number.decimal? (Number.text x).toList = some y ∧ (y == x) = true

/-- Values of plain data. As an inductive predicate it holds of no value that contains itself. -/
inductive Plain (h : Heap) : Value → Prop where
  | null : Plain h .null
  | bool (b : Bool) : Plain h (.bool b)
  | number {x : Float} (hx : ReadsBack x) : Plain h (.number x)
  | string (s : String) : Plain h (.string s)
  | array {r : ArrayRef} (hr : h.Has (.array r)) (hitems : ∀ v ∈ h.values (.array r), Plain h v) : Plain h (.array r)
  | object {r : ObjectRef} (hr : h.Has (.object r)) (hfields : ∀ v ∈ h.values (.object r), Plain h v) :
    Plain h (.object r)

theorem Plain.of_mem_values (hv : h.Plain v) (hw : w ∈ h.values v) : h.Plain w := by
  cases hv with
  | array _ hitems => exact hitems w hw
  | object _ hfields => exact hfields w hw
  | _ => cases hw

theorem Plain.has (hv : h.Plain v) (hc : isContainer v = true) : h.Has v := by
  cases hv with
  | array hr _ => exact hr
  | object hr _ => exact hr
  | _ => cases hc

/-- A later heap in which everything is as it was has the same plain data. -/
theorem Plain.extends (hv : h.Plain v) (hx : h.Extends h') : h'.Plain v := by
  induction hv with
  | null => exact .null
  | bool b => exact .bool b
  | number hx => exact .number hx
  | string s => exact .string s
  | array hr _ ih =>
    refine .array (hx.grown.has hr) fun v hv => ih v ?_
    rwa [(hx.sameAt hr).values] at hv
  | object hr _ ih =>
    refine .object (hx.grown.has hr) fun v hv => ih v ?_
    rwa [(hx.sameAt hr).values] at hv

/-- Plain data does not contain itself. -/
theorem Plain.acyclic (hv : h.Plain v) : h.Acyclic v := by
  induction hv with
  | array _ _ ih => exact .of_inside ih
  | object _ _ ih => exact .of_inside ih
  | _ => exact .of_inside fun w hw => by cases hw

/-- The depth of a heap suffices to follow plain data to its end. -/
theorem Plain.nestedWithin_depth (hv : h.Plain v) : h.NestedWithin h.depth v := hv.acyclic.nestedWithin_depth

/-! Equality of contents. -/

/-- Values with the same contents, entries of objects in the same order. -/
inductive Alike (h : Heap) : Value → Value → Prop where
  | null : Alike h .null .null
  | bool (b : Bool) : Alike h (.bool b) (.bool b)
  | number {x y : Float} (hxy : (x == y) = true) : Alike h (.number x) (.number y)
  | string (s : String) : Alike h (.string s) (.string s)
  | array {r s : ArrayRef} (hsize : (h.items r).size = (h.items s).size)
    (hitems : ∀ (i : Nat) (v w : Value), (h.items r)[i]? = some v → (h.items s)[i]? = some w → Alike h v w) :
    Alike h (.array r) (.array s)
  | object {r s : ObjectRef} (hkeys : (h.fields r).keys = (h.fields s).keys)
    (hfields : ∀ key v w, (h.fields r).get? key = some v → (h.fields s).get? key = some w → Alike h v w) :
    Alike h (.object r) (.object s)

theorem sameWithin_of_alike (hw : h.Alike w v) (hv : h.NestedWithin n v) : h.sameWithin n w v = true := by
  induction n generalizing v w with
  | zero =>
    cases hw with
    | array | object => cases hv
    | number hxy => exact hxy
    | _ => simp [sameWithin, Value.strictEquals]
  | succ n ih =>
    cases hw with
    | @array r s hsize hitems =>
      have hlength : (h.items r).toList.length = (h.items s).toList.length := hsize
      have hall : ∀ pair ∈ (h.items r).toList.zip (h.items s).toList, h.sameWithin n pair.1 pair.2 = true := by
        intro pair hpair
        obtain ⟨i, hi⟩ := List.mem_iff_getElem?.1 hpair
        obtain ⟨hfirst, hsecond⟩ := List.getElem?_zip_eq_some.1 hi
        rw [Array.getElem?_toList] at hfirst hsecond
        refine ih (hitems i _ _ hfirst hsecond) (hv _ ?_)
        exact Array.mem_toList_iff.2 (Array.mem_of_getElem? hsecond)
      rw [sameWithin]
      simp only [hlength, beq_self_eq_true, Bool.true_and, Bool.or_eq_true, List.all_eq_true]
      exact .inr hall
    | @object r s hkeys hfields =>
      have hsize : (h.fields r).size = (h.fields s).size := by
        have hlength := congrArg List.length hkeys
        simpa [OrderedMap.keys, OrderedMap.size] using hlength
      rw [sameWithin, hsize]
      simp only [beq_self_eq_true, Bool.true_and, Bool.or_eq_true, List.all_eq_true]
      refine .inr fun entry hentry => ?_
      have hkey : entry.1 ∈ (h.fields s).keys := hkeys ▸ List.mem_map_of_mem hentry
      obtain ⟨y, hy⟩ := OrderedMap.exists_get?_of_mem_keys hkey
      simp only [hy]
      refine ih (hfields entry.1 entry.2 y (OrderedMap.get?_of_mem hentry) hy) (hv y ?_)
      exact List.mem_map_of_mem (OrderedMap.mem_of_get? hy)
    | number hxy => exact hxy
    | _ => simp [sameWithin, Value.strictEquals]

/-- A value with the contents of plain data is equal to it. -/
theorem same_of_alike (hw : h.Alike w v) (hv : h.Plain v) : h.same w v = true :=
  sameWithin_of_alike hw hv.nestedWithin_depth

end ViewBinding.Heap
