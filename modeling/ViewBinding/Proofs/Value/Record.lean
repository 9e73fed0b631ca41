import ViewBinding.Proofs.IndexedMap
import ViewBinding.Proofs.Value.Reach
import ViewBinding.Value.Conversion

/-! Objects as records of what has been written to them. Whatever else happens in the heap, the keys of an object come in
the order of their first write, each with the value of its last one, and all that lists an object follows that order. -/
namespace ViewBinding.Heap

variable {h : Heap} {r : ObjectRef} {v : Value} {n : ℕ}

/-- A change of a heap. -/
inductive Change where
  | newArray (items : List Value)
  | newObject (entries : List (String × Value))
  | set (target : Value) (key : String) (value : Value)
  | push (target value : Value)

/-- Makes a change. One that fails leaves the heap as it is. -/
def perform (h : Heap) : Change → Heap
  | .newArray items => (h.newArray items).2
  | .newObject entries => (h.newObject entries).2
  | .set target key value => (h.set target key value).toOption.getD h
  | .push target value => (h.push target value).toOption.getD h

/-- What a change writes to an object. -/
def Change.entryOf (r : ObjectRef) : Change → List (String × Value)
  | .set (.object target) key value => if target = r then [(key, value)] else []
  | _ => []

/-- What some changes write to an object, one after the other. -/
def writesTo (r : ObjectRef) (changes : List Change) : List (String × Value) := changes.flatMap (·.entryOf r)

/-- An object of a heap stays, and has what is written to it behind what it had. -/
theorem fields_perform {es : List (String × Value)} (hr : r.index < h.objects.size) (hes : h.fields r = .ofList es)
    (change : Change) : r.index < (h.perform change).objects.size ∧
      (h.perform change).fields r = .ofList (es ++ change.entryOf r) := by
  have hsame : ∀ {h' : Heap}, r.index < h'.objects.size → h'.fields r = h.fields r →
      r.index < h'.objects.size ∧ h'.fields r = .ofList (es ++ []) := fun hr' hfields =>
    ⟨hr', by rw [hfields, hes, List.append_nil]⟩
  cases change with
  | newArray items => exact hsame hr rfl
  | newObject entries =>
    have hx := Extends.newObject h entries
    exact hsame (hr.trans_le hx.objects_le) (hx.fields r hr)
  | push target value => cases target <;> exact hsame hr rfl
  | set target key value =>
    cases target with
    | object o =>
      have hsize : r.index < (h.setField o key value).objects.size := hr.trans_le (size_le_writeAt ..)
      refine ⟨hsize, ?_⟩
      show (h.setField o key value).fields r = _
      rw [Change.entryOf]
      by_cases ho : o = r
      · rw [ho, if_pos rfl, OrderedMap.ofList_concat, fields_setField_self, hes]
      · rw [if_neg ho, List.append_nil, fields_setField_of_ne h (Ne.symm ho), hes]
    | array a =>
      rw [perform, set]
      cases Number.index? key.toList <;> exact hsame hr rfl
    | _ => exact hsame hr rfl

/-- A new object has the entries that it was made with and what has been written to it since. -/
theorem fields_of_changes (h : Heap) (entries : List (String × Value)) (changes : List Change) :
    (changes.foldl perform (h.newObject entries).2).fields ⟨h.objects.size⟩ =
      .ofList (entries ++ writesTo ⟨h.objects.size⟩ changes) := by
  have hrun : ∀ changes : List Change, h.objects.size < (changes.foldl perform (h.newObject entries).2).objects.size ∧
      (changes.foldl perform (h.newObject entries).2).fields ⟨h.objects.size⟩ =
        .ofList (entries ++ writesTo ⟨h.objects.size⟩ changes) := by
    intro changes
    induction changes using List.reverseRecOn with
    | nil => simp [newObject, fields, writesTo]
    | append_singleton changes change ih =>
      rw [List.foldl_append, writesTo, List.flatMap_append, ← List.append_assoc, List.flatMap_singleton]
      exact fields_perform ih.1 ih.2 change
  exact (hrun changes).2

theorem jsonWithin_succ_eq (hv : h.NestedWithin n v) : h.jsonWithin (n + 1) v = h.jsonWithin n v := by
  induction n generalizing v with
  | zero =>
    cases v with
    | array | object => cases hv
    | bool b => cases b <;> rfl
    | _ => rfl
  | succ n ih =>
    cases v with
    | array r =>
      rw [jsonWithin, jsonWithin]
      refine congrArg (fun items => "[" ++ ",".intercalate items ++ "]") ?_
      exact List.map_congr_left fun item hitem => ih (hv item hitem)
    | object r =>
      rw [jsonWithin, jsonWithin]
      refine congrArg (fun items => "\x7b" ++ ",".intercalate items ++ "\x7d") ?_
      refine List.map_congr_left fun e he => ?_
      exact congrArg (Text.jsonQuoted e.1 ++ ":" ++ ·) (ih (hv e.2 (List.mem_map_of_mem (List.mem_of_mem_filter he))))
    | bool b => cases b <;> rfl
    | _ => rfl

/-- The JSON text of an object has an entry for each key with a value, in the order of the keys. -/
theorem json_object (hr : h.Acyclic (.object r)) : h.json (.object r) =
    "\x7b" ++ ",".intercalate (((h.keys (.object r)).filter fun key => !(h.get (.object r) key).isUndefined).map fun key =>
      Text.jsonQuoted key ++ ":" ++ h.json (h.get (.object r) key)) ++ "\x7d" := by
  have hnested : h.NestedWithin (h.arrays.size + h.objects.size + 1) (.object r) := hr.nestedWithin_depth
  rw [json, depth, jsonWithin]
  refine congrArg (fun items => "\x7b" ++ ",".intercalate items ++ "\x7d") ?_
  have hget : ∀ e ∈ (h.fields r).entries, h.get (.object r) e.1 = e.2 := fun e he => by
    rw [get, OrderedMap.get?_of_mem he, Option.getD_some]
  have hshown : (h.fields r).entries.filter (fun e => !e.2.isUndefined) =
      (h.fields r).entries.filter ((fun key => !(h.get (.object r) key).isUndefined) ∘ Prod.fst) :=
    List.filter_congr fun e he => by rw [Function.comp_apply, hget e he]
  rw [keys, OrderedMap.keys, List.filter_map, List.map_map, ← hshown]
  refine List.map_congr_left fun e he => ?_
  have he := List.mem_of_mem_filter he
  rw [Function.comp_apply, hget e he, json, depth, jsonWithin_succ_eq (hnested e.2 (List.mem_map_of_mem he))]

/-- What an object shows if these entries have been written to it one after the other. -/
structure Records (h : Heap) (r : ObjectRef) (written : List (String × Value)) : Prop where
  nodup_keys : (h.keys (.object r)).Nodup
  mem_keys : ∀ key, key ∈ h.keys (.object r) ↔ key ∈ written.map (·.1)
  /-- Of two keys that one comes first that was written first. -/
  ordered : (h.keys (.object r)).Pairwise fun a b => (written.map (·.1)).idxOf a < (written.map (·.1)).idxOf b
  /-- A key has the value of its last write. -/
  get : ∀ key, h.get (.object r) key = (written.reverse.lookup key).getD .undefined
  values : h.values (.object r) = (h.keys (.object r)).map (h.get (.object r))
  length : h.length? (.object r) = some (h.keys (.object r)).length
  json : h.Acyclic (.object r) → h.json (.object r) =
    "\x7b" ++ ",".intercalate (((h.keys (.object r)).filter fun key => !(h.get (.object r) key).isUndefined).map fun key =>
      Text.jsonQuoted key ++ ":" ++ h.json (h.get (.object r) key)) ++ "\x7d"

theorem records_of_fields {written : List (String × Value)} (hr : h.fields r = .ofList written) : h.Records r written where
  nodup_keys := (h.fields r).nodup_keys
  mem_keys key := by
    rw [keys, hr]
    exact OrderedMap.mem_keys_ofList
  ordered := by
    rw [keys, hr]
    exact OrderedMap.pairwise_keys_ofList written
  get key := by rw [Heap.get, hr, OrderedMap.get?_ofList]
  values := OrderedMap.values_eq _ _
  length := congrArg some (List.length_map _).symm
  json := json_object

/--
An object that is made with some entries, and whatever happens in the heap afterwards. It shows what has been written to it,
in the order of the first writes. A map with an index that is given the same writes has the same entries, its index
has the place of every key and nothing else, and it reads the same.
-/
theorem object_records (h : Heap) (entries : List (String × Value)) (changes : List Change) :
    let r : ObjectRef := ⟨h.objects.size⟩
    let after := changes.foldl perform (h.newObject entries).2
    let written := entries ++ writesTo r changes
    (h.newObject entries).1 = .object r ∧ after.Records r written ∧
      (IndexedMap.ofList written).entries.toList = (after.fields r).entries ∧ (IndexedMap.ofList written).InStep ∧
      ∀ key, (IndexedMap.ofList written).get? key = (after.fields r).get? key := by
  intro r after written
  have hfields : after.fields r = .ofList written := fields_of_changes h entries changes
  have hindexed := IndexedMap.follows_ofList written
  rw [← hfields] at hindexed
  exact ⟨rfl, records_of_fields hfields, hindexed.entries, hindexed.inStep, hindexed.get?⟩

end ViewBinding.Heap
