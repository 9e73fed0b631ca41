import Mathlib.Tactic
import ViewBinding.Proofs.Value.Heap
import ViewBinding.View.Path

/-! What can be reached in a heap, and later heaps that differ from it only there. Arrays and objects can be shared, so
a write through one value is seen through every other one that leads to the same place. -/
namespace ViewBinding

namespace OrderedMap

variable {α : Type} {m : OrderedMap α} {key : String} {value w : α}

theorem mem_values_insert (hw : w ∈ (m.insert key value).values) : w = value ∨ w ∈ m.values := by
  simp only [values, insert] at hw ⊢
  generalize m.entries = es at hw ⊢
  induction es with
  | nil => exact .inl (List.mem_singleton.1 hw)
  | cons e es ih =>
    obtain ⟨k, v⟩ := e
    rw [Association.update] at hw
    split at hw
    · rcases List.mem_cons.1 hw with hw | hw
      · exact .inl hw
      · exact .inr (List.mem_cons_of_mem _ hw)
    · rcases List.mem_cons.1 hw with hw | hw
      · exact .inr (hw ▸ List.mem_cons_self ..)
      · exact (ih hw).imp_right (List.mem_cons_of_mem _)

theorem mem_values_ofList {es : List (String × α)} (hw : w ∈ (ofList es).values) : w ∈ es.map (·.2) := by
  have hfold : ∀ m : OrderedMap α, w ∈ (es.foldl (fun m e => m.insert e.1 e.2) m).values →
      w ∈ m.values ∨ w ∈ es.map (·.2) := by
    clear hw
    induction es with
    | nil => exact fun m hm => .inl hm
    | cons e es ih =>
      intro m hm
      rcases ih _ hm with hm | hm
      · exact (mem_values_insert hm).elim (fun he => .inr (by simp [he])) .inl
      · exact .inr (List.mem_cons_of_mem _ hm)
  exact (hfold empty hw).resolve_left (by simp [values, empty])

end OrderedMap

namespace Heap

open View

variable {h h₁ h₂ : Heap} {roots : List Value} {v w target value : Value} {key : String}

/-- Whether a value is an array or an object of the heap. -/
def Has (h : Heap) : Value → Prop
  | .array r => r.index < h.arrays.size
  | .object r => r.index < h.objects.size
  | _ => False

/-- Whether an array or an object has the same contents in both heaps. -/
def SameAt (h h' : Heap) : Value → Prop
  | .array r => h'.items r = h.items r
  | .object r => h'.fields r = h.fields r
  | _ => True

/-- What is among some values or in an array or an object that can be reached from them. -/
inductive Reach (h : Heap) (roots : List Value) : Value → Prop where
  | root {v : Value} (hv : v ∈ roots) : Reach h roots v
  | inside {v w : Value} (hv : Reach h roots v) (hw : w ∈ h.values v) : Reach h roots w

theorem values_of_not_has (hv : ¬ h.Has v) : h.values v = [] := by
  cases v with
  | array r => simp [values, items, Array.getElem?_eq_none (Nat.not_lt.1 hv)]
  | object r =>
    have hnone : h.objects[r.index]? = none := Array.getElem?_eq_none (Nat.not_lt.1 hv)
    simp [values, fields, hnone, OrderedMap.values, OrderedMap.empty]
  | _ => rfl

theorem SameAt.values (hs : h.SameAt h₁ v) : h₁.values v = h.values v := by
  cases v with
  | array r => exact congrArg Array.toList hs
  | object r => exact congrArg OrderedMap.values hs
  | _ => rfl

theorem Extends.sameAt (hx : h.Extends h₁) (hv : h.Has v) : h.SameAt h₁ v := by
  cases v with
  | array r => exact hx.items r hv
  | object r => exact hx.fields r hv
  | _ => trivial

/-- Nothing is taken out of a heap. -/
structure Grown (h h' : Heap) : Prop where
  arrays_le : h.arrays.size ≤ h'.arrays.size
  objects_le : h.objects.size ≤ h'.objects.size

theorem Grown.refl (h : Heap) : h.Grown h := ⟨le_rfl, le_rfl⟩

theorem Grown.trans (ha : h.Grown h₁) (hb : h₁.Grown h₂) : h.Grown h₂ :=
  ⟨ha.arrays_le.trans hb.arrays_le, ha.objects_le.trans hb.objects_le⟩

theorem Grown.has (hg : h.Grown h₁) (hv : h.Has v) : h₁.Has v := by
  cases v with
  | array r => exact Nat.lt_of_lt_of_le hv hg.arrays_le
  | object r => exact Nat.lt_of_lt_of_le hv hg.objects_le
  | _ => exact hv

theorem Extends.grown (hx : h.Extends h₁) : h.Grown h₁ := ⟨hx.arrays_le, hx.objects_le⟩

/-- Whether an array or an object could be reached from the roots, or is new in the later heap. -/
def Within (h : Heap) (roots : List Value) (h' : Heap) (v : Value) : Prop :=
  isContainer v = true → h.Reach roots v ∨ ¬ h.Has v ∧ h'.Has v

theorem within_of_not_isContainer (hv : isContainer v = false) : h.Within roots h₁ v := by
  intro hc
  rw [hv] at hc
  cases hc

theorem Within.mono (hw : h.Within roots h₁ v) (hg : h₁.Grown h₂) : h.Within roots h₂ v :=
  fun hc => (hw hc).imp_right fun hnew => ⟨hnew.1, hg.has hnew.2⟩

/-- A later heap that differs only in what could be reached, and in which no way leads from there to anything else
that was there before. -/
structure Confined (h : Heap) (roots : List Value) (h' : Heap) : Prop where
  grown : h.Grown h'
  kept : ∀ v, h.Has v → ¬ h.Reach roots v → h.SameAt h' v
  closed : ∀ v, h.Within roots h' v → ∀ w ∈ h'.values v, h.Within roots h' w

theorem confined_refl (h : Heap) (roots : List Value) : h.Confined roots h where
  grown := .refl h
  kept v _ _ := by cases v <;> trivial
  closed v hv w hw _ := by
    by_cases hc : isContainer v = true
    · rcases hv hc with hreach | ⟨hnot, hhas⟩
      · exact .inl (.inside hreach hw)
      · exact absurd hhas hnot
    · cases v <;> simp [isContainer, values] at hc hw

/-- What can be reached in the later heap from where one may go could be reached before or is new. -/
theorem Confined.within_of_reach (hc : h.Confined roots h₁) (hv : h.Within roots h₁ v) (hr : h₁.Reach [v] w) :
    h.Within roots h₁ w := by
  induction hr with
  | root hu => exact List.mem_singleton.1 hu ▸ hv
  | inside _ hw ih => exact hc.closed _ ih _ hw

/-- One more step: what is written has been reached or is new, and all that is written into it as well. -/
theorem Confined.step (hc : h.Confined roots h₁) (hg : h₁.Grown h₂)
    (hwritten : ∀ v, ¬ h₁.SameAt h₂ v → ¬ h.Has v ∨ h.Reach roots v)
    (hinside : ∀ v w, w ∈ h₂.values v → (h₁.Has v ∧ w ∈ h₁.values v) ∨ h.Within roots h₂ w) :
    h.Confined roots h₂ where
  grown := hc.grown.trans hg
  kept v hv hr := by
    have hlast : h₁.SameAt h₂ v := by
      by_contra hnot
      exact (hwritten v hnot).elim (fun hn => hn hv) hr
    have hfirst := hc.kept v hv hr
    cases v with
    | array r => exact Eq.trans hlast hfirst
    | object r => exact Eq.trans hlast hfirst
    | _ => trivial
  closed v hv w hw := by
    rcases hinside v w hw with ⟨hhas, hold⟩ | hnew
    · refine (hc.closed v (fun hcontainer => ?_) w hold).mono hg
      exact (hv hcontainer).imp_right fun hnew => ⟨hnew.1, hhas⟩
    · exact hnew

/-- What is new may hold what has been reached or is new. -/
theorem Confined.extend (hc : h.Confined roots h₁) (hx : h₁.Extends h₂)
    (hnew : ∀ v, ¬ h₁.Has v → ∀ w ∈ h₂.values v, h.Within roots h₁ w) : h.Confined roots h₂ := by
  refine hc.step hx.grown (fun v hv => .inl fun hhas => hv (hx.sameAt (hc.grown.has hhas))) ?_
  intro v w hw
  by_cases hhas : h₁.Has v
  · rw [(hx.sameAt hhas).values] at hw
    exact .inl ⟨hhas, hw⟩
  · exact .inr ((hnew v hhas w hw).mono hx.grown)

theorem Confined.within_new (hc : h.Confined roots h₁) (hold : ¬ h₁.Has v) (hnew : h₂.Has v) : h.Within roots h₂ v :=
  fun _ => .inr ⟨fun hhas => hold (hc.grown.has hhas), hnew⟩

theorem Confined.newArray (hc : h.Confined roots h₁) {items : List Value}
    (hitems : ∀ w ∈ items, h.Within roots h₁ w) :
    h.Confined roots (h₁.newArray items).2 ∧ h.Within roots (h₁.newArray items).2 (h₁.newArray items).1 := by
  refine ⟨hc.extend (.newArray h₁ items) fun v hv w hw => ?_, hc.within_new ?_ ?_⟩
  · apply hitems
    cases v with
    | array r =>
      simp only [Has] at hv
      simp only [Heap.newArray, values, Heap.items, Array.getElem?_push] at hw
      split at hw
      · simpa using hw
      · rw [Array.getElem?_eq_none (by omega)] at hw
        simp at hw
    | object r =>
      have hempty : h₁.values (.object r) = [] := values_of_not_has hv
      exact absurd (hempty ▸ hw : w ∈ []) (by simp)
    | _ => simp [values] at hw
  · simp [Heap.newArray, Has]
  · simp [Heap.newArray, Has]

theorem Confined.newObject (hc : h.Confined roots h₁) {entries : List (String × Value)}
    (hentries : ∀ entry ∈ entries, h.Within roots h₁ entry.2) :
    h.Confined roots (h₁.newObject entries).2 ∧ h.Within roots (h₁.newObject entries).2 (h₁.newObject entries).1 := by
  refine ⟨hc.extend (.newObject h₁ entries) fun v hv w hw => ?_, hc.within_new ?_ ?_⟩
  · cases v with
    | object r =>
      simp only [Has] at hv
      simp only [Heap.newObject, values, Heap.fields, Array.getElem?_push] at hw
      split at hw
      · obtain ⟨entry, hentry, rfl⟩ := List.mem_map.1 (OrderedMap.mem_values_ofList hw)
        exact hentries entry hentry
      · rw [Array.getElem?_eq_none (by omega)] at hw
        simp [OrderedMap.values, OrderedMap.empty] at hw
    | array r =>
      have hempty : h₁.values (.array r) = [] := values_of_not_has hv
      exact absurd (hempty ▸ hw : w ∈ []) (by simp)
    | _ => simp [values] at hw
  · simp [Heap.newObject, Has]
  · simp [Heap.newObject, Has]

theorem size_le_writeAt {α : Type} (filling : α) (xs : Array α) (i : Nat) (x : α) :
    xs.size ≤ (writeAt filling xs i x).size := by
  unfold writeAt
  split <;> simp

theorem mem_writeAt {α : Type} {filling : α} {xs : Array α} {i : Nat} {x y : α} (hy : y ∈ writeAt filling xs i x) :
    y = x ∨ y = filling ∨ y ∈ xs := by
  unfold writeAt at hy
  split at hy
  · rcases Array.mem_or_eq_of_mem_setIfInBounds hy with hy | hy
    · exact .inr (.inr hy)
    · exact .inl hy
  · simp only [Array.mem_push, Array.mem_append, Array.mem_replicate] at hy
    tauto

theorem grown_of_set (hset : h.set v key value = .ok h₁) : h.Grown h₁ := by
  cases v with
  | object r =>
    cases hset
    exact ⟨le_rfl, size_le_writeAt ..⟩
  | array r =>
    rw [set] at hset
    split at hset <;> cases hset
    exact ⟨size_le_writeAt .., le_rfl⟩
  | _ => cases hset

/-- A write changes one array or object only. -/
theorem sameAt_of_set (hset : h.set target key value = .ok h₁) (hne : v ≠ target) : h.SameAt h₁ v := by
  cases target with
  | object r =>
    cases hset
    cases v with
    | array r' => rfl
    | object r' => exact fields_setField_of_ne h (fun he => hne (congrArg Value.object he)) key value
    | _ => trivial
  | array r =>
    rw [set] at hset
    split at hset <;> cases hset
    cases v with
    | array r' => exact items_setItems_of_ne h (fun he => hne (congrArg Value.array he)) _
    | object r' => rfl
    | _ => trivial
  | _ => cases hset

/-- A write adds nothing but the value that is written and the filling in front of it. -/
theorem mem_values_of_set (hset : h.set target key value = .ok h₁) (hw : w ∈ h₁.values target) :
    w = value ∨ w = .undefined ∨ w ∈ h.values target := by
  cases target with
  | object r =>
    cases hset
    rw [values, fields_setField_self] at hw
    exact (OrderedMap.mem_values_insert hw).imp_right .inr
  | array r =>
    rw [set] at hset
    split at hset <;> cases hset
    rw [values, items_setItems_self] at hw
    exact (mem_writeAt (Array.mem_toList_iff.1 hw)).imp_right (.imp_right Array.mem_toList_iff.2)
  | _ => cases hset

theorem isContainer_of_set (hset : h.set target key value = .ok h₁) : isContainer target = true := by
  cases target with
  | object r => rfl
  | array r => rfl
  | _ => cases hset

/-- A write to where one may go of what one may reach. -/
theorem Confined.set (hc : h.Confined roots h₁) (htarget : h.Within roots h₁ target) (hvalue : h.Within roots h₁ value)
    (hset : h₁.set target key value = .ok h₂) : h.Confined roots h₂ := by
  have hg := grown_of_set hset
  refine hc.step hg (fun v hv => ?_) fun v w hw => ?_
  · obtain rfl : v = target := by
      by_contra hne
      exact hv (sameAt_of_set hset hne)
    exact (htarget (isContainer_of_set hset)).elim .inr fun hnew => .inl hnew.1
  · by_cases he : v = target
    · subst he
      refine .inr ?_
      rcases mem_values_of_set hset hw with rfl | rfl | hold
      · exact hvalue.mono hg
      · exact within_of_not_isContainer rfl
      · exact (hc.closed v htarget w hold).mono hg
    · rw [(sameAt_of_set hset he).values] at hw
      by_cases hhas : h₁.Has v
      · exact .inl ⟨hhas, hw⟩
      · rw [values_of_not_has hhas] at hw
        cases hw

end Heap

end ViewBinding

/-! How deep values are nested. A value that does not contain itself is nested no deeper than its heap has arrays and
objects, so the depth of the heap is a bound that following it to its end never reaches. -/
namespace ViewBinding.Heap

open View

variable {h : Heap} {v w : Value} {n : ℕ}

/-- Whether arrays and objects are nested at most `n` deep in a value. -/
def NestedWithin (h : Heap) : ℕ → Value → Prop
  | 0, v => isContainer v = false
  | n + 1, v => ∀ w ∈ h.values v, h.NestedWithin n w

theorem values_of_not_isContainer (hv : isContainer v = false) : h.values v = [] := by
  cases v <;> first | rfl | cases hv

theorem nestedWithin_of_not_isContainer (hv : isContainer v = false) (n : ℕ) : h.NestedWithin n v := by
  cases n with
  | zero => exact hv
  | succ n =>
    intro w hw
    rw [values_of_not_isContainer hv] at hw
    cases hw

theorem NestedWithin.succ (hv : h.NestedWithin n v) : h.NestedWithin (n + 1) v := by
  induction n generalizing v with
  | zero => exact nestedWithin_of_not_isContainer hv 1
  | succ n ih => exact fun w hw => ih (hv w hw)

theorem NestedWithin.mono {m : ℕ} (hv : h.NestedWithin n v) (hle : n ≤ m) : h.NestedWithin m v := by
  induction hle with
  | refl => exact hv
  | step _ ih => exact ih.succ

/-- The way from a value to what can be reached starts with one of the values in it. -/
theorem Reach.eq_or_exists {root : Value} (hr : h.Reach [root] v) :
    v = root ∨ ∃ w ∈ h.values root, h.Reach [w] v := by
  induction hr with
  | root hv => exact .inl (List.mem_singleton.1 hv)
  | @inside u v _ hv ih =>
    refine .inr ?_
    rcases ih with rfl | ⟨w, hw, hreach⟩
    · exact ⟨v, hv, .root List.mem_cons_self⟩
    · exact ⟨w, hw, hreach.inside hv⟩

theorem Reach.of_inside (hw : w ∈ h.values v) {u : Value} (hr : h.Reach [w] u) : h.Reach [v] u := by
  induction hr with
  | root hu => exact .inside (.root List.mem_cons_self) (List.mem_singleton.1 hu ▸ hw)
  | inside _ hu ih => exact ih.inside hu

/-- Values that contain themselves neither as a whole nor in a part: every way into one comes to an end. -/
inductive Acyclic (h : Heap) : Value → Prop where
  | of_inside {v : Value} (hinside : ∀ w ∈ h.values v, Acyclic h w) : Acyclic h v

/-- No way leads from inside such a value back to it. -/
theorem Acyclic.not_reach (hv : h.Acyclic v) : ∀ w ∈ h.values v, ¬ h.Reach [w] v := by
  induction hv with
  | of_inside _ ih =>
    intro w hw hr
    rcases hr.eq_or_exists with rfl | ⟨u, hu, hreach⟩
    · exact ih _ hw _ hw (.root List.mem_cons_self)
    · exact ih w hw u hu (hreach.inside hw)

/-- The arrays and objects of a heap. -/
def containers (h : Heap) : List Value :=
  (List.range h.arrays.size).map (fun i => .array ⟨i⟩) ++ (List.range h.objects.size).map fun i => .object ⟨i⟩

theorem mem_containers (hv : h.Has v) : v ∈ h.containers := by
  cases v with
  | array r => exact List.mem_append_left _ (List.mem_map.2 ⟨r.index, List.mem_range.2 hv, rfl⟩)
  | object r => exact List.mem_append_right _ (List.mem_map.2 ⟨r.index, List.mem_range.2 hv, rfl⟩)
  | _ => cases hv

theorem length_containers (h : Heap) : h.containers.length + 1 = h.depth := by
  simp [containers, depth]

theorem length_le_of_has {passed : List Value} (hnodup : passed.Nodup) (hhas : ∀ u ∈ passed, h.Has u) :
    passed.length ≤ h.containers.length :=
  (hnodup.subperm fun u hu => mem_containers (hhas u hu)).length_le

/--
A value that does not contain itself is nested no deeper than there are arrays and objects that have not been passed on
the way to it, since on no way the same one occurs twice.
-/
theorem Acyclic.nestedWithin_of_passed (hv : h.Acyclic v) : ∀ (n : ℕ) (passed : List Value), passed.Nodup →
    (∀ u ∈ passed, h.Has u) → (∀ u ∈ passed, ¬ h.Reach [v] u) → h.depth ≤ n + passed.length → h.NestedWithin n v := by
  induction hv with
  | @of_inside v hinside ih =>
    intro n passed hnodup hhas hbehind hn
    have hpassed := length_le_of_has hnodup hhas
    rw [← h.length_containers] at hn
    obtain ⟨m, rfl⟩ : ∃ m, n = m + 1 := ⟨n - 1, by omega⟩
    by_cases hv : h.Has v
    · have hnodup' : (v :: passed).Nodup :=
        List.nodup_cons.2 ⟨fun hmem => hbehind v hmem (.root List.mem_cons_self), hnodup⟩
      have hhas' : ∀ u ∈ v :: passed, h.Has u := List.forall_mem_cons.2 ⟨hv, hhas⟩
      intro w hw
      refine ih w hw m (v :: passed) hnodup' hhas' ?_ (by rw [List.length_cons, ← h.length_containers]; omega)
      exact List.forall_mem_cons.2
        ⟨(Acyclic.of_inside hinside).not_reach w hw, fun u hu hr => hbehind u hu (hr.of_inside hw)⟩
    · -- nothing is in what the heap does not have
      intro w hw
      rw [values_of_not_has hv] at hw
      cases hw

/-- The depth of a heap suffices to follow a value that does not contain itself to its end. -/
theorem Acyclic.nestedWithin_depth (hv : h.Acyclic v) : h.NestedWithin h.depth v :=
  hv.nestedWithin_of_passed h.depth [] .nil (List.forall_mem_nil _) (List.forall_mem_nil _) le_rfl

end ViewBinding.Heap
