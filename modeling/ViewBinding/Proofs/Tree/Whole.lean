import ViewBinding.Proofs.Tree.Lineage

/-! Trees in one piece. All nodes in use are in the branch of the document, so the slots are shared out between the
nodes of the document and the free list. -/
namespace ViewBinding.Tree

open Branch

variable {t : Tree} {x y : NodeId}

/-- A tree that spells out the branch of the document and nothing else. -/
def Whole (t : Tree) : Prop := ∃ b, t.Represents [b]

/-- Nodes one after the other, each below the next one. -/
def IsWay (t : Tree) (xs : List NodeId) : Prop := xs.IsChain fun y p => t.parent? y = some p

/--
The order of an arena. The document stays and has no parent, children and parents name each other, no node is listed
twice, the way up from every node leads to the document, and a slot is free or has one node of the document.
-/
structure Consistent (t : Tree) : Prop where
  document : t.InUse root ∧ t.parent? root = none ∧ (t.get? root).map (·.data) = some .document
  children : ∀ x c, t.isLive x = true → c ∈ t.children x → t.isLive c = true ∧ t.parent? c = some x
  listed : (t.slots.toList.flatMap (·.children)).Nodup
  ways : ∀ x, t.InUse x → t.IsWay (x :: t.ancestors x) ∧ (x :: t.ancestors x).Nodup ∧
    (x :: t.ancestors x).getLast? = some root
  shared : ∀ i < t.slots.size, (t.free.count i = 1 ∧ ∀ x, t.isConnected x = true → x.slot ≠ i) ∨
    (i ∉ t.free ∧ ∃! x, t.isConnected x = true ∧ x.slot = i)
  free_lt : ∀ i ∈ t.free, i < t.slots.size

theorem children_of_getElem? {i : Nat} {s : Slot} (hs : t.slots[i]? = some s) : t.children ⟨i, s.generation⟩ = s.children := by
  simp [Tree.children, Tree.get?, hs, Option.filter]

namespace WellFormed

/-- A node is listed by its parent only, and only once. -/
theorem nodup_listed (h : t.WellFormed) : (t.slots.toList.flatMap (·.children)).Nodup := by
  have hparent : ∀ {i s y}, t.slots.toList[i]? = some s → y ∈ s.children → t.parent? y = some ⟨i, s.generation⟩ := by
    intro i s y hs hy
    rw [← children_of_getElem? (by simpa using hs)] at hy
    exact h.mem_children_iff.1 hy
  refine List.nodup_flatMap.2 ⟨fun s hs => ?_, List.pairwise_iff_getElem.2 fun i j hi hj hij y hyi hyj => ?_⟩
  · obtain ⟨i, hi⟩ := List.getElem?_of_mem hs
    exact children_of_getElem? (t := t) (by simpa using hi) ▸ h.nodup_children _
  · have hp := (hparent (List.getElem?_eq_getElem hi) hyi).symm.trans (hparent (List.getElem?_eq_getElem hj) hyj)
    exact absurd (congrArg NodeId.slot (Option.some.inj hp)) hij.ne

end WellFormed

/-- The ancestors of a node are its parents, one after the other. -/
theorem isWay_ancestors (t : Tree) (x : NodeId) : t.IsWay (x :: t.ancestors x) := by
  unfold ancestors
  generalize t.slots.size = fuel
  induction fuel generalizing x with
  | zero => exact List.isChain_singleton x
  | succ fuel ih =>
    rw [ancestorsWithin]
    cases hp : t.parent? x with
    | none => exact List.isChain_singleton x
    | some p => exact List.isChain_cons_cons.2 ⟨hp, ih p⟩

namespace IsWay

variable {xs : List NodeId}

theorem inside (h : t.IsWay (x :: xs)) (hy : y ∈ x :: xs) : t.Inside x y := by
  induction xs generalizing x with
  | nil => exact List.mem_singleton.1 hy ▸ .refl t x
  | cons p xs ih =>
    obtain ⟨hp, h⟩ := List.isChain_cons_cons.1 h
    rcases List.mem_cons.1 hy with rfl | hy
    · exact .refl t y
    · exact .up hp (ih h hy)

/-- No node is above itself, so a way comes to no node twice. -/
theorem nodup (h : t.IsWay xs) (ht : t.WellFormed) : xs.Nodup := by
  induction xs with
  | nil => exact List.nodup_nil
  | cons x xs ih =>
    refine List.nodup_cons.2 ⟨fun hx => ?_, ih h.tail⟩
    obtain _ | ⟨p, xs⟩ := xs
    · cases hx
    · exact ht.not_inside_of_parent? (List.isChain_cons_cons.1 h).1 (inside h.tail hx)

/-- A node without a parent can only be at the end. -/
theorem getLast? (h : t.IsWay xs) (hy : y ∈ xs) (hnone : t.parent? y = none) : xs.getLast? = some y := by
  induction xs with
  | nil => cases hy
  | cons x xs ih =>
    obtain _ | ⟨p, xs⟩ := xs
    · rw [List.mem_singleton.1 hy]
      rfl
    · have hp := (List.isChain_cons_cons.1 h).1
      rw [List.getLast?_cons_cons]
      refine ih h.tail ((List.mem_cons.1 hy).resolve_left fun he => ?_)
      rw [← he, hnone] at hp
      cases hp

end IsWay

namespace Whole

theorem wellFormed (h : t.Whole) : t.WellFormed := h.imp' (fun b => [b]) fun _ hb => hb

/-- The nodes in use are those of the document. -/
theorem inUse_iff (h : t.Whole) : t.InUse x ↔ t.isConnected x = true := by
  have ht := h.wellFormed
  obtain ⟨b, hr⟩ := h
  obtain ⟨b', hb', hroot, -⟩ := hr.document
  obtain rfl := List.mem_singleton.1 hb'
  have hpre : t.preorder root = b'.handles := hroot ▸ hr.preorder (by simp [b'.self_mem_parts])
  rw [ht.isConnected_iff, hpre, ← hr.mem_handles_iff, List.flatMap_singleton]

theorem inside_root (h : t.Whole) (hx : t.InUse x) : t.Inside x root :=
  h.wellFormed.isConnected_iff_inside.1 (h.inUse_iff.1 hx)

/-- The elements of a tree in one piece are all that there are. -/
theorem mem_elements (ht : t.Whole) : x ∈ t.elements ↔ t.isElement x = true := by
  have hw := ht.wellFormed
  have hroot : t.isElement root = false := by rw [isElement, hw.element?_root]; rfl
  have hpre := hw.preorder_eq_cons hw.inUse_root
  rw [elements, elementsBelow, List.mem_filter]
  refine ⟨And.right, fun hx => ⟨?_, hx⟩⟩
  have hmem := (hw.mem_preorder_iff_inside hw.inUse_root).2 (ht.inside_root (hw.inUse_of_isElement hx))
  rw [hpre] at hmem
  refine (List.mem_cons.1 hmem).resolve_left ?_
  rintro rfl
  rw [hroot] at hx
  cases hx

/-- A slot that is not free has a node. -/
theorem exists_inUse (h : t.Whole) {i : Nat} (hi : i < t.slots.size) (hf : i ∉ t.free) : ∃ x, t.InUse x ∧ x.slot = i := by
  obtain ⟨b, hr⟩ := h
  have hmem := hr.arena.slots.mem_iff.2 (List.mem_range.2 hi)
  obtain ⟨x, hx, rfl⟩ := List.mem_map.1 ((List.mem_append.1 hmem).resolve_right hf)
  exact ⟨x, hr.mem_handles_iff.1 hx, rfl⟩

theorem eq_of_slot_eq (h : t.Whole) (hx : t.InUse x) (hy : t.InUse y) (he : x.slot = y.slot) : x = y := by
  obtain ⟨b, hr⟩ := h
  exact hr.arena.eq_of_slot_eq (hr.mem_handles_iff.2 hx) (hr.mem_handles_iff.2 hy) he

theorem consistent (h : t.Whole) : t.Consistent where
  document := by
    have ht := h.wellFormed
    refine ⟨ht.inUse_root, ht.parent?_root, ?_⟩
    obtain ⟨b, hr⟩ := h
    obtain ⟨b', hb', hroot, hdata⟩ := hr.document
    rw [← hroot, (hr.holds b' hb').get?, Option.map_some, hdata]
  children x c _ hc := by
    have hp := h.wellFormed.mem_children_iff.1 hc
    exact ⟨(h.wellFormed.inUse_of_parent? hp).1, hp⟩
  listed := h.wellFormed.nodup_listed
  ways x hx := by
    have hway := t.isWay_ancestors x
    refine ⟨hway, hway.nodup h.wellFormed, hway.getLast? ?_ h.wellFormed.parent?_root⟩
    exact h.wellFormed.mem_ancestors_of_inside hx (h.inside_root hx)
  shared i hi := by
    by_cases hf : i ∈ t.free
    · refine .inl ⟨?_, fun x hx he => (h.inUse_iff.2 hx).2 (he ▸ hf)⟩
      obtain ⟨b, hr⟩ := h
      exact List.count_eq_one_of_mem (List.nodup_append.1 hr.arena.nodup_slots).2.1 hf
    · obtain ⟨x, hx, rfl⟩ := h.exists_inUse hi hf
      refine .inr ⟨hf, x, ⟨h.inUse_iff.1 hx, rfl⟩, fun y hy => ?_⟩
      exact h.eq_of_slot_eq (h.inUse_iff.2 hy.1) hx hy.2
  free_lt i hi := by
    obtain ⟨b, hr⟩ := h
    exact hr.arena.lt_size_of_mem_free hi

end Whole

end ViewBinding.Tree
