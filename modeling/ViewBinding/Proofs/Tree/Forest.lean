import ViewBinding.Proofs.Tree.Branch

/-! The slots of a tree are shared out between the handles in use and the list of free slots. Taking a
slot and giving one back keep that, and leave what all other handles name as it is. -/
namespace ViewBinding.Tree

/-- How often a slot has been given back, counted in 32 bits. -/
def generation (t : Tree) (i : Nat) : UInt32 := (t.slots[i]?.map (·.generation)).getD 0

/-- Every slot belongs to one handle in use or occurs once in the free list, and free slots are empty. -/
structure Arena (t : Tree) (used : List NodeId) : Prop where
  slots : (used.map (·.slot) ++ t.free).Perm (List.range t.slots.size)
  live : ∀ x ∈ used, t.isLive x = true
  vacant : ∀ i ∈ t.free, ∃ g, t.slots[i]? = some ⟨g, none, [], .text ""⟩

variable {t : Tree} {used used' : List NodeId} {x y : NodeId}

theorem isLive_iff : t.isLive x = true ↔ ∃ s, t.slots[x.slot]? = some s ∧ s.generation = x.generation := by
  simp only [isLive, get?, Option.isSome_iff_exists, Option.filter_eq_some_iff, beq_iff_eq]

theorem generation_of_isLive (h : t.isLive x = true) : t.generation x.slot = x.generation := by
  obtain ⟨s, hs, hg⟩ := isLive_iff.1 h
  simp [generation, hs, hg]

namespace Arena

theorem perm (h : t.Arena used) (hp : used.Perm used') : t.Arena used' where
  slots := ((hp.symm.map _).append_right _).trans h.slots
  live x hx := h.live x (hp.mem_iff.2 hx)
  vacant := h.vacant

theorem touch (h : t.Arena used) : t.touch.Arena used := ⟨h.slots, h.live, h.vacant⟩

theorem nodup_slots (h : t.Arena used) : (used.map (·.slot) ++ t.free).Nodup :=
  h.slots.nodup_iff.2 List.nodup_range

theorem nodup (h : t.Arena used) : used.Nodup :=
  List.Nodup.of_map _ (List.nodup_append.1 h.nodup_slots).1

theorem length_le (h : t.Arena used) : used.length ≤ t.slots.size := by
  have := h.slots.length_eq
  simp only [List.length_append, List.length_map, List.length_range] at this
  omega

theorem lt_size_of_mem_free (h : t.Arena used) {i : Nat} (hi : i ∈ t.free) : i < t.slots.size :=
  List.mem_range.1 (h.slots.mem_iff.1 (List.mem_append_right _ hi))

theorem slot_notMem_free (h : t.Arena used) (hx : x ∈ used) : x.slot ∉ t.free := fun hf =>
  (List.nodup_append.1 h.nodup_slots).2.2 x.slot (List.mem_map_of_mem hx) x.slot hf rfl

theorem eq_of_slot_eq (h : t.Arena used) (hx : x ∈ used) (hy : y ∈ used) (he : x.slot = y.slot) : x = y :=
  List.inj_on_of_nodup_map (List.nodup_append.1 h.nodup_slots).1 hx hy he

/-- A live handle whose slot is not free is in use. -/
theorem mem_of_isLive (h : t.Arena used) (hx : t.isLive x = true) (hf : x.slot ∉ t.free) : x ∈ used := by
  obtain ⟨s, hs, hg⟩ := isLive_iff.1 hx
  have hmem : x.slot ∈ used.map (·.slot) ++ t.free :=
    h.slots.mem_iff.2 (List.mem_range.2 (Array.getElem?_eq_some_iff.1 hs).1)
  obtain ⟨y, hy, hxy⟩ := List.mem_map.1 ((List.mem_append.1 hmem).resolve_right hf)
  have hgen := generation_of_isLive (h.live y hy)
  rw [hxy, generation_of_isLive hx] at hgen
  obtain rfl : y = x := by cases x; cases y; simp_all
  exact hy

/-- A node with a parent or with children is in use. -/
theorem mem_of_get? (h : t.Arena used) {s : Slot} (hs : t.get? x = some s)
    (hne : s.parent ≠ none ∨ s.children ≠ [] ∨ s.data ≠ .text "") : x ∈ used := by
  refine h.mem_of_isLive (by simp [isLive, hs]) fun hf => ?_
  obtain ⟨g, hg⟩ := h.vacant _ hf
  simp only [get?, hg, Option.filter_eq_some_iff, Option.some.injEq] at hs
  obtain ⟨rfl, -⟩ := hs
  simp at hne

theorem mem_of_isElement (h : t.Arena used) (hx : t.isElement x = true) : x ∈ used := by
  rw [isElement, element?, Option.isSome_iff_exists] at hx
  obtain ⟨e, he⟩ := hx
  obtain ⟨s, hs, hd⟩ := Option.bind_eq_some_iff.1 he
  refine h.mem_of_get? hs (.inr (.inr fun ht => ?_))
  simp [ht, NodeData.element?] at hd

theorem mem_of_parent? (h : t.Arena used) {p : NodeId} (hx : t.parent? x = some p) : x ∈ used := by
  obtain ⟨s, hs, hp⟩ := Option.bind_eq_some_iff.1 hx
  exact h.mem_of_get? hs (.inl (by simp [hp]))

end Arena

theorem get?_modify_of_slot_ne (t : Tree) {id other : NodeId} (h : other.slot ≠ id.slot)
    (f : Slot → Slot) : (t.modify id f).get? other = t.get? other := by
  simp [get?, modify, Array.getElem?_modify, Ne.symm h]

theorem generation_modify (t : Tree) (id : NodeId) {f : Slot → Slot}
    (hf : ∀ s, (f s).generation = s.generation) (i : Nat) :
    (t.modify id f).generation i = t.generation i := by
  simp only [generation, modify, Array.getElem?_modify]
  split
  · cases t.slots[i]? with
    | none => rfl
    | some s => by_cases h : s.generation = id.generation <;> simp [h, hf]
  · rfl

/-- Changing a node in use keeps the shares of the slots. -/
theorem Arena.modify (h : t.Arena used) {id : NodeId} (hid : id ∈ used) {f : Slot → Slot}
    (hf : ∀ s, (f s).generation = s.generation) : (t.modify id f).Arena used where
  slots := by simpa [Tree.modify] using h.slots
  live x hx := by rw [isLive_modify t id x hf]; exact h.live x hx
  vacant i hi := by
    have hne : id.slot ≠ i := fun he => h.slot_notMem_free hid (he ▸ hi)
    simpa [Tree.modify, Array.getElem?_modify, hne] using h.vacant i hi

/-- Nodes have been added; all nodes that were there are as they were. -/
structure Grown (t t' : Tree) (used new : List NodeId) : Prop where
  arena : t'.Arena (new ++ used)
  kept : ∀ x ∈ used, t'.get? x = t.get? x
  generation : ∀ i, t'.generation i = t.generation i
  mutations : t'.mutations = t.mutations

/-- Nodes have been given back; all other nodes are as they were. -/
structure Shrunk (t t' : Tree) (used gone : List NodeId) : Prop where
  arena : t'.Arena used
  kept : ∀ x ∈ used, t'.get? x = t.get? x
  generation : ∀ i, t'.generation i = t.generation i + if i ∈ gone.map (·.slot) then 1 else 0
  mutations : t'.mutations = t.mutations

theorem Grown.refl (h : t.Arena used) : Grown t t used [] := ⟨h, fun _ _ => rfl, fun _ => rfl, rfl⟩

theorem Grown.trans {t' t'' : Tree} {a b : List NodeId} (h : Grown t t' used a)
    (h' : Grown t' t'' (a ++ used) b) : Grown t t'' used (b ++ a) where
  arena := by simpa using h'.arena
  kept x hx := (h'.kept x (List.mem_append_right _ hx)).trans (h.kept x hx)
  generation i := (h'.generation i).trans (h.generation i)
  mutations := h'.mutations.trans h.mutations

/-- The node that is made has no children yet, and its handle is in no other use. -/
theorem allocate_spec (h : t.Arena used) (parent : Option NodeId) (data : NodeData) :
    Grown t (t.allocate parent data).2 used [(t.allocate parent data).1] ∧
      (t.allocate parent data).2.get? (t.allocate parent data).1 =
        some ⟨(t.allocate parent data).1.generation, parent, [], data⟩ := by
  unfold allocate
  cases hfree : t.free with
  | nil =>
    have hlt : ∀ x ∈ used, x.slot < t.slots.size := fun x hx =>
      List.mem_range.1 (h.slots.mem_iff.1 (List.mem_append_left _ (List.mem_map_of_mem hx)))
    have hkept : ∀ x ∈ used,
        get? { t with slots := t.slots.push ⟨0, parent, [], data⟩, free := [] } x = t.get? x := by
      intro x hx
      have := hlt x hx
      simp [get?, Array.getElem?_push, Nat.ne_of_lt this]
    have hnew : get? { t with slots := t.slots.push ⟨0, parent, [], data⟩, free := [] }
        ⟨t.slots.size, 0⟩ = some ⟨0, parent, [], data⟩ := by simp [get?]
    refine ⟨⟨⟨?_, ?_, by simp⟩, hkept, fun i => ?_, rfl⟩, hnew⟩
    · have := h.slots
      simp only [hfree, List.append_nil] at this
      simpa [List.range_succ] using
        (List.Perm.cons t.slots.size this).trans (List.perm_append_singleton _ _).symm
    · simp only [List.singleton_append, List.forall_mem_cons]
      refine ⟨by simp [isLive, hnew], fun x hx => ?_⟩
      rw [isLive, hkept x hx]
      exact h.live x hx
    · simp only [generation, Array.getElem?_push]
      split
      · next hi => simp [hi]
      · rfl
  | cons i free =>
    obtain ⟨g, hg⟩ := h.vacant i (by simp [hfree])
    have hi : i < t.slots.size := h.lt_size_of_mem_free (by simp [hfree])
    have hnotin : ∀ x ∈ used, x.slot ≠ i := fun x hx he =>
      h.slot_notMem_free hx (by simp [hfree, he])
    simp only [hg, Option.map_some, Option.getD_some]
    have hkept : ∀ x ∈ used, get? { t with
        slots := t.slots.setIfInBounds i ⟨g, parent, [], data⟩, free := free } x = t.get? x := by
      intro x hx
      simp [get?, Ne.symm (hnotin x hx)]
    have hnew : get? { t with slots := t.slots.setIfInBounds i ⟨g, parent, [], data⟩, free := free }
        ⟨i, g⟩ = some ⟨g, parent, [], data⟩ := by simp [get?, hi]
    refine ⟨⟨⟨?_, ?_, ?_⟩, hkept, fun j => ?_, rfl⟩, hnew⟩
    · have := h.slots
      rw [hfree] at this
      simpa using List.perm_middle.symm.trans this
    · simp only [List.singleton_append, List.forall_mem_cons]
      refine ⟨by simp [isLive, hnew], fun x hx => ?_⟩
      rw [isLive, hkept x hx]
      exact h.live x hx
    · intro j hj
      have hne : i ≠ j := by
        have hnd := (List.nodup_append.1 h.nodup_slots).2.1
        rw [hfree] at hnd
        exact fun he => (List.nodup_cons.1 hnd).1 (he ▸ hj)
      simpa [hne] using h.vacant j (by simp [hfree, hj])
    · simp only [generation, Array.getElem?_setIfInBounds]
      split
      · next hij =>
          obtain ⟨_, hgi⟩ := Array.getElem?_eq_some_iff.1 hg
          subst hij
          simp [hi, hgi]
      · rfl

theorem Shrunk.refl (h : t.Arena used) : Shrunk t t used [] :=
  ⟨h, fun _ _ => rfl, fun _ => by simp, rfl⟩

/-- Giving back a node in use leaves the others as they are. -/
theorem freeSlot_spec (h : t.Arena (x :: used)) : Shrunk t (t.freeSlot x) used [x] := by
  obtain ⟨s, hs, hg⟩ := isLive_iff.1 (h.live x (by simp))
  have hx : x.slot < t.slots.size := (Array.getElem?_eq_some_iff.1 hs).1
  have hne : ∀ y ∈ used, y.slot ≠ x.slot := fun y hy he =>
    (List.nodup_cons.1 h.nodup).1 (h.eq_of_slot_eq (by simp [hy]) (by simp) he ▸ hy)
  have hkept : ∀ y ∈ used, (t.freeSlot x).get? y = t.get? y := by
    intro y hy
    simp only [freeSlot, h.live x (by simp), if_true]
    exact get?_modify_of_slot_ne t (hne y hy) _
  refine ⟨⟨?_, fun y hy => ?_, fun i hi => ?_⟩, hkept, fun i => ?_, ?_⟩
  · simp only [freeSlot, h.live x (by simp), if_true, modify, Array.size_modify]
    exact List.perm_middle.trans (by simpa using h.slots)
  · rw [isLive, hkept y hy]
    exact h.live y (by simp [hy])
  · simp only [freeSlot, h.live x (by simp), if_true, List.mem_cons] at hi
    simp only [freeSlot, h.live x (by simp), if_true, modify, Array.getElem?_modify]
    rcases hi with rfl | hi
    · exact ⟨s.generation + 1, by simp [hs, hg]⟩
    · have : x.slot ≠ i := fun he => h.slot_notMem_free (List.mem_cons_self ..) (he ▸ hi)
      simpa [this] using h.vacant i hi
  · simp only [generation, freeSlot, h.live x (by simp), if_true, modify, Array.getElem?_modify]
    by_cases hi : x.slot = i
    · subst hi
      simp [hs, hg]
    · simp [hi, Ne.symm hi]
  · simp [freeSlot, h.live x (by simp), modify]

end ViewBinding.Tree

/-! A tree is a forest of branches: one of them is that of the document, and the others have been taken
out of it or are not in it yet. Placing markup adds a branch, and releasing a node takes one away. -/
namespace ViewBinding.Tree

open Branch

variable {t t' : Tree} {used : List NodeId}

theorem Grown.perm {new new' : List NodeId} (h : Grown t t' used new) (hp : new.Perm new') :
    Grown t t' used new' :=
  ⟨h.arena.perm (hp.append_right _), h.kept, h.generation, h.mutations⟩

/-- The handles that are new are none of those that were in use. -/
theorem Grown.fresh {new : List NodeId} (h : Grown t t' used new) {x : NodeId} (hx : x ∈ new) :
    x ∉ used := fun hu =>
  (List.nodup_append.1 h.arena.nodup).2.2 x hx x hu rfl

/-- Changing a node that is new leaves those that were there as they are. -/
theorem Grown.modify {new : List NodeId} (h : Grown t t' used new) {id : NodeId} (hid : id ∈ new)
    {f : Slot → Slot} (hf : ∀ s, (f s).generation = s.generation) :
    Grown t (t'.modify id f) used new where
  arena := h.arena.modify (List.mem_append_left _ hid) hf
  kept x hx := by
    rw [get?_modify_of_ne t' (fun he => h.fresh hid (by rwa [← he])) hf]
    exact h.kept x hx
  generation i := (generation_modify t' id hf i).trans (h.generation i)
  mutations := h.mutations

mutual

/-- Placing markup adds a branch that reads like the markup. -/
theorem place_spec (m : Markup) {t : Tree} {used : List NodeId} (h : t.Arena used)
    (parent : Option NodeId) :
    ∃ b : Branch, (t.place parent m).1 = b.handle ∧ Spells m b ∧ (t.place parent m).2.Holds parent b ∧
      Grown t (t.place parent m).2 used b.handles := by
  cases m with
  | text s =>
    obtain ⟨hgrown, hget⟩ := allocate_spec h parent (.text s)
    refine ⟨.node (t.allocate parent (.text s)).1 (.text s) [], rfl, ⟨_, rfl⟩, ?_, ?_⟩
    · exact holds_node.2 ⟨hget, by simp⟩
    · simpa [place] using hgrown
  | element e children =>
    obtain ⟨hgrown, hget⟩ := allocate_spec h parent (.element e)
    simp only [place]
    generalize t.allocate parent (.element e) = made at hgrown hget
    obtain ⟨id, t₁⟩ := made
    obtain ⟨bs, hids, hspells, hholds, hall⟩ := placeAll_spec children hgrown.arena id
    generalize t₁.placeAll id children = rest at hids hholds hall
    obtain ⟨ids, t₂⟩ := rest
    simp only at hids hholds hall hgrown hget ⊢
    have hnew : ∀ x ∈ bs.flatMap handles, x ≠ id := fun x hx he =>
      hall.fresh hx (by simp [he])
    have htotal := (hgrown.trans hall).perm (List.perm_append_singleton id _)
    refine ⟨.node id (.element e) bs, rfl, ⟨id, bs, rfl, hspells⟩, ?_, ?_⟩
    · refine holds_node.2 ⟨?_, fun b hb => (hholds b hb).congr fun x hx => ?_⟩
      · rw [get?_modify_self]
        · rw [hall.kept id (by simp), hget, Option.map_some, hids]
        · exact fun _ => rfl
      · refine get?_modify_of_ne t₂ (hnew x (List.mem_flatMap.2 ⟨b, hb, hx⟩)) ?_
        exact fun _ => rfl
    · rw [handles_node]
      exact htotal.modify (by simp) fun _ => rfl

theorem placeAll_spec (ms : List Markup) {t : Tree} {used : List NodeId} (h : t.Arena used)
    (parent : NodeId) :
    ∃ bs : List Branch, (t.placeAll parent ms).1 = bs.map Branch.handle ∧ SpellsAll ms bs ∧
      (∀ b ∈ bs, (t.placeAll parent ms).2.Holds (some parent) b) ∧
      Grown t (t.placeAll parent ms).2 used (bs.flatMap handles) := by
  cases ms with
  | nil => exact ⟨[], rfl, rfl, by simp, .refl h⟩
  | cons m rest =>
    obtain ⟨b, hid, hspells, hholds, hgrown⟩ := place_spec m h (some parent)
    simp only [placeAll]
    generalize t.place (some parent) m = made at hid hholds hgrown
    obtain ⟨id, t₁⟩ := made
    obtain ⟨bs, hids, hrest, hall, hmore⟩ := placeAll_spec rest hgrown.arena parent
    generalize t₁.placeAll parent rest = more at hids hall hmore
    obtain ⟨ids, t₂⟩ := more
    simp only at hid hids hholds hgrown hall hmore ⊢
    refine ⟨b :: bs, by simp [hid, hids], ⟨b, bs, rfl, hspells, hrest⟩, ?_, ?_⟩
    · refine List.forall_mem_cons.2 ⟨hholds.congr fun x hx => ?_, hall⟩
      exact hmore.kept x (List.mem_append_left _ hx)
    · exact (hgrown.trans hmore).perm List.perm_append_comm

end

theorem Shrunk.trans {t₁ t₂ : Tree} {a b : List NodeId} (h : t.Arena (a ++ (b ++ used)))
    (h₁ : Shrunk t t₁ (b ++ used) a) (h₂ : Shrunk t₁ t₂ used b) : Shrunk t t₂ used (a ++ b) where
  arena := h₂.arena
  kept x hx := (h₂.kept x hx).trans (h₁.kept x (List.mem_append_right _ hx))
  generation i := by
    have hnd := h.nodup_slots
    simp only [List.map_append, List.append_assoc] at hnd
    have hdisjoint := (List.nodup_append.1 hnd).2.2
    rw [h₂.generation, h₁.generation]
    by_cases ha : i ∈ a.map (·.slot) <;> by_cases hb : i ∈ b.map (·.slot)
    · exact absurd rfl (hdisjoint i ha i (by simp [hb]))
    all_goals simp [ha, hb]
  mutations := h₂.mutations.trans h₁.mutations

theorem foldl_freeSlot_spec {xs : List NodeId} (h : t.Arena (xs ++ used)) :
    Shrunk t (xs.foldl freeSlot t) used xs := by
  induction xs generalizing t with
  | nil => exact .refl h
  | cons x xs ih =>
    have hone : Shrunk t (t.freeSlot x) (xs ++ used) [x] := freeSlot_spec h
    exact Shrunk.trans (a := [x]) h hone (ih hone.arena)

/-- Releasing a node gives back the slots of its branch. -/
theorem release_spec {parent : Option NodeId} {b : Branch} (hb : t.Holds parent b)
    (h : t.Arena (b.handles ++ used)) : Shrunk t (t.release b.handle) used b.handles := by
  have hsize : b.size ≤ t.slots.size := by
    have := h.length_le
    simp only [List.length_append, length_handles] at this
    omega
  rw [release, preorder, hb.preorderWithin hsize]
  exact foldl_freeSlot_spec h

theorem foldl_release_spec {parent : Option NodeId} {bs : List Branch}
    (hbs : ∀ b ∈ bs, t.Holds parent b) (h : t.Arena (bs.flatMap handles ++ used)) :
    Shrunk t ((bs.map Branch.handle).foldl release t) used (bs.flatMap handles) := by
  induction bs generalizing t with
  | nil => exact .refl h
  | cons b bs ih =>
    rw [List.flatMap_cons, List.append_assoc] at h
    have hone := release_spec (hbs b (by simp)) h
    refine Shrunk.trans h hone (ih (fun c hc => ?_) hone.arena)
    refine (hbs c (by simp [hc])).congr fun x hx => hone.kept x ?_
    exact List.mem_append_left _ (List.mem_flatMap.2 ⟨c, hc, hx⟩)

end ViewBinding.Tree
