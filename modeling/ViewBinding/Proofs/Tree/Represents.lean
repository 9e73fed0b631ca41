import ViewBinding.Proofs.Tree.Splice

/-! Well-formed trees. Every node in use is in exactly one branch of the forest that a tree spells out, so
what a walk finds can be read off the branches. -/
namespace ViewBinding.Tree

open Branch

/-- The tree spells out the forest, the branch of the document among it, and has no other node in use. -/
structure Represents (t : Tree) (forest : List Branch) : Prop where
  holds : ∀ b ∈ forest, t.Holds none b
  arena : t.Arena (forest.flatMap handles)
  document : ∃ b ∈ forest, b.handle = root ∧ b.data = .document

def WellFormed (t : Tree) : Prop := ∃ forest, t.Represents forest

/-- A node in use is live and does not wait in the free list. -/
def InUse (t : Tree) (x : NodeId) : Prop := t.isLive x = true ∧ x.slot ∉ t.free

theorem exists_document_replace {forest : List Branch} {id : NodeId} {new : Branch}
    (h : ∃ b ∈ forest, b.handle = root ∧ b.data = .document) (hid : new.handle = id)
    (hdata : ∀ b ∈ forest, b.handle = id → new.data = b.data) :
    ∃ b ∈ forest.map (Branch.replace id new), b.handle = root ∧ b.data = .document := by
  obtain ⟨b, hb, hroot, hdoc⟩ := h
  refine ⟨_, List.mem_map_of_mem hb, (handle_replace hid b).trans hroot, ?_⟩
  have hnew := hdata b hb
  obtain ⟨x, d, cs⟩ := b
  rw [replace_node]
  split
  · next hx => exact (hnew hx).trans hdoc
  · exact hdoc

namespace Represents

variable {t t' : Tree} {forest : List Branch} {sub : Branch} {x : NodeId}

theorem nodup (h : t.Represents forest) : (forest.flatMap handles).Nodup := h.arena.nodup

theorem mem_handles_iff (h : t.Represents forest) : x ∈ forest.flatMap handles ↔ t.InUse x :=
  ⟨fun hx => ⟨h.arena.live x hx, h.arena.slot_notMem_free hx⟩, fun hx => h.arena.mem_of_isLive hx.1 hx.2⟩

theorem part (h : t.Represents forest) (hs : sub ∈ forest.flatMap parts) : ∃ p, t.Holds p sub := by
  obtain ⟨b, hb, hsub⟩ := List.mem_flatMap.1 hs
  exact (h.holds b hb).part hsub

theorem exists_part (h : t.Represents forest) (hx : t.InUse x) :
    ∃ sub ∈ forest.flatMap parts, sub.handle = x := by
  obtain ⟨b, hb, hxb⟩ := List.mem_flatMap.1 (h.mem_handles_iff.2 hx)
  obtain ⟨sub, hsub, rfl⟩ := List.mem_map.1 hxb
  exact ⟨sub, List.mem_flatMap.2 ⟨b, hb, hsub⟩, rfl⟩

theorem handles_subset (hs : sub ∈ forest.flatMap parts) : sub.handles ⊆ forest.flatMap handles := by
  intro x hx
  obtain ⟨b, hb, hsub⟩ := List.mem_flatMap.1 hs
  exact List.mem_flatMap.2 ⟨b, hb, handles_subset_of_mem_parts hsub hx⟩

theorem inUse_of_mem (h : t.Represents forest) (hs : sub ∈ forest.flatMap parts) (hx : x ∈ sub.handles) :
    t.InUse x :=
  h.mem_handles_iff.1 (handles_subset hs hx)

theorem size_le (h : t.Represents forest) (hs : sub ∈ forest.flatMap parts) :
    sub.size ≤ t.slots.size := by
  rw [← length_handles]
  exact (splicesAt_sublist h.nodup hs).length_le.trans h.arena.length_le

theorem preorder (h : t.Represents forest) (hs : sub ∈ forest.flatMap parts) :
    t.preorder sub.handle = sub.handles := by
  obtain ⟨p, hp⟩ := h.part hs
  exact hp.preorderWithin (h.size_le hs)

theorem content (h : t.Represents forest) (hs : sub ∈ forest.flatMap parts) :
    t.content sub.handle = sub.content := by
  obtain ⟨p, hp⟩ := h.part hs
  exact hp.contentWithin (h.size_le hs)

theorem nodup_of_mem_parts (h : t.Represents forest) (hs : sub ∈ forest.flatMap parts) :
    sub.handles.Nodup :=
  h.nodup.sublist (splicesAt_sublist h.nodup hs)

/-- The handles outside of a branch. -/
theorem exists_rest (h : t.Represents forest) (hs : sub ∈ forest.flatMap parts) :
    ∃ rest, (forest.flatMap handles).Perm (sub.handles ++ rest) :=
  exists_perm_of_mem_parts h.nodup hs

/-- A tree that has changed at one branch only spells out the forest with that branch replaced. -/
theorem replace (h : t.Represents forest) (hs : sub ∈ forest.flatMap parts) {new : Branch}
    {rest : List NodeId} (hperm : (forest.flatMap handles).Perm (sub.handles ++ rest))
    (hid : new.handle = sub.handle) (hdata : new.data = sub.data)
    (hnew : ∀ p, t.Holds p sub → t'.Holds p new) (hrest : ∀ x ∈ rest, t'.get? x = t.get? x)
    (harena : t'.Arena (new.handles ++ rest)) :
    t'.Represents (forest.map (Branch.replace sub.handle new)) where
  holds := by
    refine holds_replace h.holds h.nodup hs hid hnew fun x hx hxs => hrest x ?_
    exact (List.mem_append.1 (hperm.mem_iff.1 hx)).resolve_left hxs
  arena := harena.perm (perm_replace h.nodup hs hperm new).symm
  document := by
    obtain ⟨p, hp⟩ := h.part hs
    refine exists_document_replace h.document hid fun b hb he => hdata.trans ?_
    have hget := (h.holds b hb).get?
    rw [he, hp.get?] at hget
    simpa using congrArg (Option.map Slot.data) hget

/-- A node that is not on top of its tree is a child of another one. -/
theorem exists_up (h : t.Represents forest) (hs : sub ∈ forest.flatMap parts) {p : NodeId}
    (hp : t.parent? sub.handle = some p) :
    ∃ up ∈ forest.flatMap parts, up.handle = p ∧ sub ∈ up.children := by
  obtain ⟨b, hb, hsub⟩ := List.mem_flatMap.1 hs
  rcases eq_or_mem_children hsub with rfl | ⟨up, hup, hc⟩
  · rw [(h.holds sub hb).parent?] at hp
    cases hp
  · have hmem : up ∈ forest.flatMap parts := List.mem_flatMap.2 ⟨b, hb, hup⟩
    obtain ⟨q, hq⟩ := h.part hmem
    rw [(hq.child hc).parent?] at hp
    exact ⟨up, hmem, Option.some.inj hp, hc⟩

theorem perm (h : t.Represents forest) {forest' : List Branch} (hp : forest.Perm forest') :
    t.Represents forest' where
  holds b hb := h.holds b (hp.mem_iff.2 hb)
  arena := h.arena.perm (hp.flatMap_right _)
  document := h.document.imp fun _ hb => ⟨hp.mem_iff.1 hb.1, hb.2⟩

theorem touch (h : t.Represents forest) : t.touch.Represents forest where
  holds b hb := (h.holds b hb).congr fun _ _ => rfl
  arena := h.arena.touch
  document := h.document

theorem child_mem_parts {up : Branch} (hup : up ∈ forest.flatMap parts) (hc : sub ∈ up.children) :
    sub ∈ forest.flatMap parts := by
  obtain ⟨b, hb, hub⟩ := List.mem_flatMap.1 hup
  exact List.mem_flatMap.2 ⟨b, hb, parts_trans (mem_parts_of_mem_children hc) hub⟩

end Represents

namespace WellFormed

variable {t : Tree} {x p a y : NodeId}

/-- Parents list their children, and children name their parents. -/
theorem mem_children_iff (h : t.WellFormed) : x ∈ t.children p ↔ t.parent? x = some p := by
  obtain ⟨forest, h⟩ := h
  constructor
  · intro hx
    obtain ⟨s, hs⟩ : ∃ s, t.get? p = some s ∧ s.children ≠ [] := by
      unfold Tree.children at hx
      cases hget : t.get? p with
      | none => simp [hget] at hx
      | some s => exact ⟨s, rfl, fun he => by simp [hget, he] at hx⟩
    have hp := h.mem_handles_iff.1 (h.arena.mem_of_get? hs.1 (.inr (.inl hs.2)))
    obtain ⟨up, hup, rfl⟩ := h.exists_part hp
    obtain ⟨q, hq⟩ := h.part hup
    rw [hq.children] at hx
    obtain ⟨sub, hsub, rfl⟩ := List.mem_map.1 hx
    exact (hq.child hsub).parent?
  · intro hx
    obtain ⟨sub, hsub, rfl⟩ := h.exists_part (h.mem_handles_iff.1 (h.arena.mem_of_parent? hx))
    obtain ⟨up, hup, rfl, hc⟩ := h.exists_up hsub hx
    obtain ⟨q, hq⟩ := h.part hup
    rw [hq.children]
    exact List.mem_map_of_mem hc

theorem inUse_of_parent? (h : t.WellFormed) (hx : t.parent? x = some p) : t.InUse x := by
  obtain ⟨forest, h⟩ := h
  exact h.mem_handles_iff.1 (h.arena.mem_of_parent? hx)

theorem inUse_parent (h : t.WellFormed) (hx : t.parent? x = some p) : t.InUse p := by
  obtain ⟨forest, h⟩ := h
  obtain ⟨sub, hsub, rfl⟩ := h.exists_part (h.mem_handles_iff.1 (h.arena.mem_of_parent? hx))
  obtain ⟨up, hup, rfl, -⟩ := h.exists_up hsub hx
  exact h.inUse_of_mem hup up.handle_mem_handles

theorem inUse_of_isElement (h : t.WellFormed) (hx : t.isElement x = true) : t.InUse x := by
  obtain ⟨forest, h⟩ := h
  exact h.mem_handles_iff.1 (h.arena.mem_of_isElement hx)

theorem inUse_of_element? (h : t.WellFormed) {e : Markup.Element} (he : t.element? x = some e) :
    t.InUse x :=
  h.inUse_of_isElement (Option.isSome_of_eq_some he)

theorem nodup_children (h : t.WellFormed) (p : NodeId) : (t.children p).Nodup := by
  by_cases hne : t.children p = []
  · simp [hne]
  · obtain ⟨x, hx⟩ := List.exists_mem_of_ne_nil _ hne
    have hp := h.inUse_parent (h.mem_children_iff.1 hx)
    obtain ⟨forest, h⟩ := h
    obtain ⟨up, hup, rfl⟩ := h.exists_part hp
    obtain ⟨q, hq⟩ := h.part hup
    have hnd := h.nodup_of_mem_parts hup
    obtain ⟨id, d, cs⟩ := up
    rw [handles_node] at hnd
    rw [hq.children]
    exact nodup_map_handle (List.nodup_cons.1 hnd).2

/-- Below a node are the nodes that have it for an ancestor. -/
theorem mem_preorder_iff (h : t.WellFormed) (ha : t.InUse a) :
    y ∈ t.preorder a ↔ a ∈ y :: t.ancestors y := by
  have hw := h
  obtain ⟨forest, h⟩ := h
  obtain ⟨up, hup, rfl⟩ := h.exists_part ha
  rw [h.preorder hup]
  constructor
  · intro hy
    obtain ⟨sub, hsub, rfl⟩ := List.mem_map.1 hy
    obtain ⟨q, hq⟩ := h.part hup
    exact hq.mem_ancestorsWithin hsub (by have := h.size_le hup; omega)
  · unfold ancestors
    generalize t.slots.size = fuel
    induction fuel generalizing y with
    | zero =>
      intro hy
      rw [ancestorsWithin, List.mem_singleton] at hy
      exact hy ▸ up.handle_mem_handles
    | succ fuel ih =>
      intro hy
      rw [ancestorsWithin] at hy
      rcases List.mem_cons.1 hy with rfl | hy
      · exact up.handle_mem_handles
      · cases hp : t.parent? y with
        | none => simp [hp] at hy
        | some p =>
          rw [hp] at hy
          -- the parent is in the branch, and so are its children
          obtain ⟨mid, hmid, rfl⟩ := List.mem_map.1 (ih hy)
          have hmem : mid ∈ forest.flatMap parts := by
            obtain ⟨b, hb, hub⟩ := List.mem_flatMap.1 hup
            exact List.mem_flatMap.2 ⟨b, hb, parts_trans hmid hub⟩
          obtain ⟨q, hq⟩ := h.part hmem
          have hc := hw.mem_children_iff.2 hp
          rw [hq.children] at hc
          obtain ⟨sub, hsub, rfl⟩ := List.mem_map.1 hc
          exact List.mem_map_of_mem (parts_trans (mem_parts_of_mem_children hsub) hmid)

theorem inUse_root (h : t.WellFormed) : t.InUse root := by
  obtain ⟨forest, h⟩ := h
  obtain ⟨b, hb, hroot, -⟩ := h.document
  rw [← hroot]
  exact h.inUse_of_mem (List.mem_flatMap.2 ⟨b, hb, b.self_mem_parts⟩) b.handle_mem_handles

theorem parent?_root (h : t.WellFormed) : t.parent? root = none := by
  obtain ⟨forest, h⟩ := h
  obtain ⟨b, hb, hroot, -⟩ := h.document
  rw [← hroot]
  exact (h.holds b hb).parent?

theorem element?_root (h : t.WellFormed) : t.element? root = none := by
  obtain ⟨forest, h⟩ := h
  obtain ⟨b, hb, hroot, hdata⟩ := h.document
  rw [← hroot, (h.holds b hb).element?, hdata]
  rfl

theorem self_mem_preorder (h : t.WellFormed) (ha : t.InUse a) : a ∈ t.preorder a :=
  (h.mem_preorder_iff ha).2 (List.mem_cons_self ..)

/-- A node in use is met once in document order. -/
theorem nodup_preorder (h : t.WellFormed) (ha : t.InUse a) : (t.preorder a).Nodup := by
  obtain ⟨forest, h⟩ := h
  obtain ⟨sub, hsub, rfl⟩ := h.exists_part ha
  rw [h.preorder hsub]
  exact h.nodup_of_mem_parts hsub

theorem preorder_eq_cons (h : t.WellFormed) (ha : t.InUse a) :
    t.preorder a = a :: (t.children a).flatMap t.preorder := by
  obtain ⟨forest, h⟩ := h
  obtain ⟨⟨id, data, cs⟩, hsub, rfl⟩ := h.exists_part ha
  obtain ⟨p, hp⟩ := h.part hsub
  rw [h.preorder hsub, hp.children, handles_node, handle_node, children_node, List.flatMap_map]
  congr 1
  refine List.flatMap_congr fun c hc => (h.preorder (Represents.child_mem_parts hsub hc)).symm

/-- The elements of the document are met once each. -/
theorem elements_sublist (h : t.WellFormed) : t.elements.Sublist (t.preorder root) := by
  rw [h.preorder_eq_cons h.inUse_root]
  exact List.filter_sublist.trans (List.sublist_cons_self ..)

/-- Every node below another one has its parent there. -/
theorem exists_parent (h : t.WellFormed) (ha : t.InUse a) (hy : y ∈ t.preorder a) (hne : y ≠ a) :
    ∃ q, t.parent? y = some q ∧ q ∈ t.preorder a := by
  obtain ⟨forest, h⟩ := h
  obtain ⟨up, hup, rfl⟩ := h.exists_part ha
  rw [h.preorder hup] at hy ⊢
  obtain ⟨sub, hsub, rfl⟩ := List.mem_map.1 hy
  rcases eq_or_mem_children hsub with rfl | ⟨mid, hmid, hc⟩
  · exact absurd rfl hne
  · obtain ⟨q, hq⟩ := h.part hup
    obtain ⟨q', hq'⟩ := hq.part hmid
    exact ⟨mid.handle, (hq'.child hc).parent?, List.mem_map_of_mem hmid⟩

/-- The children of a node below another one are below it as well, and they are not that one. -/
theorem mem_preorder_of_parent? (h : t.WellFormed) (ha : t.InUse a) (hp : p ∈ t.preorder a)
    (hy : t.parent? y = some p) : y ∈ t.preorder a ∧ y ≠ a := by
  have hw := h
  obtain ⟨forest, h⟩ := h
  obtain ⟨up, hup, rfl⟩ := h.exists_part ha
  rw [h.preorder hup] at hp ⊢
  obtain ⟨mid, hmid, rfl⟩ := List.mem_map.1 hp
  obtain ⟨q, hq⟩ := h.part hup
  obtain ⟨q', hq'⟩ := hq.part hmid
  have hc := hw.mem_children_iff.2 hy
  rw [hq'.children] at hc
  obtain ⟨sub, hsub, rfl⟩ := List.mem_map.1 hc
  refine ⟨List.mem_map_of_mem (parts_trans (mem_parts_of_mem_children hsub) hmid), fun he => ?_⟩
  exact ne_handle_of_mem_children (h.nodup_of_mem_parts hup) hmid hsub he

/-- A node is the document or has it for an ancestor. -/
theorem isConnected_iff (h : t.WellFormed) : t.isConnected x ↔ x ∈ t.preorder root := by
  rw [h.mem_preorder_iff h.inUse_root, isConnected, List.contains_iff_mem]

theorem inUse_of_mem_preorder (h : t.WellFormed) (ha : t.InUse a) (hy : y ∈ t.preorder a) : t.InUse y := by
  obtain ⟨forest, h⟩ := h
  obtain ⟨up, hup, rfl⟩ := h.exists_part ha
  rw [h.preorder hup] at hy
  exact h.inUse_of_mem hup hy

end WellFormed

/-- The data of a node. -/
def data (t : Tree) (x : NodeId) : NodeData := ((t.get? x).map (·.data)).getD .document

/-- Two trees differ in the data of their nodes at most. -/
structure SameShape (t t' : Tree) : Prop where
  get? : ∀ x, t'.get? x = (t.get? x).map fun s => { s with data := t'.data x }
  size : t'.slots.size = t.slots.size
  free : t'.free = t.free
  generation : ∀ i, t'.generation i = t.generation i
  vacant : ∀ i ∈ t.free, t'.slots[i]? = t.slots[i]?
  document : ∀ x, t.data x = .document → t'.data x = .document

namespace SameShape

variable {t t' t'' : Tree} {forest : List Branch}

theorem isLive (h : SameShape t t') (x : NodeId) : t'.isLive x = t.isLive x := by
  simp [Tree.isLive, h.get?]

theorem parent? (h : SameShape t t') (x : NodeId) : t'.parent? x = t.parent? x := by
  rw [Tree.parent?, h.get?, Tree.parent?]
  cases t.get? x <;> rfl

theorem children (h : SameShape t t') (x : NodeId) : t'.children x = t.children x := by
  rw [Tree.children, h.get?, Tree.children]
  cases t.get? x <;> rfl

theorem inUse (h : SameShape t t') (x : NodeId) : t'.InUse x ↔ t.InUse x := by
  rw [InUse, InUse, h.isLive, h.free]

theorem holds (h : SameShape t t') {parent : Option NodeId} {b : Branch} (hb : t.Holds parent b) :
    t'.Holds parent (b.relabel t'.data) := by
  induction b using Branch.induct generalizing parent with
  | node x data cs ih =>
    rw [relabel_node]
    refine holds_node.2 ⟨?_, fun c' hc' => ?_⟩
    · rw [h.get?, (holds_node.1 hb).1]
      simp [Function.comp_def]
    · obtain ⟨c, hc, rfl⟩ := List.mem_map.1 hc'
      exact ih c hc (hb.child hc)

theorem represents (h : SameShape t t') (hr : t.Represents forest) :
    t'.Represents (forest.map (Branch.relabel t'.data)) where
  holds b' hb' := by
    obtain ⟨b, hb, rfl⟩ := List.mem_map.1 hb'
    exact h.holds (hr.holds b hb)
  arena := by
    have hhandles : (forest.map (Branch.relabel t'.data)).flatMap handles = forest.flatMap handles := by
      rw [List.flatMap_map]
      exact List.flatMap_congr fun b _ => handles_relabel _ b
    rw [hhandles]
    refine ⟨?_, fun x hx => ?_, fun i hi => ?_⟩
    · rw [h.free, h.size]
      exact hr.arena.slots
    · rw [h.isLive]
      exact hr.arena.live x hx
    · rw [h.free] at hi
      rw [h.vacant i hi]
      exact hr.arena.vacant i hi
  document := by
    obtain ⟨b, hb, hroot, hdata⟩ := hr.document
    refine ⟨_, List.mem_map_of_mem hb, by simpa using hroot, ?_⟩
    rw [data_relabel]
    refine h.document _ ?_
    rw [Tree.data, (hr.holds b hb).get?]
    exact hdata

theorem represents_cons (h : SameShape t t') {b : Branch} (hr : t.Represents (b :: forest)) :
    ∃ b' forest', b'.handle = b.handle ∧ b'.handles = b.handles ∧ t'.Represents (b' :: forest') :=
  ⟨_, _, handle_relabel _ b, handles_relabel _ b, h.represents hr⟩

end SameShape

end ViewBinding.Tree
