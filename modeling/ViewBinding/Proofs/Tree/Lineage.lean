import ViewBinding.Proofs.Tree.Later

/-! Which nodes lie in which. The way up from a node is its own as long as the node is there: parents do not
change, and a node goes with its parent. -/
namespace ViewBinding.Tree

variable {t t' : Tree} {F : Footprint} {x y a b : NodeId}

/-- The first node is the second one or lies in it. -/
def Inside (t : Tree) : NodeId → NodeId → Prop := Relation.ReflTransGen fun x y => t.parent? x = some y

namespace Inside

theorem refl (t : Tree) (x : NodeId) : t.Inside x x := Relation.ReflTransGen.refl

theorem trans (h : t.Inside x y) (h' : t.Inside y a) : t.Inside x a := Relation.ReflTransGen.trans h h'

theorem up (hx : t.parent? x = some y) (h : t.Inside y a) : t.Inside x a := Relation.ReflTransGen.head hx h

theorem parent (hx : t.parent? x = some y) : t.Inside x y := up hx (refl t y)

theorem eq_or_up (h : t.Inside x a) : x = a ∨ ∃ y, t.parent? x = some y ∧ t.Inside y a :=
  Relation.ReflTransGen.cases_head h

/-- What lies in two nodes lies in one of them within the other. -/
theorem total (h : t.Inside x a) (h' : t.Inside x b) : t.Inside a b ∨ t.Inside b a :=
  Relation.ReflTransGen.total_of_right_unique (fun _ _ _ h h' => Option.some.inj (h.symm.trans h')) h h'

/-- What lies in a node is this node or lies in a child of it. -/
theorem eq_or_child (h : t.Inside x a) : x = a ∨ ∃ c, t.parent? c = some a ∧ t.Inside x c := by
  rcases Relation.ReflTransGen.cases_tail h with he | ⟨c, hc, hp⟩
  · exact .inl he.symm
  · exact .inr ⟨c, hp, hc⟩

end Inside

theorem inside_of_mem_ancestors (h : a ∈ x :: t.ancestors x) : t.Inside x a := by
  unfold ancestors at h
  generalize t.slots.size = fuel at h
  induction fuel generalizing x with
  | zero =>
    obtain rfl : a = x := by simpa [ancestorsWithin] using h
    exact .refl t a
  | succ fuel ih =>
    rw [ancestorsWithin] at h
    rcases List.mem_cons.1 h with rfl | h
    · exact .refl t a
    · cases hp : t.parent? x with
      | none => simp [hp] at h
      | some p => exact .up hp (ih (by simpa [hp] using h))

namespace WellFormed

theorem mem_preorder_iff_inside (h : t.WellFormed) (ha : t.InUse a) : x ∈ t.preorder a ↔ t.Inside x a := by
  constructor
  · rw [h.mem_preorder_iff ha]
    exact inside_of_mem_ancestors
  · intro hx
    induction hx using Relation.ReflTransGen.head_induction_on with
    | refl => exact h.self_mem_preorder ha
    | head hp _ ih => exact (h.mem_preorder_of_parent? ha ih hp).1

theorem inUse_of_inside (h : t.WellFormed) (hx : t.InUse x) (ha : t.Inside x a) : t.InUse a := by
  induction ha with
  | refl => exact hx
  | tail _ hp _ => exact h.inUse_parent hp

theorem mem_ancestors_of_inside (h : t.WellFormed) (hx : t.InUse x) (ha : t.Inside x a) : a ∈ x :: t.ancestors x := by
  have hau := h.inUse_of_inside hx ha
  exact (h.mem_preorder_iff hau).1 ((h.mem_preorder_iff_inside hau).2 ha)

/-- No node lies in a child of its own. -/
theorem not_inside_of_parent? (h : t.WellFormed) (hx : t.parent? x = some y) : ¬ t.Inside y x := fun hy => by
  have hu := h.inUse_of_parent? hx
  exact (h.mem_preorder_of_parent? hu ((h.mem_preorder_iff_inside hu).2 hy) hx).2 rfl

theorem inside_antisymm (h : t.WellFormed) (hx : t.Inside x y) (hy : t.Inside y x) : x = y := by
  rcases hx.eq_or_up with rfl | ⟨z, hz, hzy⟩
  · rfl
  · exact absurd (hzy.trans hy) (h.not_inside_of_parent? hz)

theorem isConnected_iff_inside (h : t.WellFormed) : t.isConnected x = true ↔ t.Inside x root := by
  rw [h.isConnected_iff, h.mem_preorder_iff_inside h.inUse_root]

end WellFormed

namespace Later

/-- The way up from a node that is still there is still there. -/
theorem inside (h : Later F t t') (ht : t.WellFormed) (hm : t'.mutations < t.mutations + 2 ^ 32)
    (hx : t.Inside x a) (hx' : t'.InUse x) : t'.Inside x a := by
  induction hx using Relation.ReflTransGen.head_induction_on with
  | refl => exact .refl t' a
  | head hp _ ih =>
    have hp' := h.parent?_eq_some hm (ht.inUse_of_parent? hp) hx' hp
    exact .up hp' (ih (h.wellFormed.inUse_parent hp'))

/-- From a node of the document no other way leads up than before. -/
theorem inside_of_inside (h : Later F t t') (ht : t.WellFormed) (hm : t'.mutations < t.mutations + 2 ^ 32)
    (hc : t.Inside x root) (ha : t'.Inside x a) : t.Inside x a := by
  induction ha using Relation.ReflTransGen.head_induction_on with
  | refl => exact .refl t a
  | @head x y hp _ ih =>
    have hx' := h.wellFormed.inUse_of_parent? hp
    rcases hc.eq_or_up with rfl | ⟨z, hz, hzr⟩
    · rw [h.wellFormed.parent?_root] at hp
      cases hp
    · have hp' := h.parent?_eq_some hm (ht.inUse_of_parent? hz) hx' hz
      rw [hp] at hp'
      obtain rfl := Option.some.inj hp'
      exact .up hz (ih hzr)

/-- A node of the document stays if nothing on the way up from it is removed or gets a new content. -/
theorem inUse_of_stays (h : Later F t t') (hm : t'.mutations < t.mutations + 2 ^ 32)
    (hx : t.Inside x root) (hr : ∀ y, t.Inside x y → ¬ F.removed y) (hf : ∀ y, t.Inside x y → ¬ F.filled y) :
    t'.InUse x := by
  induction hx using Relation.ReflTransGen.head_induction_on with
  | refl => exact h.wellFormed.inUse_root
  | @head x y hp _ ih =>
    have hy := ih (fun z hz => hr z (.up hp hz)) fun z hz => hf z (.up hp hz)
    rcases h.stays x y hp (hr x (.refl t x)) (hf y (.parent hp)) with hp' | hex
    · exact h.wellFormed.inUse_of_parent? hp'
    · exact absurd hy (hex.not_inUse hm)

theorem isElement_eq (h : Later F t t') (hm : t'.mutations < t.mutations + 2 ^ 32) (hx : t.InUse x)
    (hx' : t'.InUse x) : t'.isElement x = t.isElement x :=
  (h.elements x hx).resolve_right fun hex => hex.not_inUse hm hx'

/-- Where nothing happens in a node, there is nothing new in it. -/
theorem inside_of_untouched (h : Later F t t') (hm : t'.mutations < t.mutations + 2 ^ 32)
    (ht : t.WellFormed) (ha : t.InUse a) (hf : ∀ y, t.Inside y a → ¬ F.filled y)
    (hc : ∀ y, t.Inside y a → y ≠ a → ¬ F.followed y ∧ ¬ F.removed y) (hx : t'.Inside x a) : t.Inside x a := by
  induction hx using Relation.ReflTransGen.head_induction_on with
  | refl => exact .refl t a
  | @head x y hp hy ih =>
    have hyu := ht.inUse_of_mem_preorder ha ((ht.mem_preorder_iff_inside ha).2 ih)
    have hyu' := h.wellFormed.inUse_parent hp
    have hchildren : t'.children y = t.children y := by
      refine (h.children y hyu (hf y ih) fun z hz => ?_).resolve_right fun hex => hex.not_inUse hm hyu'
      have hz := ht.mem_children_iff.1 hz
      refine hc z (.up hz ih) fun he => ?_
      exact ht.not_inside_of_parent? hz (he ▸ ih)
    have hmem := h.wellFormed.mem_children_iff.2 hp
    rw [hchildren] at hmem
    exact .up (ht.mem_children_iff.1 hmem) ih

end Later

/-- What is in a copy of a node is a copy of something in the node. -/
theorem exists_element_of_copy {forest : List Branch} (hr : t.Represents forest) {template : NodeId} {b : Branch} {m : Markup}
    (hm : (t.content template).head? = some m) (hspells : Branch.Spells m b) (ht : t.InUse template) {e : Markup.Element}
    (he : e ∈ b.elements) : ∃ y, t.Inside y template ∧ t.element? y = some e := by
  obtain ⟨sub, hsub, rfl⟩ := hr.exists_part ht
  have hmem : e ∈ (Markup.elementsOf sub.content).map (·.1) := by
    rw [hr.content hsub] at hm
    rw [hspells.elements] at he
    rw [Markup.elementsOf_eq]
    exact List.map_subset _ (fun y hy => List.mem_flatMap.2 ⟨m, List.mem_of_mem_head? hm, hy⟩) he
  obtain ⟨part, hpart, hdata⟩ := List.mem_filterMap.1 (Branch.mem_elements_of_content hmem)
  obtain ⟨up, hup⟩ := hr.part hsub
  obtain ⟨up', hup'⟩ := hup.part hpart
  refine ⟨part.handle, ?_, hup'.element?.trans hdata⟩
  have hw : t.WellFormed := ⟨_, hr⟩
  rw [← hw.mem_preorder_iff_inside ht, hr.preorder hsub]
  exact List.mem_map_of_mem hpart

end ViewBinding.Tree
