import ViewBinding.Proofs.Tree.Whole

/-! Document order: a node comes before what is in it, and what is in a child before what is in a later one. -/
namespace ViewBinding.Tree

variable {t : Tree} {a b p x y : NodeId}

/-- The first node comes before the second one in document order. -/
inductive Before (t : Tree) : NodeId → NodeId → Prop
  | outside {x y : NodeId} (h : t.Inside y x) (hne : y ≠ x) : Before t x y
  | beside {p a b x y : NodeId} (h : [a, b].Sublist (t.children p)) (hx : t.Inside x a) (hy : t.Inside y b) : Before t x y

namespace WellFormed

theorem inside_of_mem_preorderWithin (ht : t.WellFormed) {fuel : Nat} (h : y ∈ t.preorderWithin fuel x) : t.Inside y x := by
  induction fuel generalizing x with
  | zero => cases h
  | succ fuel ih =>
    rcases List.mem_cons.1 h with rfl | h
    · exact .refl t y
    · obtain ⟨c, hc, hy⟩ := List.mem_flatMap.1 h
      exact (ih hy).trans (.parent (ht.mem_children_iff.1 hc))

theorem pairwise_before_preorderWithin (ht : t.WellFormed) (fuel : Nat) (x : NodeId) :
    (t.preorderWithin fuel x).Pairwise t.Before := by
  induction fuel generalizing x with
  | zero => exact .nil
  | succ fuel ih =>
    refine List.pairwise_cons.2 ⟨fun y hy => ?_, List.pairwise_flatMap.2 ⟨fun c _ => ih c, ?_⟩⟩
    · obtain ⟨c, hc, hy⟩ := List.mem_flatMap.1 hy
      have hcx := ht.mem_children_iff.1 hc
      have hyc := ht.inside_of_mem_preorderWithin hy
      refine .outside (hyc.trans (.parent hcx)) ?_
      rintro rfl
      exact ht.not_inside_of_parent? hcx hyc
    · refine List.pairwise_iff_forall_sublist.2 fun {a b} hab y hy z hz => ?_
      exact .beside hab (ht.inside_of_mem_preorderWithin hy) (ht.inside_of_mem_preorderWithin hz)

/-- The elements of a tree are listed in document order. -/
theorem pairwise_before_elements (ht : t.WellFormed) : t.elements.Pairwise t.Before :=
  (ht.pairwise_before_preorderWithin _ root).sublist ht.elements_sublist

theorem nodup_elements (ht : t.WellFormed) : t.elements.Nodup := (ht.nodup_preorder ht.inUse_root).sublist ht.elements_sublist

/-- The ancestors of a node are those other nodes in which it lies. -/
theorem mem_ancestors_iff (ht : t.WellFormed) (hx : t.InUse x) : y ∈ t.ancestors x ↔ t.Inside x y ∧ x ≠ y := by
  have hnodup := (t.isWay_ancestors x).nodup ht
  constructor
  · intro h
    refine ⟨inside_of_mem_ancestors (List.mem_cons_of_mem _ h), ?_⟩
    rintro rfl
    exact (List.nodup_cons.1 hnodup).1 h
  · rintro ⟨h, hne⟩
    exact (List.mem_cons.1 (ht.mem_ancestors_of_inside hx h)).resolve_left (Ne.symm hne)

end WellFormed

theorem takeWhile_ne_append {l r : List NodeId} (h : x ∉ l) : (l ++ x :: r).takeWhile (· != x) = l := by
  have hne : ∀ c ∈ l, (c != x) = true := fun c hc => bne_iff_ne.2 fun he => h (he ▸ hc)
  rw [List.takeWhile_append_of_pos hne]
  simp

/-- What stands before a member of a list without repetitions. -/
theorem pair_sublist_iff {l r : List NodeId} (h : (l ++ x :: r).Nodup) : [y, x].Sublist (l ++ x :: r) ↔ y ∈ l := by
  constructor
  · intro hyx
    obtain ⟨u, v, huv, hy, hx⟩ := List.cons_sublist_iff.1 hyx
    have hxu : x ∉ u := fun hxu => (List.nodup_append.1 (huv ▸ h)).2.2 x hxu x (List.singleton_sublist.1 hx) rfl
    rcases List.append_eq_append_iff.1 huv with ⟨w, rfl, hw⟩ | ⟨w, rfl, -⟩
    · cases w with
      | nil => simpa using hy
      | cons z w =>
        obtain ⟨rfl, -⟩ := List.cons.inj hw
        exact absurd (by simp) hxu
    · exact List.mem_append_left _ hy
  · intro hy
    exact (List.singleton_sublist.2 hy).append (List.singleton_sublist.2 (List.mem_cons_self ..))

/-- What stands right before a member of a list without repetitions. -/
theorem pair_infix_iff {l r : List NodeId} (h : (l ++ x :: r).Nodup) : [y, x] <:+: l ++ x :: r ↔ l.getLast? = some y := by
  have hfront : ∀ {u v : List NodeId}, (u ++ x :: v).Nodup → x ∉ u := fun {u v} hn hx =>
    (List.nodup_append.1 hn).2.2 x hx x (List.mem_cons_self ..) rfl
  constructor
  · rintro ⟨u, v, huv⟩
    have huv' : (u ++ [y]) ++ x :: v = l ++ x :: r := by simpa using huv
    have hl : u ++ [y] = l := by
      rw [← takeWhile_ne_append (hfront h), ← huv', takeWhile_ne_append (hfront (huv' ▸ h))]
    simp [← hl]
  · intro hy
    obtain ⟨u, rfl⟩ := List.getLast?_eq_some_iff.1 hy
    exact ⟨u, r, by simp⟩

theorem WellFormed.parent?_of_mem_elementChildren (ht : t.WellFormed) (h : x ∈ t.elementChildren p) :
    t.parent? x = some p :=
  ht.mem_children_iff.1 (List.mem_of_mem_filter h)

namespace Whole

/-- An element stands among the element children of its parent. -/
theorem exists_elementChildren (ht : t.Whole) (hx : t.isElement x = true) : ∃ p l r, t.parent? x = some p ∧
    t.elementChildren p = l ++ x :: r ∧ (l ++ x :: r).Nodup ∧ t.elementsBefore x = l.reverse := by
  have hw := ht.wellFormed
  obtain ⟨p, hp⟩ : ∃ p, t.parent? x = some p := by
    rcases (ht.inside_root (hw.inUse_of_isElement hx)).eq_or_up with rfl | ⟨p, hp, -⟩
    · rw [isElement, hw.element?_root] at hx
      cases hx
    · exact ⟨p, hp⟩
  have hmem : x ∈ t.elementChildren p := List.mem_filter.2 ⟨hw.mem_children_iff.2 hp, hx⟩
  have hnodup : (t.elementChildren p).Nodup := (hw.nodup_children p).filter _
  obtain ⟨l, r, hlr⟩ := List.append_of_mem hmem
  rw [hlr] at hnodup
  refine ⟨p, l, r, hp, hlr, hnodup, ?_⟩
  have hl : x ∉ l := fun h => (List.nodup_append.1 hnodup).2.2 x h x (List.mem_cons_self ..) rfl
  simp only [elementsBefore, hp, hlr, takeWhile_ne_append hl]

/-- Where a relation between element children of one node holds of an element, it does so below its parent. -/
theorem exists_elementChildren_iff (ht : t.Whole) {x : NodeId} (hp : t.parent? x = some p) {P : List NodeId → Prop}
    (hP : ∀ xs, P xs → x ∈ xs) : (∃ q, P (t.elementChildren q)) ↔ P (t.elementChildren p) := by
  refine ⟨?_, fun h => ⟨p, h⟩⟩
  rintro ⟨q, hq⟩
  have := ht.wellFormed.parent?_of_mem_elementChildren (hP _ hq)
  rw [hp] at this
  obtain rfl := Option.some.inj this
  exact hq

/-- The elements before an element are its earlier siblings. -/
theorem mem_elementsBefore_iff (ht : t.Whole) (hx : t.isElement x = true) :
    y ∈ t.elementsBefore x ↔ ∃ p, [y, x].Sublist (t.elementChildren p) := by
  obtain ⟨p, l, r, hp, hlr, hnodup, hbefore⟩ := ht.exists_elementChildren hx
  rw [ht.exists_elementChildren_iff hp fun _ h => h.subset (by simp), hlr, hbefore, pair_sublist_iff hnodup,
    List.mem_reverse]

/-- The nearest of them is the one next to it. -/
theorem head?_elementsBefore_iff (ht : t.Whole) (hx : t.isElement x = true) :
    (t.elementsBefore x).head? = some y ↔ ∃ p, [y, x] <:+: t.elementChildren p := by
  obtain ⟨p, l, r, hp, hlr, hnodup, hbefore⟩ := ht.exists_elementChildren hx
  rw [ht.exists_elementChildren_iff hp fun _ h => h.subset (by simp), hlr, hbefore, pair_infix_iff hnodup,
    List.head?_reverse]

/-- There is none before the first element child. -/
theorem elementsBefore_eq_nil_iff (ht : t.Whole) (hx : t.isElement x = true) :
    t.elementsBefore x = [] ↔ ∃ p, (t.elementChildren p).head? = some x := by
  obtain ⟨p, l, r, hp, hlr, hnodup, hbefore⟩ := ht.exists_elementChildren hx
  rw [ht.exists_elementChildren_iff (P := fun xs => xs.head? = some x) hp fun _ h => List.mem_of_mem_head? h, hlr, hbefore,
    List.reverse_eq_nil_iff]
  cases l with
  | nil => simp
  | cons y l =>
    have hne : y ≠ x := by rintro rfl; simp at hnodup
    simp [hne]

end Whole

end ViewBinding.Tree
