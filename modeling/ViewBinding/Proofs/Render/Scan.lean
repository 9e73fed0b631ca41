import ViewBinding.Proofs.Tree.Lineage
import ViewBinding.View.Scan

/-! What a scan finds: nodes below the one it starts from, elements that are neither templates nor copies, and
templates. -/
namespace ViewBinding

namespace Scan

@[simp] theorem elements_append (a b : Scan) : (a.append b).elements = a.elements ++ b.elements := rfl

@[simp] theorem templates_append (a b : Scan) : (a.append b).templates = a.templates ++ b.templates := rfl

theorem elements_foldr (scans : List Scan) :
    (scans.foldr append .empty).elements = scans.flatMap elements := by
  induction scans with
  | nil => rfl
  | cons s scans ih => simp [ih]

theorem templates_foldr (scans : List Scan) :
    (scans.foldr append .empty).templates = scans.flatMap templates := by
  induction scans with
  | nil => rfl
  | cons s scans ih => simp [ih]

end Scan

namespace View

variable {v : View} {t : Tree} {copies : List NodeId} {id x : NodeId}

/-- An element is bound if no template and no copy is met on the way to it. -/
theorem mem_elements_scanWithin {fuel : Nat} (h : x ∈ (v.scanWithin t copies fuel id).elements) :
    x ∈ t.preorderWithin fuel id ∧ t.isElement x = true ∧
      t.hasAttr x (v.attributeName .foreach) = false ∧ x ∉ copies := by
  induction fuel generalizing id with
  | zero => simp [scanWithin, Scan.empty] at h
  | succ fuel ih =>
    rw [scanWithin] at h
    rw [Tree.preorderWithin]
    split_ifs at h with helement htemplate hcopy
    · simp [Scan.empty] at h
    · simp at h
    · simp [Scan.empty] at h
    · simp only [Scan.elements_append, Scan.elements_foldr, List.mem_append, List.mem_singleton,
        List.mem_flatMap, List.mem_map] at h
      rcases h with rfl | ⟨_, ⟨c, hc, rfl⟩, hx⟩
      · exact ⟨List.mem_cons_self .., by simpa using helement, by simpa using htemplate, by simpa using hcopy⟩
      · obtain ⟨hmem, hrest⟩ := ih hx
        exact ⟨List.mem_cons_of_mem _ (List.mem_flatMap.2 ⟨c, hc, hmem⟩), hrest⟩

theorem mem_templates_scanWithin {fuel : Nat} (h : x ∈ (v.scanWithin t copies fuel id).templates) :
    x ∈ t.preorderWithin fuel id ∧ t.isElement x = true ∧
      t.hasAttr x (v.attributeName .foreach) = true := by
  induction fuel generalizing id with
  | zero => simp [scanWithin, Scan.empty] at h
  | succ fuel ih =>
    rw [scanWithin] at h
    rw [Tree.preorderWithin]
    split_ifs at h with helement htemplate hcopy
    · simp [Scan.empty] at h
    · obtain rfl : x = id := by simpa using h
      exact ⟨List.mem_cons_self .., by simpa using helement, htemplate⟩
    · simp [Scan.empty] at h
    · simp only [Scan.templates_append, Scan.templates_foldr, List.nil_append, List.mem_flatMap,
        List.mem_map] at h
      obtain ⟨_, ⟨c, hc, rfl⟩, hx⟩ := h
      obtain ⟨hmem, hrest⟩ := ih hx
      exact ⟨List.mem_cons_of_mem _ (List.mem_flatMap.2 ⟨c, hc, hmem⟩), hrest⟩

/-- Templates are found once each. -/
theorem templates_scanWithin_sublist (v : View) (t : Tree) (copies : List NodeId) (fuel : Nat) (id : NodeId) :
    List.Sublist (v.scanWithin t copies fuel id).templates (t.preorderWithin fuel id) := by
  induction fuel generalizing id with
  | zero => exact List.nil_sublist _
  | succ fuel ih =>
    rw [scanWithin, Tree.preorderWithin]
    split_ifs
    · exact List.nil_sublist _
    · exact (List.nil_sublist _).cons_cons id
    · exact List.nil_sublist _
    · rw [Scan.templates_append, List.nil_append, Scan.templates_foldr, List.flatMap_map]
      exact (List.Sublist.flatMap_right _ fun c _ => ih c).cons id

/-- Elements are found once each, in document order. -/
theorem elements_scanWithin_sublist (v : View) (t : Tree) (copies : List NodeId) (fuel : Nat) (id : NodeId) :
    List.Sublist (v.scanWithin t copies fuel id).elements (t.preorderWithin fuel id) := by
  induction fuel generalizing id with
  | zero => exact List.nil_sublist _
  | succ fuel ih =>
    rw [scanWithin, Tree.preorderWithin]
    split_ifs
    · exact List.nil_sublist _
    · exact List.nil_sublist _
    · exact List.nil_sublist _
    · rw [Scan.elements_append, Scan.elements_foldr, List.flatMap_map]
      exact (List.Sublist.flatMap_right _ fun c _ => ih c).cons_cons id

theorem mem_elements_scan (h : x ∈ (v.scan t copies id).elements) :
    x ∈ t.preorder id ∧ t.isElement x = true ∧ t.hasAttr x (v.attributeName .foreach) = false ∧
      x ∉ copies :=
  mem_elements_scanWithin h

theorem mem_templates_scan (h : x ∈ (v.scan t copies id).templates) :
    x ∈ t.preorder id ∧ t.isElement x = true ∧ t.hasAttr x (v.attributeName .foreach) = true :=
  mem_templates_scanWithin h

theorem elements_scan_sublist (v : View) (t : Tree) (copies : List NodeId) (id : NodeId) :
    List.Sublist (v.scan t copies id).elements (t.preorder id) :=
  elements_scanWithin_sublist ..

/-- A node that a scan passes: an element that is neither a template nor a copy on record. -/
structure Open (v : View) (t : Tree) (copies : List NodeId) (x : NodeId) : Prop where
  isElement : t.isElement x = true
  plain : t.hasAttr x (v.attributeName .foreach) = false
  unrecorded : x ∉ copies

/-- Every node on the way from one node up to another one is passed. -/
def OpenWay (v : View) (t : Tree) (copies : List NodeId) (x a : NodeId) : Prop :=
  t.Inside x a ∧ ∀ y, t.Inside x y → t.Inside y a → Open v t copies y

theorem openWay_up {y a : NodeId} (hx : t.parent? x = some y) (ho : Open v t copies x)
    (h : OpenWay v t copies y a) : OpenWay v t copies x a := by
  refine ⟨.up hx h.1, fun z hz hza => ?_⟩
  rcases hz.eq_or_up with rfl | ⟨w, hw, hwz⟩
  · exact ho
  · rw [hx] at hw
    obtain rfl := Option.some.inj hw
    exact h.2 z hwz hza

/-- Two ways that meet make one way. -/
theorem OpenWay.trans {y a : NodeId} (h : OpenWay v t copies x y) (h' : OpenWay v t copies y a) :
    OpenWay v t copies x a := by
  refine ⟨h.1.trans h'.1, fun z hz hza => ?_⟩
  rcases h.1.total hz with hyz | hzy
  · exact h'.2 z hyz hza
  · exact h.2 z hz hzy

theorem open_of_mem_elements {fuel : Nat} (ht : t.WellFormed) {a : NodeId}
    (h : x ∈ (v.scanWithin t copies fuel a).elements) : OpenWay v t copies x a := by
  induction fuel generalizing a with
  | zero => simp [scanWithin, Scan.empty] at h
  | succ fuel ih =>
    rw [scanWithin] at h
    split_ifs at h with helement htemplate hcopy
    · simp [Scan.empty] at h
    · simp at h
    · simp [Scan.empty] at h
    · have ha : Open v t copies a := ⟨by simpa using helement, by simpa using htemplate, by simpa using hcopy⟩
      have hself : OpenWay v t copies a a :=
        ⟨.refl t a, fun y hy hya => ht.inside_antisymm hya hy ▸ ha⟩
      simp only [Scan.elements_append, Scan.elements_foldr, List.mem_append, List.mem_singleton,
        List.mem_flatMap, List.mem_map] at h
      rcases h with rfl | ⟨_, ⟨c, hc, rfl⟩, hx⟩
      · exact hself
      · have hway := ih hx
        exact hway.trans (openWay_up (ht.mem_children_iff.1 hc) (hway.2 c hway.1 (.refl t c)) hself)

/-- The way down to a template is open. -/
theorem open_of_mem_templates {fuel : Nat} (ht : t.WellFormed) {a : NodeId}
    (h : x ∈ (v.scanWithin t copies fuel a).templates) :
    x = a ∨ ∃ up, t.parent? x = some up ∧ OpenWay v t copies up a := by
  induction fuel generalizing a with
  | zero => simp [scanWithin, Scan.empty] at h
  | succ fuel ih =>
    rw [scanWithin] at h
    split_ifs at h with helement htemplate hcopy
    · simp [Scan.empty] at h
    · exact .inl (by simpa using h)
    · simp [Scan.empty] at h
    · have ha : Open v t copies a := ⟨by simpa using helement, by simpa using htemplate, by simpa using hcopy⟩
      have hself : OpenWay v t copies a a :=
        ⟨.refl t a, fun y hy hya => ht.inside_antisymm hya hy ▸ ha⟩
      simp only [Scan.templates_append, Scan.templates_foldr, List.nil_append, List.mem_flatMap,
        List.mem_map] at h
      obtain ⟨_, ⟨c, hc, rfl⟩, hx⟩ := h
      have hca := ht.mem_children_iff.1 hc
      rcases ih hx with rfl | ⟨up, hup, hway⟩
      · exact .inr ⟨a, hca, hself⟩
      · exact .inr ⟨up, hup, hway.trans (openWay_up hca (hway.2 c hway.1 (.refl t c)) hself)⟩

theorem mem_elementsWithin_of_open {b : Branch} {parent : Option NodeId} (hb : t.Holds parent b) {fuel : Nat}
    (hfuel : b.size ≤ fuel) (h : OpenWay v t copies x b.handle) (ht : t.WellFormed) :
    x ∈ (v.scanWithin t copies fuel b.handle).elements := by
  induction b using Branch.induct generalizing parent fuel with
  | node id d cs ih =>
    obtain ⟨fuel, rfl⟩ := Nat.exists_eq_add_one.2 ((Branch.size_pos _).trans_le hfuel)
    have ho := h.2 id h.1 (.refl t id)
    rw [Branch.handle_node, scanWithin]
    simp only [ho.isElement, ho.plain, Bool.not_true, Bool.false_eq_true, if_false,
      List.contains_iff_mem, ho.unrecorded, Scan.elements_append, Scan.elements_foldr, List.mem_append,
      List.mem_singleton, List.mem_flatMap, List.mem_map]
    rcases h.1.eq_or_child with rfl | ⟨c, hc, hxc⟩
    · exact .inl rfl
    · have hmem := ht.mem_children_iff.2 hc
      rw [Branch.handle_node, show t.children id = _ from hb.children] at hmem
      obtain ⟨sub, hsub, rfl⟩ := List.mem_map.1 hmem
      refine .inr ⟨_, ⟨sub.handle, ht.mem_children_iff.2 hc, rfl⟩, ih sub hsub (hb.child hsub) ?_ ?_⟩
      · exact Nat.le_of_lt_succ ((Branch.size_lt_of_mem hsub).trans_le hfuel)
      · exact ⟨hxc, fun y hy hyc => h.2 y hy (hyc.trans (.parent hc))⟩

/-- A scan finds the elements to which the way is open. -/
theorem mem_elements_scan_iff (ht : t.WellFormed) {a : NodeId} (ha : t.InUse a) :
    x ∈ (v.scan t copies a).elements ↔ OpenWay v t copies x a := by
  refine ⟨open_of_mem_elements ht, fun h => ?_⟩
  have hw := ht
  obtain ⟨forest, hr⟩ := ht
  obtain ⟨b, hb, rfl⟩ := hr.exists_part ha
  obtain ⟨p, hp⟩ := hr.part hb
  exact mem_elementsWithin_of_open hp (hr.size_le hb) h hw

end View

end ViewBinding
