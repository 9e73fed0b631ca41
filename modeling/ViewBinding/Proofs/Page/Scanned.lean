import ViewBinding.Proofs.Page.Counter
import ViewBinding.Proofs.Render.Partition

/-! What a scan finds on a page: the elements below any node divide into those to be bound, those in list templates and those
in copies that are there already. -/
namespace ViewBinding

open ViewBinding.Tree

namespace Tree

theorem housed_ofMarkup (content : List Markup) : (ofMarkup content).Housed := by
  intro x up hp
  obtain ⟨cs, hspells, hr, -⟩ := represents_ofMarkup content
  have hx := hr.mem_handles_iff.2 ((wellFormed_ofMarkup content).inUse_of_parent? hp)
  rw [List.flatMap_singleton] at hx
  have hholds := hr.holds _ (List.mem_singleton_self _)
  refine hholds.housed (Branch.housed_node (fun _ => .inl rfl) hspells.housed) hx ?_ hp
  rintro rfl
  rw [hholds.parent?] at hp
  cases hp

end Tree

namespace Document

variable {F : Fence} {d d' : Document}

theorem Deed.housed (h : Deed F d d') (hd : d.tree.Whole) (hh : d.tree.Housed) : d'.tree.Housed := by
  cases h with
  | rewrite _ h =>
    obtain ⟨gone, hedit⟩ := h.edit hd.wellFormed
    exact hh.edit hd hedit
  | relist _ h =>
    obtain ⟨gone, hedit⟩ := h.edit hd.wellFormed
    exact hh.edit hd hedit
  | install _ _ _ => exact hh
  | purge _ => exact hh

theorem Deeds.housed (h : Deeds F d d') (hd : d.tree.Whole) (hh : d.tree.Housed) : d'.tree.Housed := by
  induction h with
  | refl => exact hh
  | tail h hdeed ih => exact hdeed.housed (Deeds.whole h hd) ih

end Document

namespace Page

variable {σ : Type} {page : Page σ}

/-- On a page that is reached nothing lies in text. -/
theorem Reached.housed (h : page.Reached) : page.tree.Housed := by
  induction h with
  | @parse html d h heap user =>
    unfold Document.parse at h
    split at h
    · cases h
      exact housed_ofMarkup _
    · cases h
  | step h hstep ih => exact (hstep.deeds h.whole).housed h.whole ih

/--
A scan in any document that a page comes to, also while an operation is under way. It ends. The elements and the templates
that it lists stand below the element it starts from, once each and in document order, and of the elements there each is
listed, lies in one of the templates, or lies in one of the topmost copies on record, and it is one of these three only.
-/
theorem Reached.scan_partition (h : page.Reached) {d : Document} (hd : page.document.Deeds .nowhere d) (vm : ViewModel σ)
    {a : NodeId} (ha : d.tree.isElement a = true) :
    let found := vm.view.scan d.tree vm.copies a
    vm.view.scanLoop d.tree vm.copies [a] .empty = .some found ∧
    (found.elements.Nodup ∧ found.elements.Pairwise d.tree.Before) ∧
    (found.templates.Nodup ∧ found.templates.Pairwise d.tree.Before) ∧
    (∀ x ∈ found.elements ++ found.templates, d.tree.isElement x = true ∧ d.tree.Inside x a) ∧
    ∀ x, d.tree.isElement x = true → d.tree.Inside x a →
      (x ∈ found.elements ∧ (∀ p ∈ found.templates, ¬ d.tree.Inside x p) ∧
          ∀ c, vm.view.TopCopy d.tree vm.copies a c → ¬ d.tree.Inside x c) ∨
        (x ∉ found.elements ∧ (∃! p, p ∈ found.templates ∧ d.tree.Inside x p) ∧
          ∀ c, vm.view.TopCopy d.tree vm.copies a c → ¬ d.tree.Inside x c) ∨
        (x ∉ found.elements ∧ (∀ p ∈ found.templates, ¬ d.tree.Inside x p) ∧
          ∃! c, vm.view.TopCopy d.tree vm.copies a c ∧ d.tree.Inside x c) := by
  intro found
  have ht := (hd.whole h.whole).wellFormed
  have hused := ht.inUse_of_isElement ha
  have hnodup := ht.nodup_preorder hused
  have horder := ht.pairwise_before_preorderWithin d.tree.slots.size a
  have helements := View.elements_scan_sublist vm.view d.tree vm.copies a
  have htemplates := View.templates_scanWithin_sublist vm.view d.tree vm.copies d.tree.slots.size a
  refine ⟨View.scanLoop_eq ht hused, ⟨hnodup.sublist helements, horder.sublist helements⟩,
    ⟨hnodup.sublist htemplates, horder.sublist htemplates⟩, fun x hx => ?_, fun x hx hin => ?_⟩
  · rcases List.mem_append.1 hx with hx | hx
    · obtain ⟨hmem, helement, -⟩ := View.mem_elements_scan hx
      exact ⟨helement, (ht.mem_preorder_iff_inside hused).1 hmem⟩
    · obtain ⟨hmem, helement, -⟩ := View.mem_templates_scan hx
      exact ⟨helement, (ht.mem_preorder_iff_inside hused).1 hmem⟩
  · exact View.scan_cases ht (hd.housed h.whole h.housed) ha hx hin

/-- Whether a scan from `a` finds two elements and a template, and passes by `x`, which is in no template. -/
def passesBy (s : Session Unit) (a x : NodeId) : Bool :=
  let found := s.model.view.scan s.tree s.model.copies a
  found.elements.length == 2 && found.templates.length == 1 && !found.elements.contains x && (s.tree.preorder a).contains x &&
    s.tree.isElement a && s.tree.isElement x && found.templates.all fun p => !(x :: s.tree.ancestors x).contains p

set_option maxRecDepth 10000 in
/-- Behind a template stand its copies, and what is in a copy lies in a topmost one. -/
theorem scan_partition_copies : ∃ (page : Page Unit) (vm : ViewModel Unit) (a x : NodeId), page.Reached ∧
    page.tree.isElement a = true ∧ (vm.view.scan page.tree vm.copies a).elements.length = 2 ∧
    (vm.view.scan page.tree vm.copies a).templates.length = 1 ∧ (vm.view.scan page.tree vm.copies a).elements.Nodup ∧
    ∃! c, vm.view.TopCopy page.tree vm.copies a c ∧ page.tree.Inside x c := by
  have h : (Session.ofHtml ("<div ft-view-model='vm'><p vm-foreach='$vm.model.items'><i></i></p>text<b></b></div>")
      Session.twoItems).toOption.any (fun s => s.render.2.tree.elements.any fun a =>
        s.render.2.tree.elements.any (passesBy s.render.2 a)) = true := by
    decide +kernel
  obtain ⟨s, hs, hany⟩ := Session.exists_of_toOption_any h
  obtain ⟨a, -, hany⟩ := List.any_eq_true.1 hany
  obtain ⟨x, -, hx⟩ := List.any_eq_true.1 hany
  have hpage : s.render.2.page.Reached := (reached_ofHtml hs).step (.act s.page s.model .render)
  have hw := hpage.whole.wellFormed
  simp only [passesBy, Bool.and_eq_true, beq_iff_eq, List.all_eq_true, Bool.not_eq_true', List.contains_eq_mem,
    decide_eq_true_eq, decide_eq_false_iff_not] at hx
  obtain ⟨⟨⟨⟨⟨⟨helements, htemplates⟩, hnot⟩, hin⟩, ha⟩, helement⟩, hout⟩ := hx
  obtain ⟨-, ⟨hnodup, -⟩, -, -, hcases⟩ := hpage.scan_partition .refl s.render.2.model ha
  refine ⟨_, s.render.2.model, a, x, hpage, ha, helements, htemplates, hnodup, ?_⟩
  rcases hcases x helement ((hw.mem_preorder_iff_inside (hw.inUse_of_isElement ha)).1 hin) with hbound | hlist | hcopy
  · exact absurd hbound.1 hnot
  · obtain ⟨p, ⟨hp, hxp⟩, -⟩ := hlist.2.1
    exact absurd (hw.mem_ancestors_of_inside (hw.inUse_of_isElement helement) hxp) (hout p hp)
  · exact hcopy.2.2

end Page

end ViewBinding
