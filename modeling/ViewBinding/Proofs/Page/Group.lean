import ViewBinding.Proofs.Page.Handles
import ViewBinding.Proofs.Render.TearDown

/-! Groups of copies. All elements that carry the class of a list expression count as its copies, whoever has made them; but
only what a view model has recorded is torn down. -/
namespace ViewBinding

open ViewBinding.Tree

namespace View

variable {v : View} {x : NodeId}

/-- The members of a group: the elements with its class. -/
theorem mem_copies_iff {d : Document} (hd : d.tree.Whole) (expression : String) :
    x ∈ v.copies d expression ↔ d.tree.hasClass x (v.copyClass expression) = true := by
  rw [copies, List.mem_filter, hd.mem_elements, and_iff_right_iff_imp]
  intro h
  rw [Tree.hasClass] at h
  cases he : d.tree.element? x <;> simp_all [isElement]

end View

namespace Page

variable {σ : Type} {page : Page σ}

/--
The group of a list expression on any page that is reached: all elements of the document with its class, whoever has given it
to them. Some of them are copies that the view model has recorded beside a template. When the list is torn down these
go with all that is in them, and the group keeps its other members.
-/
theorem Reached.group_tearDown (h : page.Reached) (vm : ViewModel σ) (template : NodeId) (expression : String) :
    let cls := vm.view.copyClass expression
    let own := View.staleCopies page.tree vm.copies template cls
    let after := ((View.tearDown template cls).exec (Session.pass ⟨vm, page⟩)).2
    (∀ x, x ∈ vm.view.copies page.document expression ↔ page.tree.isConnected x = true ∧ page.tree.hasClass x cls = true) ∧
      (∀ c ∈ own, c ∈ vm.copies ∧ c ∈ vm.view.copies page.document expression) ∧
      ∀ x, x ∈ vm.view.copies after.document expression ↔
        x ∈ vm.view.copies page.document expression ∧ ∀ c ∈ own, ¬ page.tree.Inside x c := by
  intro cls own after
  have hw := h.whole
  have hrid : Rid (fun x => ∃ c ∈ own, page.tree.Inside x c) page.tree after.tree :=
    View.rid_tearDown (p := Session.pass ⟨vm, page⟩) hw template cls
  have hinUse : ∀ {t : Tree}, t.Whole → ∀ {x}, t.hasClass x cls = true → t.InUse x := fun ht x hx => by
    obtain ⟨e, he, -⟩ := (Option.any_eq_true _ _).1 hx
    exact ht.wellFormed.inUse_of_element? he
  refine ⟨fun x => ?_, fun c hc => ?_, fun x => ?_⟩
  · rw [View.mem_copies_iff hw, ← hw.inUse_iff]
    exact ⟨fun hx => ⟨hinUse hw hx, hx⟩, And.right⟩
  · obtain ⟨up, hup⟩ : ∃ up, page.tree.parent? template = some up := by
      refine Option.ne_none_iff_exists'.1 fun hnone => ?_
      simp [own, View.staleCopies, hnone] at hc
    have hmarks : vm.copies.contains c = true ∧ page.tree.hasClass c cls = true := by
      simp only [own, View.staleCopies, hup, List.mem_filter, Bool.and_eq_true] at hc
      exact hc.2
    exact ⟨List.contains_iff_mem.1 hmarks.1, (View.mem_copies_iff hw expression).2 hmarks.2⟩
  · rw [View.mem_copies_iff hw, View.mem_copies_iff hrid.whole]
    have hclass : after.tree.InUse x → after.tree.hasClass x cls = page.tree.hasClass x cls := fun hx => by
      rw [Tree.hasClass, hrid.element? x hx, Tree.hasClass]
    constructor
    · intro hx
      have hx' := hinUse hrid.whole hx
      exact ⟨hclass hx' ▸ hx, fun c hc hin => ((hrid.inUse_iff x).1 hx').2 ⟨c, hc, hin⟩⟩
    · rintro ⟨hx, hout⟩
      have hx' : after.tree.InUse x := by
        refine (hrid.inUse_iff x).2 ⟨hinUse hw hx, ?_⟩
        rintro ⟨c, hc, hin⟩
        exact hout c hc hin
      exact (hclass hx').trans hx

/-- What is left of a group after one view model has torn it down. -/
def groupLeft (vm : ViewModel Unit) (page : Page Unit) (template : NodeId) (expression : String) : List NodeId :=
  vm.view.copies ((View.tearDown template (vm.view.copyClass expression)).exec (Session.pass ⟨vm, page⟩)).2.document expression

/-- Whether a view model counts a copy of another one as its own, has copies itself, and has none in which the other one lies. -/
def countsForeign (vm other : ViewModel Unit) (page : Page Unit) (expression : String) (template x : NodeId) : Bool :=
  let own := View.staleCopies page.tree vm.copies template (vm.view.copyClass expression)
  other.copies.contains x && !vm.copies.contains x && (vm.view.copies page.document expression).contains x &&
    own.length == 2 && own.all fun c => page.tree.isElement c && !(page.tree.preorder c).contains x

set_option maxRecDepth 10000 in
/-- Two view models have made copies for one expression. Each counts all of them, and tears down its own only. -/
theorem group_tearDown_shared : ∃ (page : Page Unit) (vm other : ViewModel Unit) (template x : NodeId), page.Reached ∧
    countsForeign vm other page "$vm.model.items" template x = true ∧ x ∈ groupLeft vm page template "$vm.model.items" := by
  have h : (Session.ofHtml ("<ul ft-view-model='vm'><li vm-foreach='$vm.model.items'></li></ul>" ++
      "<ul ft-view-model='other'><li other-foreach='$vm.model.items'></li></ul>") Session.twoItems).toOption.any (fun s =>
        let shown := s.render.2
        (ViewModel.create shown.page "other" (shown.model.model shown.page.heap) .standard .empty (.none Unit)).toOption.any
          fun other =>
            let both := other.render.2
            both.page.tree.elements.any fun template =>
              both.page.tree.elements.any (countsForeign shown.model both.model both.page "$vm.model.items" template)) = true := by
    decide +kernel
  obtain ⟨s, hs, hcheck⟩ := Session.exists_of_toOption_any h
  obtain ⟨other, hother, hany⟩ := Session.exists_of_toOption_any hcheck
  obtain ⟨template, -, hany⟩ := List.any_eq_true.1 hany
  obtain ⟨x, -, hx⟩ := List.any_eq_true.1 hany
  have hpage : other.render.2.page.Reached :=
    (((reached_ofHtml hs).step (.act _ s.model .render)).step (.create hother)).step (.act _ other.model .render)
  have hw := hpage.whole.wellFormed
  have hparts := hx
  simp only [countsForeign, Bool.and_eq_true, List.all_eq_true, Bool.not_eq_true', List.contains_eq_mem, decide_eq_true_eq,
    decide_eq_false_iff_not] at hparts
  obtain ⟨⟨⟨-, hmember⟩, -⟩, hout⟩ := hparts
  refine ⟨other.render.2.page, s.render.2.model, other.render.2.model, template, x, hpage, hx, ?_⟩
  refine ((hpage.group_tearDown s.render.2.model template "$vm.model.items").2.2 x).2 ⟨hmember, fun c hc hin => ?_⟩
  exact (hout c hc).2 ((hw.mem_preorder_iff_inside (hw.inUse_of_isElement (hout c hc).1)).2 hin)

end Page

end ViewBinding
