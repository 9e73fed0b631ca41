import ViewBinding.Proofs.Page.Counter
import ViewBinding.Proofs.Tree.Grafted

/-! Copies of elements on a page: of an element within its document, and of a parsed fragment into an element. -/
namespace ViewBinding.Page

variable {σ : Type} {page : Page σ}

/--
Any element of a document that a page comes to, also while an operation is under way. It can be copied: the copy hangs on no
other node, reads the same in all its elements, attributes, live state and texts, consists of nodes that were not in use, and
leaves all other nodes alone. A list of pending nodes, in the same arena and with the last node first, makes such a copy as
well, node by node. Content that is put into the element reads as the fragment it comes from, and copying the fragment over
node by node gives this very tree.
-/
theorem Reached.copy_faithful (h : page.Reached) {d : Document} (hd : page.document.Deeds .nowhere d) {id : NodeId}
    (hid : d.tree.isElement id = true) :
    (∃ c t, d.tree.copy id = .ok (c, t) ∧ d.tree.DeepCopy id t c) ∧
    (∃ c t, d.tree.copyByList id = .some (.ok (c, t)) ∧ d.tree.DeepCopy id t c ∧
      (t.preorder c).map t.outline = (d.tree.preorder id).map d.tree.outline) ∧
    ∀ content : List Markup, ∃ t, d.tree.replaceInner id content = .ok t ∧
      d.tree.replaceInnerFrom id (Tree.ofMarkup content) = pure t ∧
      t.innerHtml id = .ok ((Tree.ofMarkup content).dump Tree.root) := by
  have hwhole := hd.whole h.whole
  have ht := hwhole.wellFormed
  refine ⟨ht.exists_copy hid, ht.exists_copyByList hid, fun content => ?_⟩
  obtain ⟨e, he⟩ := Option.isSome_iff_exists.1 hid
  obtain ⟨t, hreplaced⟩ : ∃ t, d.tree.replaceInner id content = .ok t := by
    rw [Tree.replaceInner, Tree.element_eq_ok he]
    exact ⟨_, rfl⟩
  refine ⟨t, hreplaced, ?_, ?_⟩
  · rw [Tree.replaceInnerFrom_eq ht, hreplaced]
    rfl
  · rw [Tree.innerHtml_replaceInner hwhole hreplaced, Tree.dump_ofMarkup]

/-- Whether the copy of an element takes a slot that a removed node has given back. -/
def copyTakesFree (page : Page Unit) (id : NodeId) : Bool :=
  page.tree.isElement id && 1 < (page.tree.preorder id).length &&
    (page.tree.copy id).toOption.any fun copied => page.tree.free.contains copied.1.slot

set_option maxRecDepth 10000 in
/-- A binding has taken nodes away, and the copy of another element takes one of their slots. -/
theorem copy_faithful_reused : ∃ (page : Page Unit) (id c : NodeId) (t : Tree), page.Reached ∧ page.tree.isElement id = true ∧
    page.tree.copy id = .ok (c, t) ∧ c.slot ∈ page.tree.free ∧ t.content c = page.tree.content id ∧
    ∀ x ∈ t.preorder c, ¬ page.tree.InUse x := by
  have h : (Session.ofHtml ("<div ft-view-model='vm'><b vm-js-bind='textContent::1'><i>a</i><i>b</i></b>" ++
      "<u title='t'><input value='v' checked>c</u></div>") Session.twoItems).toOption.any (fun s =>
        s.render.2.tree.elements.any (copyTakesFree s.render.2.page)) = true := by
    decide +kernel
  obtain ⟨s, hs, hany⟩ := Session.exists_of_toOption_any h
  obtain ⟨id, -, hcheck⟩ := List.any_eq_true.1 hany
  have hpage : s.render.2.page.Reached := (reached_ofHtml hs).step (.act s.page s.model .render)
  simp only [copyTakesFree, Bool.and_eq_true] at hcheck
  obtain ⟨⟨hid, -⟩, htaken⟩ := hcheck
  obtain ⟨⟨c, t, hcopy, hdeep⟩, -⟩ := hpage.copy_faithful .refl hid
  rw [hcopy] at htaken
  exact ⟨_, id, c, t, hpage, hid, hcopy, List.contains_iff_mem.1 htaken, hdeep.content, hdeep.fresh⟩

end ViewBinding.Page
