import ViewBinding.Proofs.Page.Handles
import ViewBinding.Proofs.Render.TendsLists

/-! Bound attributes after a pass. What the pass does after an attribute has been bound, to contents, live properties, lists and
further roots, may take the element away, but it does not change what the attribute shows. -/
namespace ViewBinding

open ViewBinding.Document (taken)

namespace View

variable {v : View} {b : Binding} {p q : Pass} {x : NodeId} {target : String}

/--
An attribute shows an entry. It has been evaluated while everything that was there in `before` was as it was, and everything
that was there after the evaluation is in `after` as it was.
-/
def Displays (v : View) (b : Binding) (before after : Heap) (shown : Option String) : Prop :=
  ∃ h : Heap, before.Extends h ∧ (evaluate b.expression v.scope h).2.Extends after ∧
    v.ShownAs (evaluate b.expression v.scope h).2 b.pipe
      ((evaluate b.expression v.scope h).1.toOption.getD (.string "")) shown

/-- Without assignments the values stay around the evaluation. -/
theorem Shows.displays (h : v.Shows b p q x target) (hfree : q.cache.AssignmentFree) :
    v.Displays b p.heap q.heap (q.tree.attr? x target) := by
  obtain ⟨m, hpm, hmq, hshown⟩ := h
  have hlater : m.Moves q := .head (.evaluate m b.expression v.scope) hmq
  exact ⟨m.heap, hpm.grows.heap fun entry hentry => hfree entry (hlater.grows.parsed hentry), hmq.grows.heap hfree, hshown⟩

theorem Displays.of_extends {before before' after : Heap} {shown : Option String} (h : v.Displays b before after shown)
    (hx : before'.Extends before) : v.Displays b before' after shown := by
  obtain ⟨heap, hbefore, hafter, hshown⟩ := h
  exact ⟨heap, hx.trans hbefore, hafter, hshown⟩

/-- A pass from the moment on when it comes to a root. -/
theorem tends_render {A : NodeId → Prop} {front behind : List NodeId} {root : NodeId} {s : Pass} (hp : p.tree.Whole)
    (hok : v.render.exec p = (.ok (), q)) (hroots : v.roots = front ++ root :: behind)
    (hs : (front.forM v.renderRoot).exec p = (.ok (), s)) (hroot : s.tree.isConnected root = true) :
    p.Moves s ∧ s.tree.Whole ∧ Tends v A (fun x _ => x ∈ (v.scan s.tree s.copies root).elements) s q := by
  have hbefore : Tends v A nothing p s := tends_forM_renderRoot hp hs
  have hw := hbefore.whole hp
  rw [render, hroots, Render.exec_forM_append hs] at hok
  obtain ⟨_, r, hr, hbehind⟩ := Render.exists_of_exec_bind hok
  have hfirst := tends_renderRoot (A := A) hw hroot hr
  exact ⟨hbefore.moves, hw, hfirst.trans_nothing hw (tends_forM_renderRoot (hfirst.whole hw) hbehind)⟩

end View

namespace Page

variable {σ : Type} {page : Page σ} {vm : ViewModel σ} {after : Session σ} {front behind : List NodeId} {root : NodeId} {s : Pass}

/--
A pass over any page that is reached, which succeeds and has read no assignment, when it comes to a root in the document. Of
the elements that it finds there, those that are taken away later in the pass are gone after it. The others are there, and
each attribute that an untangled one binds shows its entry.
-/
theorem Reached.attributes_shown (h : page.Reached) (hok : Session.render ⟨vm, page⟩ = (.ok (), after))
    (hfree : after.model.cache.AssignmentFree) (hroots : vm.view.roots = front ++ root :: behind)
    (hs : (front.forM vm.view.renderRoot).exec (Session.pass ⟨vm, page⟩) = (.ok (), s))
    (hroot : s.tree.isConnected root = true) :
    ∃ changes, s.document.Run changes after.page.document ∧ ∀ x ∈ (vm.view.scan s.tree s.copies root).elements,
      (x ∈ taken changes → ((taken changes).map (·.slot)).count x.slot < 2 ^ 32 → after.tree.isLive x ≠ true) ∧
      (x ∉ taken changes → after.tree.isLive x = true ∧ (vm.view.Untangled s.tree x →
        ∀ b ∈ vm.view.entriesAt .attr s.tree x, ∀ target ∈ b.target,
          vm.view.Displays b page.heap after.page.heap (after.tree.attr? x target))) := by
  rw [Session.render_eq] at hok
  obtain ⟨hresult, rfl⟩ := Prod.mk.inj hok
  obtain ⟨hmoves, hw, htends⟩ := View.tends_render (A := fun _ => True) h.whole (Prod.ext hresult rfl) hroots hs hroot
  have hextends := hmoves.grows.heap fun entry hentry => hfree entry (htends.moves.grows.parsed hentry)
  obtain ⟨changes, hrun, hall⟩ := htends.run
  refine ⟨changes, hrun, fun x hx => ?_⟩
  obtain ⟨hmem, helement, hplain, -⟩ := View.mem_elements_scan hx
  have hused := hw.wellFormed.inUse_of_isElement helement
  refine ⟨fun htaken hfew => hrun.not_isLive hw hused htaken hfew, fun hstays => ⟨(hrun.inUse hw hused hstays).1, ?_⟩⟩
  intro huntangled b hb target htarget
  have hsteady : vm.view.Steady s.tree x := ⟨huntangled, by simpa [Tree.hasAttr] using hplain⟩
  have hshows := (hall x trivial hused hsteady hstays).shown b hb hx target htarget
  exact (hshows.displays hfree).of_extends hextends

/-- Whether a pass that succeeds shows two attribute entries of an element, one of which takes its attribute away. -/
def showsAttributes (s s' : Session Unit) (root x : NodeId) : Bool :=
  s.render.1.toBool && s'.model.cache.parsed.all (·.2.assignmentFree) && decide (s'.tree.mutations < 2 ^ 32) &&
    s.model.view.roots == [root] && s.tree.isConnected root &&
    (s.model.view.scan s.tree s.model.copies root).elements.contains x && decide (s.model.view.Untangled s.tree x) &&
    (s.model.view.entriesAt .attr s.tree x).map (·.target) == [some "title", some "hidden"] && s'.tree.isLive x &&
    s.tree.attr? x "hidden" == some "" && s'.tree.attr? x "hidden" == none && s'.tree.attr? x "title" == some "a,b"

set_option maxRecDepth 10000 in
/-- The elements behind a bound one get new content, and a list is made beside it. -/
theorem attributes_shown_beside : ∃ (page : Page Unit) (vm : ViewModel Unit) (after : Session Unit) (root x : NodeId)
    (changes : List Document.Change), page.Reached ∧ Session.render ⟨vm, page⟩ = (.ok (), after) ∧
    after.model.cache.AssignmentFree ∧ vm.view.roots = [] ++ root :: [] ∧ page.tree.isConnected root = true ∧
    page.document.Run changes after.page.document ∧ x ∈ (vm.view.scan page.tree vm.copies root).elements ∧
    x ∉ taken changes ∧ vm.view.Untangled page.tree x ∧
    (∀ b ∈ vm.view.entriesAt .attr page.tree x, ∀ target ∈ b.target,
      vm.view.Displays b page.heap after.page.heap (after.tree.attr? x target)) ∧
    (vm.view.entriesAt .attr page.tree x).map (·.target) = [some "title", some "hidden"] ∧
    page.tree.attr? x "hidden" = some "" ∧ after.tree.attr? x "hidden" = none ∧ after.tree.attr? x "title" = some "a,b" := by
  have h : (Session.ofHtml ("<div ft-view-model='vm'>" ++
      "<a hidden vm-attr-bind='title::$vm.model.items, hidden::$vm.model.items === null'></a>" ++
      "<p vm-content-bind='$vm.model.items'>-</p><p vm-foreach='$vm.model.items'></p></div>") Session.twoItems).toOption.any
      (fun s => s.model.view.roots.any fun root => s.tree.elements.any (showsAttributes s s.render.2 root)) = true := by
    decide +kernel
  obtain ⟨s, hs, hcheck⟩ := Session.exists_of_toOption_any h
  obtain ⟨root, -, hcheck⟩ := List.any_eq_true.1 hcheck
  obtain ⟨x, -, hcheck⟩ := List.any_eq_true.1 hcheck
  simp only [showsAttributes, Bool.and_eq_true, List.all_eq_true, decide_eq_true_eq, beq_iff_eq,
    List.contains_iff_mem] at hcheck
  obtain ⟨⟨⟨⟨⟨⟨⟨⟨⟨⟨⟨hok, hfree⟩, hfew⟩, hroots⟩, hroot⟩, hx⟩, huntangled⟩, htargets⟩, hlive⟩, hbefore⟩, hhidden⟩, htitle⟩ := hcheck
  have hrender : Session.render ⟨s.model, s.page⟩ = (.ok (), s.render.2) := Session.render_of_toBool hok
  replace hroots : s.model.view.roots = [] ++ root :: [] := hroots
  obtain ⟨changes, hrun, hall⟩ := (reached_ofHtml hs).attributes_shown hrender hfree hroots rfl hroot
  obtain ⟨hgone, hstays⟩ := hall x hx
  have hmem : x ∉ taken changes := fun hmem => by
    refine hgone hmem ?_ hlive
    exact (Nat.le_of_add_left_le (hrun.mutations_add_count_le (reached_ofHtml hs).whole x.slot)).trans_lt hfew
  exact ⟨s.page, s.model, s.render.2, root, x, changes, reached_ofHtml hs, hrender, hfree, hroots, hroot, hrun, hx, hmem,
    huntangled, (hstays hmem).2 huntangled, htargets, hbefore, hhidden, htitle⟩

end Page

end ViewBinding
