import ViewBinding.Proofs.Page.Handles

/-! A pass stays in the roots of its view. Around everything that lies in no root there is a fence; the roots are rendered one
after the other, and those that are still to come keep their attributes until it is their turn, so that none of them becomes
a template whose copies would be put beside it. -/
namespace ViewBinding

open ViewBinding.Tree

namespace Tree

variable {t t' : Tree} {roots rest : List NodeId} {root x s : NodeId}

/-- A node that lies in none of the roots. -/
def Apart (t : Tree) (roots : List NodeId) (x : NodeId) : Prop := t.InUse x ∧ ∀ root ∈ roots, ¬ t.Inside x root

/-- What is apart from all roots is spared. Of the roots in `rest`, those that lie in no other root keep their attributes. -/
def fenceOf (t : Tree) (roots rest : List NodeId) : Fence where
  spared := t.Apart roots
  kept x := t.Apart roots x ∨ (x ∈ rest ∧ ∃ up, t.parent? x = some up ∧ t.Apart roots up)
  kept_of_spared _ := .inl

theorem fenceOf_encloses {rest' : List NodeId} (h : ∀ x ∈ rest', x ∈ rest) :
    (t.fenceOf roots rest).Encloses (t.fenceOf roots rest') :=
  ⟨fun _ hx => hx, fun x hx => hx.imp_right fun hr => ⟨h x hr.1, hr.2⟩⟩

theorem Apart.parent (h : t.Apart roots x) (ht : t.WellFormed) (hp : t.parent? x = some s) : t.Apart roots s :=
  ⟨ht.inUse_parent hp, fun root hr hin => h.2 root hr (.up hp hin)⟩

/-- Where no ancestor with a tag is found there is none. -/
theorem hasTag_of_ancestorWithTag?_eq_none {tag : String} (ht : t.WellFormed) (hx : t.InUse x)
    (h : t.ancestorWithTag? x tag = none) (hin : t.Inside x s) (hne : s ≠ x) : t.hasTag s tag = false := by
  have hmem := (List.mem_cons.1 (ht.mem_ancestors_of_inside hx hin)).resolve_left hne
  have hnot := List.find?_eq_none.1 h s hmem
  rw [hasTag]
  cases he : t.element? s <;> simp_all

theorem around_fenceOf (ht : t.Whole) (rest : List NodeId) (hselect : ∀ root ∈ roots, t.ancestorWithTag? root "select" = none) :
    (t.fenceOf roots rest).Around t := by
  have hw := ht.wellFormed
  refine ⟨⟨ht, fun x hx => ?_, fun x p hx hp => ?_⟩, fun s x hs htag hin => ?_⟩
  · rcases hx with hx | ⟨-, up, hup, -⟩
    · exact hx.1
    · exact hw.inUse_of_parent? hup
  · rcases hx with hx | ⟨-, up, hup, hapart⟩
    · exact hx.parent hw hp
    · rw [hp] at hup
      exact Option.some.inj hup ▸ hapart
  · rcases hin.eq_or_up with rfl | ⟨y, hy, -⟩
    · exact hs
    have hx := hw.inUse_of_parent? hy
    refine ⟨hx, fun root hr hxr => ?_⟩
    -- a root around what lies in the select would be below the select
    rcases hxr.total hin with hrs | hsr
    · have hno := hasTag_of_ancestorWithTag?_eq_none hw (hw.inUse_of_inside hx hxr) (hselect root hr) hrs fun he =>
        hs.2 root hr (he ▸ .refl t s)
      rw [htag] at hno
      cases hno
    · exact hs.2 root hr hsr

end Tree

namespace View

open Render

variable {v : View} {t : Tree} {rest : List NodeId} {p : Pass}

/-- The roots that are still to come are plain, so what they do stays within them. -/
theorem deeds_forM_renderRoot (ht : t.WellFormed) (hplain : ∀ root ∈ v.roots, t.hasAttr root (v.attributeName .foreach) = false)
    (hrest : ∀ root ∈ rest, root ∈ v.roots) (hnodup : rest.Nodup) (hp : (t.fenceOf v.roots rest).Around p.tree)
    (hk : (t.fenceOf v.roots rest).Keeps t p.tree) :
    p.document.Deeds (t.fenceOf v.roots []) ((rest.forM v.renderRoot).exec p).2.document := by
  induction rest generalizing p with
  | nil => exact .refl
  | cons root rest ih =>
    obtain ⟨hnot, hnodup⟩ := List.nodup_cons.1 hnodup
    have hfewer : (t.fenceOf v.roots (root :: rest)).Encloses (t.fenceOf v.roots rest) :=
      fenceOf_encloses fun _ => List.mem_cons_of_mem root
    have hp' := hp.mono hfewer fun _ hx => hx
    have hopen : ¬ (t.fenceOf v.roots rest).kept root := by
      rintro (hapart | ⟨hmem, -⟩)
      · exact hapart.2 root (hrest root (by simp)) (.refl t root)
      · exact hnot hmem
    have hworks := works_renderRoot (v := v) hp'.toStands hopen fun up hup hs => by
      have hup' := hk.parent? ht hp.whole.wellFormed hup hs
      rw [hk.hasAttr (.inr ⟨by simp, up, hup', hs⟩), hplain root (hrest root (by simp))]
    have hfirst : p.document.Deeds (t.fenceOf v.roots []) _ := hworks.deeds.mono (fenceOf_encloses fun _ h => absurd h List.not_mem_nil)
    show p.document.Deeds _ (Render.exec (v.renderRoot root >>= fun _ => rest.forM v.renderRoot) p).2.document
    rw [exec_bind]
    rcases hq : (v.renderRoot root).exec p with ⟨e | u, q⟩ <;> rw [hq] at hworks hfirst
    · exact hfirst
    · refine hfirst.trans (ih (fun r hr => hrest r (by simp [hr])) hnodup (hworks.around hp') ?_)
      exact (hk.mono hfewer).trans (hworks.keeps hp')

end View

/--
View models as they come about. One is created on a page, and acts on pages from then on; its pipes and its handler can be
replaced at any time.
-/
inductive ViewModel.Made {σ : Type} : ViewModel σ → Prop
  | create {page : Page σ} {name : String} {model : Value} {options : BindingOptions} {pipes : PipeRegistry}
    {handler : Handler σ} {s : Session σ} (h : page.Reached)
    (hs : ViewModel.create page name model options pipes handler = .ok s) : Made s.model
  | configure {vm : ViewModel σ} (h : Made vm) (pipes : PipeRegistry) (handler : Handler σ) :
    Made { vm with view := { vm.view with pipes := pipes }, handler := handler }
  | act {vm : ViewModel σ} (h : Made vm) {page : Page σ} (hp : page.Reached) (a : Session.Act) :
    Made (Session.act ⟨vm, page⟩ a).2.model

/-- No view model has a root twice. -/
theorem ViewModel.Made.nodup_roots {σ : Type} {vm : ViewModel σ} (h : vm.Made) : vm.view.roots.Nodup := by
  induction h with
  | create h hs =>
    rw [(ViewModel.created_of_create hs).roots_eq]
    have hw := h.whole.wellFormed
    exact (hw.nodup_preorder hw.inUse_root).sublist (List.filter_sublist.trans hw.elements_sublist)
  | configure _ _ _ ih => exact ih
  | @act vm _ page _ a ih =>
    rw [Session.view_eq_of_steps (Session.steps_act ⟨vm, page⟩ a)]
    exact ih

namespace Page

variable {σ : Type} {page : Page σ} {vm : ViewModel σ} {x : NodeId}

/--
A pass over any page that is reached, by any view model, whether it fails or not. No root is a template of the view model or
lies in a select when the pass starts. Then every node that lies in no root is there afterwards, with the parent, the
children and the element or text that it had, live state included, and has the listeners that it had.
-/
theorem Reached.render_apart (h : page.Reached) (hvm : vm.Made)
    (hplain : ∀ root ∈ vm.view.roots, page.tree.hasAttr root (vm.view.attributeName .foreach) = false)
    (hselect : ∀ root ∈ vm.view.roots, page.tree.ancestorWithTag? root "select" = none)
    (hx : page.tree.InUse x) (hout : ∀ root ∈ vm.view.roots, x ∉ page.tree.preorder root) :
    let after := (Session.render ⟨vm, page⟩).2.page
    after.tree.InUse x ∧ after.tree.get? x = page.tree.get? x ∧ after.document.listeners.on x = page.document.listeners.on x := by
  have hw := h.whole.wellFormed
  have hapart : page.tree.Apart vm.view.roots x := ⟨hx, fun root hr hin => hout root hr <|
    (hw.mem_preorder_iff_inside (hw.inUse_of_inside hx hin)).2 hin⟩
  have hall := around_fenceOf h.whole vm.view.roots hselect
  have hdeeds : page.document.Deeds (page.tree.fenceOf vm.view.roots []) (Session.render ⟨vm, page⟩).2.page.document :=
    View.deeds_forM_renderRoot (p := Session.pass ⟨vm, page⟩) hw hplain (fun _ hr => hr) hvm.nodup_roots hall (.refl _ _)
  obtain ⟨haround, hkeeps⟩ := hdeeds.around (around_fenceOf h.whole [] hselect)
  exact ⟨haround.inUse x (.inl hapart), hkeeps.get? x hapart, hdeeds.listeners_on (.inl hapart)⟩

/-- Whether a node with a listener is apart from the roots of a view model, and a pass of this one changes the page. -/
def listensBeside (vm : ViewModel Unit) (page : Page Unit) (x : NodeId) : Bool :=
  page.tree.isElement x && (page.document.listeners.on x).length == 1 &&
    vm.view.roots.all (fun root => !page.tree.hasAttr root (vm.view.attributeName .foreach) &&
      (page.tree.ancestorWithTag? root "select").isNone && !(page.tree.preorder root).contains x) &&
    (Session.render ⟨vm, page⟩).2.page.document.dump != page.document.dump

set_option maxRecDepth 10000 in
/-- Two view models share a page. A pass of one of them makes a list in its root, beside an element to which the other one listens. -/
theorem render_apart_beside : ∃ (page : Page Unit) (vm : ViewModel Unit) (x : NodeId), page.Reached ∧ vm.Made ∧
    listensBeside vm page x = true ∧ (Session.render ⟨vm, page⟩).2.page.tree.get? x = page.tree.get? x ∧
    (Session.render ⟨vm, page⟩).2.page.document.listeners.on x = page.document.listeners.on x := by
  have h : (Session.ofHtml ("<ul ft-view-model='vm'><li vm-foreach='$vm.model.items'></li></ul>" ++
      "<p ft-view-model='other' other-event-bind='click::go'></p>") Session.twoItems).toOption.any (fun s =>
        (ViewModel.create s.page "other" .null .standard .empty (.none Unit)).toOption.any fun other =>
          other.page.tree.elements.any (listensBeside s.model other.page)) = true := by
    decide +kernel
  obtain ⟨s, hs, hcheck⟩ := Session.exists_of_toOption_any h
  obtain ⟨other, hother, hany⟩ := Session.exists_of_toOption_any hcheck
  obtain ⟨x, -, hx⟩ := List.any_eq_true.1 hany
  have hpage : other.page.Reached := (reached_ofHtml hs).step (.create hother)
  have hvm : s.model.Made := by
    unfold Session.ofHtml at hs
    split at hs
    · cases hs
    · next hd => exact .create (.parse hd _ _) hs
  have hparts := hx
  simp only [listensBeside, Bool.and_eq_true, List.all_eq_true, Bool.not_eq_true', Option.isNone_iff_eq_none,
    List.contains_eq_mem, decide_eq_false_iff_not] at hparts
  obtain ⟨⟨⟨helement, -⟩, hroots⟩, -⟩ := hparts
  obtain ⟨-, hkept, hlisteners⟩ := hpage.render_apart hvm (fun root hr => (hroots root hr).1.1)
    (fun root hr => (hroots root hr).1.2) (hpage.whole.wellFormed.inUse_of_isElement helement) fun root hr => (hroots root hr).2
  exact ⟨other.page, s.model, x, hpage, hvm, hx, hkept, hlisteners⟩

end Page

end ViewBinding
