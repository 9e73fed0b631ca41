import ViewBinding.Proofs.Page.Run
import ViewBinding.Proofs.Session.Lists

/-! Handles in pages that are reached. The arena of the tree is in order after every operation, a handle names its element
as long as this is in the page, and nothing afterwards. -/
namespace ViewBinding

open ViewBinding.Document (taken)

namespace Page

variable {σ : Type} {page page' : Page σ} {x : NodeId}

/-- The arena is in order after every operation, also after one that has failed. -/
theorem Reached.tree_consistent (h : page.Reached) : page.tree.Consistent := h.whole.consistent

theorem reached_ofHtml {html : String} {model : Value × Heap} {s : Session Unit} (h : Session.ofHtml html model = .ok s) :
    s.page.Reached := by
  unfold Session.ofHtml at h
  split at h
  · cases h
  · next hd => exact .step (.parse hd _ _) (.create h)

set_option maxRecDepth 10000 in
/-- A list is made twice, and the pass fails each time with the copies of the list half made. -/
theorem tree_consistent_failed : ∃ s : Session Unit, s.page.Reached ∧ s.render.1.toBool = false ∧ s.render.2.render.1.toBool = false ∧
    s.render.2.render.2.tree.slots.size ≠ s.tree.slots.size ∧ s.render.2.render.2.tree.Consistent := by
  have h : (Session.ofHtml ("<ul ft-view-model='vm'><li vm-foreach='$vm.model.items'>" ++
      "<b vm-content-bind='$item'></b><i vm-content-bind='$item::nope'></i></li></ul>") Session.twoItems).toOption.any
      (fun s => !s.render.1.toBool && !s.render.2.render.1.toBool &&
        s.render.2.render.2.tree.slots.size != s.tree.slots.size) = true := by
    decide +kernel
  obtain ⟨s, hs, hcheck⟩ := Session.exists_of_toOption_any h
  simp only [Bool.and_eq_true, Bool.not_eq_true', bne_iff_ne] at hcheck
  have hreached := reached_ofHtml hs
  have hafter : s.render.2.render.2.page.Reached :=
    (hreached.step (.act s.page s.model .render)).step (.act s.render.2.page s.render.2.model .render)
  exact ⟨s, hreached, hcheck.1.1, hcheck.1.2, hcheck.2, hafter.tree_consistent⟩

/--
A handle that names nothing any more. Nothing is read through it, and whoever writes to it or fires an event on it gets
an error and leaves everything as it is.
-/
structure Stale (page : Page σ) (x : NodeId) : Prop where
  not_isLive : page.tree.isLive x = false
  not_isConnected : page.tree.isConnected x = false
  textContent : page.tree.textContent x = ""
  attr? : ∀ name, page.tree.attr? x name = none
  value : page.tree.value x = .error (.notElement "value")
  flag : ∀ flag, page.tree.flag x flag = .error (.notElement flag.attribute)
  setValue : ∀ (vm : ViewModel σ) value,
    Session.edit ⟨vm, page⟩ (·.setValue x value) = (.error (.invalidTree (.notElement "value")), ⟨vm, page⟩)
  setFlag : ∀ (vm : ViewModel σ) flag on,
    Session.edit ⟨vm, page⟩ (·.setFlag x flag on) = (.error (.invalidTree (.notElement flag.attribute)), ⟨vm, page⟩)
  dispatch : ∀ (vm : ViewModel σ) type,
    Session.dispatch ⟨vm, page⟩ x type = (.error (.invalidTree (.unknownNode x)), ⟨vm, page⟩)

theorem stale_of_not_isLive (hp : page.tree.Whole) (h : page.tree.isLive x ≠ true) : page.Stale x := by
  have hget : page.tree.get? x = none := by simpa [Tree.isLive] using h
  have helement : page.tree.element? x = none := by rw [Tree.element?, hget, Option.bind_none]
  have herror : ∀ op, page.tree.element x op = .error (.notElement op) := fun op => by rw [Tree.element, helement]
  have hset : ∀ value, page.tree.setValue x value = .error (.notElement "value") := fun value => by
    rw [Tree.setValue, Tree.hasTag, helement]
    simp [Tree.writeValue, herror, bind, Except.bind]
  have hflag : ∀ flag on, page.tree.setFlag x flag on = .error (.notElement flag.attribute) := fun flag on => by
    simp [Tree.setFlag, herror, bind, Except.bind]
  have hedit : ∀ (vm : ViewModel σ) {f : Tree → Except Tree.Error Tree} {e : Tree.Error}, f page.tree = .error e →
      Session.edit ⟨vm, page⟩ f = (.error (.invalidTree e), ⟨vm, page⟩) := fun vm f e he => by
    simp [Session.edit, Document.edit, he, liftError, bind, Except.bind]
  exact {
    not_isLive := by simpa using h
    not_isConnected := by simpa using fun hc => h (hp.inUse_iff.2 hc).1
    textContent := by
      rw [Tree.textContent, Tree.content]
      cases page.tree.slots.size <;> simp [Tree.contentWithin, hget] <;> rfl
    attr? := fun name => by rw [Tree.attr?, helement, Option.bind_none]
    value := by simp [Tree.value, herror, bind, Except.bind]
    flag := fun flag => by simp [Tree.flag, herror, bind, Except.bind]
    setValue := fun vm value => hedit vm (hset value)
    setFlag := fun vm flag on => hedit vm (hflag flag on)
    dispatch := fun vm type => by simp [Session.dispatch, h] }

/--
A handle of an element while operations follow each other that give back no slot 2 ^ 32 times. As long as the element is
not taken away the handle names it, at the same place. Once it is taken away the handle names nothing, no listener is
installed under it, and those that are still stored under it were there before.
-/
theorem Run.handle_lasts {changes : List Document.Change} (hrun : page.Run changes page') (h : page.Reached)
    (hfew : ∀ i, ((taken changes).map (·.slot)).count i < 2 ^ 32) (hx : page.tree.isElement x = true) :
    (x ∉ taken changes → page'.tree.isLive x = true ∧ page'.tree.isConnected x = true ∧
        page'.tree.parent? x = page.tree.parent? x ∧
        (page'.tree.element? x).map (·.tag) = (page.tree.element? x).map (·.tag)) ∧
      (x ∈ taken changes → page'.Stale x ∧ ∃ before gone after d, changes = before ++ .edit gone :: after ∧ x ∈ gone ∧
        x ∉ taken before ∧ x ∉ taken after ∧ page.document.Run before d ∧ d.tree.isElement x = true ∧
        (∀ l, .install x l ∉ after) ∧ ∀ l ∈ page'.document.listeners.on x, l ∈ d.listeners.on x) := by
  have hd := hrun.document
  have hused := h.whole.wellFormed.inUse_of_isElement hx
  have hkept := hd.kept h.whole
  refine ⟨fun hmem => ?_, fun hmem => ⟨?_, hd.exists_removal h.whole hx hmem (hfew x.slot)⟩⟩
  · obtain ⟨hused', hparent, htag⟩ := hkept.stays x hused hmem
    exact ⟨hused'.1, hkept.whole.inUse_iff.1 hused', hparent, htag⟩
  · exact stale_of_not_isLive hkept.whole (hd.not_isLive h.whole hused hmem (hfew x.slot))

/-- Whether a pass takes an element away and uses its slot again, and another element stays. -/
def reuses (s s' : Session Unit) : Bool :=
  decide (s'.tree.mutations < 2 ^ 32) &&
    s.tree.elements.any (fun x => s.tree.isElement x && !s'.tree.isLive x && s'.tree.elements.any (·.slot == x.slot)) &&
    s.tree.elements.any fun z => s.tree.isElement z && s'.tree.isLive z

set_option maxRecDepth 10000 in
/-- A list is made anew: the copies of the last pass are gone and their slots have new copies, and the template stays. -/
theorem handle_lasts_list : ∃ (s : Session Unit) (changes : List Document.Change) (x y z : NodeId), s.page.Reached ∧
    s.page.Run changes s.render.2.page ∧ (∀ i, ((taken changes).map (·.slot)).count i < 2 ^ 32) ∧
    s.tree.isElement x = true ∧ x ∈ taken changes ∧ s.render.2.page.Stale x ∧
    y ∈ s.render.2.tree.elements ∧ y.slot = x.slot ∧
    s.tree.isElement z = true ∧ z ∉ taken changes ∧ s.render.2.tree.isConnected z = true := by
  have h : (Session.ofHtml "<ul ft-view-model='vm'><li vm-foreach='$vm.model.items'></li></ul>" Session.twoItems).toOption.any
      (fun s => reuses s.render.2 s.render.2.render.2) = true := by
    decide +kernel
  obtain ⟨s, hs, hcheck⟩ := Session.exists_of_toOption_any h
  simp only [reuses, Bool.and_eq_true, decide_eq_true_eq, List.any_eq_true, Bool.not_eq_true', beq_iff_eq] at hcheck
  obtain ⟨⟨hm, x, -, ⟨hx, hdead⟩, y, hy, hslot⟩, z, -, hz, hlive⟩ := hcheck
  have hreached : s.render.2.page.Reached := (reached_ofHtml hs).step (.act s.page s.model .render)
  obtain ⟨changes, hrun⟩ := hreached.exists_run (.single (.act s.render.2.page s.render.2.model .render))
  have hfew : ∀ i, ((taken changes).map (·.slot)).count i < 2 ^ 32 := fun i =>
    (Nat.le_of_add_left_le (hrun.document.mutations_add_count_le hreached.whole i)).trans_lt hm
  have hxt : x ∈ taken changes := by
    by_contra hmem
    have hx' : s.render.2.render.2.tree.isLive x = true := ((hrun.handle_lasts hreached hfew hx).1 hmem).1
    exact absurd hx' (by simpa using hdead)
  have hzt : z ∉ taken changes := fun hmem => by
    have hz' : s.render.2.render.2.tree.isLive z = false := ((hrun.handle_lasts hreached hfew hz).2 hmem).1.not_isLive
    exact absurd hlive (by simpa using hz')
  exact ⟨s.render.2, changes, x, y, z, hreached, hrun, hfew, hx, hxt, ((hrun.handle_lasts hreached hfew hx).2 hxt).1, hy, hslot,
    hz, hzt, ((hrun.handle_lasts hreached hfew hz).1 hzt).2.1⟩

end Page

end ViewBinding
