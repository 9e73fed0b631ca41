import ViewBinding.Proofs.Page.Group
import ViewBinding.Proofs.Render.Losses

/-! The listeners of a page. Each of them is on an element of the document, or on one that was there until the content around
it was replaced; lists that are made anew leave no listeners behind. -/
namespace ViewBinding

open ViewBinding.Document (Act Acted Acts)

namespace Session

variable {σ : Type} {s s' : Session σ}

theorem Step.acted (h : Step s s') (hs : s.tree.Whole) : Acted s.page.document s'.page.document := by
  cases h with
  | compute heap user cache => exact .refl s.page.document
  | @control t ht =>
    rcases ht with ⟨id, value, ht⟩ | ⟨id, flag, on, ht⟩
    · exact .rewrite hs (.setValue ht)
    · exact .rewrite hs (.setFlag ht)
  | render => exact View.acted_render (p := s.pass) s.model.view hs

theorem Steps.acted (h : Steps s s') (hs : s.tree.Whole) : Acted s.page.document s'.page.document := by
  induction h with
  | refl => exact .refl s.page.document
  | tail _ hstep ih => exact ih.trans (hstep.acted (ih.whole hs))

end Session

namespace Page

variable {σ : Type} {page page' : Page σ} {lost : List NodeId}

/-- Operations one after the other, with the nodes that they take away although somebody listens to them. -/
inductive Loses (page : Page σ) : List NodeId → Page σ → Prop
  | refl : Loses page [] page
  | tail {lost more : List NodeId} {page' page'' : Page σ} (h : Loses page lost page') (hstep : Step page' page'')
    (hmore : page'.document.Acts more page''.document) : Loses page (lost ++ more) page''

theorem Step.acted (h : Step page page') (hp : page.tree.Whole) : Acted page.document page'.document := by
  cases h with
  | compute heap user => exact .refl page.document
  | create h => exact (ViewModel.created_of_create h).document_eq ▸ View.acted_listenAll _ page.document
  | act vm a => exact Session.Steps.acted (Session.steps_act ⟨vm, page⟩ a) hp
  | setValue h =>
    obtain ⟨t, ht, rfl⟩ := Document.edit_ok h
    exact .rewrite hp (.setValue ht)
  | setChecked h =>
    obtain ⟨t, ht, rfl⟩ := Document.edit_ok h
    exact .rewrite hp (.setFlag ht)

theorem Loses.document (h : page.Loses lost page') : page.document.Acts lost page'.document := by
  induction h with
  | refl => exact .refl
  | tail _ _ hmore ih => exact ih.trans hmore

theorem Reached.exists_loses (h : page.Reached) : ∃ (html : String) (d : Document) (heap : Heap) (user : σ) (lost : List NodeId),
    Document.parse html = .ok d ∧ Loses ⟨d, heap, user⟩ lost page := by
  induction h with
  | parse hd heap user => exact ⟨_, _, heap, user, [], hd, .refl⟩
  | step h hstep ih =>
    obtain ⟨html, d, heap, user, lost, hd, hloses⟩ := ih
    obtain ⟨more, hmore⟩ := hstep.acted h.whole
    exact ⟨html, d, heap, user, _, hd, hloses.tail hstep hmore⟩

/-- The listeners on the elements of the document, counted. -/
def heardInside (page : Page σ) : Nat := (page.tree.elements.map page.document.listeners.countOn).sum

/--
Every page that is reached has a history, which tells the nodes that were lost: somebody listened to them when they were taken
away with the content of an element. All other listeners are on elements of the document, so if nothing was lost these are all. What was
lost is gone, and its listeners are in the store for good; so the store holds more than the document has exactly if
something was lost.
-/
theorem Reached.listeners_counted (h : page.Reached) : ∃ (html : String) (d : Document) (heap : Heap) (user : σ) (lost : List NodeId),
    Document.parse html = .ok d ∧ Loses ⟨d, heap, user⟩ lost page ∧
      (∀ x, page.document.listeners.on x ≠ [] → page.tree.isElement x = true ∧ page.tree.isConnected x = true ∨ x ∈ lost) ∧
      (lost = [] → page.document.listeners.size = page.heardInside) ∧
      (page.tree.mutations < 2 ^ 32 →
        (∀ x ∈ lost, page.tree.isLive x = false ∧ page.document.listeners.on x ≠ []) ∧ lost.Nodup ∧
          page.document.listeners.size = page.heardInside + (lost.map page.document.listeners.countOn).sum ∧
          (page.document.listeners.size = page.heardInside ↔ lost = [])) := by
  obtain ⟨html, d, heap, user, lost, hd, hloses⟩ := h.exists_loses
  have hacts := hloses.document
  obtain ⟨hwhole, hnone⟩ := Document.parsed hd
  have hp := h.whole
  have hw := hp.wellFormed
  have htraced : ∀ x, page.document.listeners.on x ≠ [] → page.tree.isElement x = true ∨ x ∈ lost := fun x hx =>
    hacts.traced hwhole hnone x (Document.heard_iff.2 hx)
  have hnodup : page.tree.elements.Nodup := (hw.nodup_preorder hw.inUse_root).sublist hw.elements_sublist
  refine ⟨html, d, heap, user, lost, hd, hloses, fun x hx => (htraced x hx).imp_left fun he => ⟨he, ?_⟩, fun hl => ?_, fun hm => ?_⟩
  · exact hp.inUse_iff.1 (hw.inUse_of_isElement he)
  · refine ListenerStore.size_eq_sum _ hnodup fun x hx => hp.mem_elements.2 ((htraced x hx).resolve_right ?_)
    simp [hl]
  have hgone : ∀ x ∈ lost, page.tree.isLive x = false := fun x hx => by simpa using hacts.not_isLive hwhole hm hx
  have hheard : ∀ x ∈ lost, page.document.listeners.on x ≠ [] := fun x hx => Document.heard_iff.1 (hacts.heard hwhole hm x hx)
  have hlost := hacts.nodup hwhole hm
  have hall : (page.tree.elements ++ lost).Nodup := List.nodup_append.2 ⟨hnodup, hlost, by
    rintro x hx y hy rfl
    have hlive := (hw.inUse_of_isElement (hp.mem_elements.1 hx)).1
    rw [hgone x hy] at hlive
    cases hlive⟩
  have hsize : page.document.listeners.size = page.heardInside + (lost.map page.document.listeners.countOn).sum := by
    rw [ListenerStore.size_eq_sum _ hall fun x hx => List.mem_append.2 ((htraced x hx).imp_left hp.mem_elements.2), List.map_append,
      List.sum_append]
    rfl
  refine ⟨fun x hx => ⟨hgone x hx, hheard x hx⟩, hlost, hsize, fun he => ?_, fun hl => by rw [hsize, hl]; rfl⟩
  have hzero : (lost.map page.document.listeners.countOn).sum = 0 := by omega
  refine List.eq_nil_iff_forall_not_mem.2 fun x hx => hheard x hx (List.length_eq_zero_iff.1 ?_)
  exact List.sum_eq_zero_iff.1 hzero _ (List.mem_map_of_mem hx)

set_option maxRecDepth 10000 in
/-- A list is made twice, and its copies have one listener each. The listener on what a text has replaced is still in the store. -/
theorem listeners_counted_replaced : ∃ (page : Page Unit) (html : String) (d : Document) (heap : Heap) (lost : List NodeId),
    page.Reached ∧ page.document.listeners.size = 3 ∧ page.heardInside = 2 ∧ Document.parse html = .ok d ∧
      Loses ⟨d, heap, ()⟩ lost page ∧ lost ≠ [] ∧ ∀ x ∈ lost, page.tree.isLive x = false ∧ page.document.listeners.on x ≠ [] := by
  have h : (Session.ofHtml ("<div ft-view-model='vm'><p vm-foreach='$vm.model.items' vm-event-bind='click::go'></p>" ++
      "<p vm-content-bind='$vm.model.items'><b vm-event-bind='click::go'></b></p></div>") Session.twoItems).toOption.any (fun s =>
        decide (s.render.2.render.2.tree.mutations < 2 ^ 32) && s.render.2.render.2.page.document.listeners.size == 3 &&
          s.render.2.render.2.page.heardInside == 2) = true := by
    decide +kernel
  obtain ⟨s, hs, hcheck⟩ := Session.exists_of_toOption_any h
  simp only [Bool.and_eq_true, decide_eq_true_eq, beq_iff_eq] at hcheck
  obtain ⟨⟨hm, hsize⟩, hinside⟩ := hcheck
  have hreached : s.render.2.render.2.page.Reached :=
    ((reached_ofHtml hs).step (.act s.page s.model .render)).step (.act _ s.render.2.model .render)
  obtain ⟨html, d, heap, _, lost, hd, hloses, _, _, hcounted⟩ := hreached.listeners_counted
  obtain ⟨hlost, _, _, hiff⟩ := hcounted hm
  refine ⟨_, html, d, heap, lost, hreached, hsize, hinside, hd, hloses, fun hnil => ?_, hlost⟩
  have := hiff.2 hnil
  omega

end Page

end ViewBinding
