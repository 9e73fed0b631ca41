import ViewBinding.Proofs.Markup.Growth
import ViewBinding.Proofs.Tree.Rewrite

/-! Properties that elements have from the start on and do not lose, whatever is done to a tree. Elements come from markup, in
the state that their attributes give them, and copies are copies of elements that are there. -/
namespace ViewBinding

open Markup (Flag)

namespace Markup

/-- A property of elements that new ones have, and that stays when an element is written. -/
structure Lasting (P : Element → Prop) : Prop where
  new : ∀ tag attrs, P (.new tag attrs)
  value : ∀ e (value : String), P e → P { e with value := value }
  setAttr : ∀ e (name value : String), P e → P (e.setAttr name value)
  removeAttr : ∀ e (name : String), P e → P (e.removeAttr name)
  reflected : ∀ e (flag : Flag) (on : Bool), P e → P (Tree.reflected e flag on)
  marked : ∀ e : Element, P e → P { e with attrs := e.attrs.insert "selected" "" }
  unmarked : ∀ e : Element, P e → P { e with attrs := e.attrs.erase "selected" }

variable {P : Element → Prop}

theorem Lasting.seeded (hP : Lasting P) {e : Element} (he : P e) (children : List Markup) : P (seeded e children) := by
  unfold Markup.seeded
  split_ifs
  · exact hP.value e _ he
  · exact hP.value e _ he
  · exact he

mutual

theorem Lasting.seed (hP : Lasting P) {above : List String} {m : Markup} (hm : Sound above m) :
    ∀ x ∈ m.seed.elements, P x.1 := by
  cases m with
  | text s => simp [Markup.seed, elements]
  | element e children =>
    rw [Markup.seed, elements, List.forall_mem_cons]
    exact ⟨hP.seeded (hm.1.state ▸ hP.new e.tag e.attrs) children, hP.seedAll hm.2.2⟩

theorem Lasting.seedAll (hP : Lasting P) {above : List String} {ms : List Markup} (hms : SoundAll above ms) :
    ∀ x ∈ elementsOf (seedAll ms), P x.1 := by
  cases ms with
  | nil => simp [Markup.seedAll, elementsOf]
  | cons m ms =>
    rw [Markup.seedAll, elementsOf, List.forall_mem_append]
    exact ⟨hP.seed hms.1, hP.seedAll hms.2⟩

end

/-- All elements of markup that has been read have it. -/
theorem Lasting.parse (hP : Lasting P) {s : String} {content : List Markup} (h : Markup.parse s = .ok content) :
    ∀ x ∈ elementsOf content, P x.1 := by
  obtain ⟨ps, hps, hcontent⟩ := exists_of_bind_eq_ok h
  obtain rfl := Except.ok.inj hcontent
  exact hP.seedAll (soundAll_forest (regular_of_pieces hps))

end Markup

namespace Tree

open Branch
open Markup (Lasting)

variable {P : Markup.Element → Prop} {t t' : Tree} {id x up : NodeId}

def EveryElement (t : Tree) (P : Markup.Element → Prop) : Prop := ∀ x e, t.element? x = some e → P e

/-- An element that is read in a branch is one of the elements of the branch. -/
theorem Holds.mem_elements {parent : Option NodeId} {b : Branch} (h : t.Holds parent b) (hx : x ∈ b.handles) {e : Markup.Element}
    (he : t.element? x = some e) : e ∈ b.elements := by
  obtain ⟨sub, hsub, rfl⟩ := List.mem_map.1 hx
  obtain ⟨p, hp⟩ := h.part hsub
  exact List.mem_filterMap.2 ⟨sub, hsub, hp.element?.symm.trans he⟩

/-- What is new in a node that is refilled is one of the elements of its content. -/
theorem exists_of_element?_refill (ht : t.Whole) (hid : t.isElement id = true) {content : List Markup} (hx : ¬ t.InUse x)
    {e : Markup.Element} (he : ((t.clear id).fill id content).touch.element? x = some e) :
    ∃ y ∈ Markup.elementsOf content, y.1 = e := by
  have hx' := ((Edit.refill hid content).edited ht).whole.wellFormed.inUse_of_element? he
  have hused := ht.wellFormed.inUse_of_isElement hid
  obtain ⟨b, hr⟩ := ht
  obtain ⟨sub, hsub, rfl⟩ := hr.exists_part hused
  obtain ⟨cs, hspells, hreshaped, -⟩ := refill_spec hr hsub content
  have hmem := hreshaped.touch.mem_handles_new hr.nodup hx' fun hm => hx (hr.mem_handles_iff.1 hm)
  rw [handles_node, List.mem_cons, List.mem_flatMap] at hmem
  obtain ⟨c, hc, hxc⟩ := hmem.resolve_left fun hxs => hx (hxs ▸ hused)
  have hnew := List.mem_flatMap_of_mem hc ((hreshaped.touch.holds.child hc).mem_elements hxc he)
  rw [hspells.elements] at hnew
  exact List.mem_map.1 hnew

namespace EveryElement

theorem setElement (h : t.EveryElement P) {e : Markup.Element} (he : P e) : (t.setElement id e).EveryElement P := fun x e' hx => by
  by_cases hxid : x = id
  · rw [hxid, element?_setElement_self] at hx
    split at hx
    · exact Option.some.inj hx ▸ he
    · cases hx
  · exact h x e' (element?_setElement_of_ne t hxid e ▸ hx)

theorem syncOption (h : t.EveryElement P) (hP : Lasting P) (id : NodeId) (name : String) :
    (t.syncOption id name).EveryElement P := by
  unfold Tree.syncOption syncSelect
  split
  · split
    · split
      · next he => exact h.setElement (hP.value _ _ (h _ _ he))
      · exact h
    · exact h
  · exact h

theorem setAttr (h : t.EveryElement P) (hP : Lasting P) {name value : String} (ht : t.setAttr id name value = .ok t') :
    t'.EveryElement P := by
  simp only [Tree.setAttr, Except.bind, bind] at ht
  split at ht
  · cases ht
  next e he =>
    split at ht
    · cases ht
      exact h
    · cases ht
      have hset : (t.setElement id _).EveryElement P := h.setElement (hP.setAttr e (Text.asciiLower name) value (h id e (element?_of_element he)))
      exact syncOption (t := (t.setElement id _).touch) hset hP id _

theorem removeAttr (h : t.EveryElement P) (hP : Lasting P) {name : String} (ht : t.removeAttr id name = .ok t') :
    t'.EveryElement P := by
  simp only [Tree.removeAttr, Except.bind, bind] at ht
  split at ht
  · cases ht
  next e he =>
    split at ht
    · cases ht
      exact h
    · cases ht
      have hset : (t.setElement id _).EveryElement P := h.setElement (hP.removeAttr e (Text.asciiLower name) (h id e (element?_of_element he)))
      exact syncOption (t := (t.setElement id _).touch) hset hP id _

theorem setFlag (h : t.EveryElement P) (hP : Lasting P) {flag : Flag} {on : Bool} (ht : t.setFlag id flag on = .ok t') :
    t'.EveryElement P := by
  simp only [Tree.setFlag, Except.bind, bind] at ht
  split at ht
  · cases ht
  next e he =>
    have hset : (t.setElement id _).EveryElement P := h.setElement (hP.reflected e flag on (h id e (element?_of_element he)))
    cases ht
    split
    · exact hset
    · exact hset

theorem writeValue (h : t.EveryElement P) (hP : Lasting P) {value op : String} (ht : t.writeValue id value op = .ok t') :
    t'.EveryElement P := by
  simp only [Tree.writeValue, Except.bind, bind] at ht
  split at ht
  · cases ht
  next e he =>
    split at ht
    · cases ht
      exact h
    · cases ht
      exact h.setElement (hP.value e value (h id e (element?_of_element he)))

theorem foldl_select (h : t.EveryElement P) (hP : Lasting P) (chosen : Option NodeId) (options : List NodeId) :
    (options.foldl (fun t option => t.select chosen option) t).EveryElement P := by
  induction options generalizing t with
  | nil => exact h
  | cons option options ih =>
    rw [List.foldl_cons]
    refine ih ?_
    unfold select
    split
    · next e he =>
      refine h.setElement ?_
      have he := h option e he
      split_ifs
      · exact hP.marked e he
      · exact hP.unmarked e he
    · exact h

theorem setValue (h : t.EveryElement P) (hP : Lasting P) {value : String} (ht : t.setValue id value = .ok t') :
    t'.EveryElement P := by
  unfold Tree.setValue at ht
  split at ht
  · exact writeValue (h.foldl_select hP _ _) hP ht
  · exact h.writeValue hP ht

/-- A node that is refilled has new elements from its content. -/
theorem refill (h : t.EveryElement P) (ht : t.Whole) (hid : t.isElement id = true) {content : List Markup}
    (hcontent : ∀ x ∈ Markup.elementsOf content, P x.1) : ((t.clear id).fill id content).touch.EveryElement P := by
  intro x e he
  by_cases hx : t.InUse x
  · have hx' := ((Edit.refill hid content).edited ht).whole.wellFormed.inUse_of_element? he
    exact h x e ((kept_of_refill ht hid content hx hx').2 ▸ he)
  · obtain ⟨y, hy, rfl⟩ := exists_of_element?_refill ht hid hx he
    exact hcontent y hy

theorem copy (h : t.EveryElement P) (ht : t.WellFormed) {template c : NodeId} (htemplate : t.InUse template)
    (hc : t.copy template = .ok (c, t')) : t'.EveryElement P := by
  intro x e he
  obtain ⟨forest, hr⟩ := ht
  obtain ⟨b, -, ⟨m, hm, hspells⟩, -, hr', hkept, -⟩ := copy_spec hr hc
  have hw' : t'.WellFormed := ⟨_, hr'⟩
  have hx := hr'.mem_handles_iff.2 (hw'.inUse_of_element? he)
  rw [List.flatMap_cons, List.mem_append] at hx
  rcases hx with hx | hx
  · obtain ⟨y, -, hy⟩ := exists_element_of_copy hr hm hspells htemplate ((hr'.holds b (by simp)).mem_elements hx he)
    exact h y e hy
  · rw [element?, hkept x (hr.mem_handles_iff.1 hx), ← element?] at he
    exact h x e he

/-- Changing where a node lies changes no element. -/
theorem modify (h : t.EveryElement P) (id : NodeId) {f : Slot → Slot} (hgeneration : ∀ s, (f s).generation = s.generation)
    (hdata : ∀ s, (f s).data = s.data) : (t.modify id f).EveryElement P := by
  intro x e he
  refine h x e ?_
  by_cases hx : x = id
  · rw [hx, element?, get?_modify_self t id hgeneration, Option.bind_map] at he
    rw [hx, element?, ← he]
    exact Option.bind_congr fun s _ => by simp [hdata]
  · rwa [element?, get?_modify_of_ne t hx hgeneration, ← element?] at he

theorem unlink (h : t.EveryElement P) (c : NodeId) : (t.unlink c).EveryElement P := by
  unfold Tree.unlink
  split
  · exact h.modify _ (fun _ => rfl) fun _ => rfl
  · exact h

theorem insertAfter (h : t.EveryElement P) {anchor c : NodeId} (ht : t.insertAfter anchor c = .ok t') : t'.EveryElement P := by
  unfold Tree.insertAfter at ht
  split at ht
  · cases ht
  · next up _ =>
    split_ifs at ht
    cases ht
    have hchild := (h.unlink c).modify c (f := fun s => { s with parent := some up }) (fun _ => rfl) fun _ => rfl
    exact hchild.modify up (f := fun s => { s with children := insertBehind anchor c s.children }) (fun _ => rfl) fun _ => rfl

/-- Elements keep a lasting property when one of them is written or refilled. -/
theorem rewrite (h : t.EveryElement P) (hP : Lasting P) (ht : t.Whole) (hr : t.Rewrite id t') : t'.EveryElement P := by
  have hid := hr.isElement
  cases hr with
  | setAttr hr => exact h.setAttr hP hr
  | removeAttr hr => exact h.removeAttr hP hr
  | setFlag hr => exact h.setFlag hP hr
  | setValue hr => exact h.setValue hP hr
  | setTextContent hr =>
    simp only [Tree.setTextContent, Except.bind, bind] at hr
    split at hr
    · cases hr
    · cases hr
      refine h.refill ht hid ?_
      split <;> simp [Markup.elementsOf, Markup.elements]
  | replaceInner hparse hr =>
    obtain rfl := Rewrite.refill_of_replaceInner hr
    exact h.refill ht hid (hP.parse hparse)

/-- New children are copies, so they have what all elements have. -/
theorem relist (h : t.EveryElement P) (hP : Lasting P) (ht : t.Whole) (hr : t.Relist up t') : t'.EveryElement P := by
  cases hr with
  | insert _ helement hcopy h₁ h₂ hinsert =>
    have htemplate := ht.wellFormed.inUse_of_isElement helement
    exact (((h.copy ht.wellFormed htemplate hcopy).removeAttr hP h₁).removeAttr hP h₂).insertAfter hinsert
  | remove hp hremove =>
    intro x e he
    have hr : t.Relist up t' := .remove hp hremove
    obtain ⟨gone, hedit⟩ := hr.edit ht.wellFormed
    have hx' := (hedit.edited ht).whole.wellFormed.inUse_of_element? he
    have hx := inUse_of_remove ht.wellFormed hp hremove hx'
    exact h x e ((hr.kept ht hx hx').2 ▸ he)

end EveryElement

end Tree

end ViewBinding
