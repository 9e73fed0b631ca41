import ViewBinding.Proofs.Page.Handles
import ViewBinding.Proofs.Tree.Counted

/-! The count of changes on a page. Operations that leave it where it was have changed nothing, except for which options of a
select are marked: a select to which a value is written marks its options anew, and counts this only if its own value changes. -/
namespace ViewBinding

open ViewBinding.Tree

namespace Tree

open Branch

variable {P : Markup.Element → Prop}

theorem everyElement_ofMarkup {content : List Markup} (hcontent : ∀ x ∈ Markup.elementsOf content, P x.1) :
    (ofMarkup content).EveryElement P := by
  intro x e he
  obtain ⟨cs, hspells, hr, -⟩ := represents_ofMarkup content
  have hx := hr.mem_handles_iff.2 ((wellFormed_ofMarkup content).inUse_of_element? he)
  rw [List.flatMap_singleton] at hx
  have hmem := (hr.holds _ (List.mem_singleton_self _)).mem_elements hx he
  rw [elements_node, hspells.elements, List.mem_append] at hmem
  rcases hmem with hdocument | hmem
  · simp [NodeData.element?] at hdocument
  · obtain ⟨y, hy, rfl⟩ := List.mem_map.1 hmem
    exact hcontent y hy

end Tree

namespace Document

variable {F : Fence} {d d' : Document} {P : Markup.Element → Prop}

theorem Deed.everyElement (h : Deed F d d') (hP : Markup.Lasting P) (hd : d.tree.Whole) (he : d.tree.EveryElement P) :
    d'.tree.EveryElement P := by
  cases h with
  | rewrite _ h => exact he.rewrite hP hd h
  | relist _ h => exact he.relist hP hd h
  | install _ _ _ => exact he
  | purge _ => exact he

theorem Deed.counted (h : Deed F d d') (hd : d.tree.Whole) (he : d.tree.EveryElement Markup.Element.Agrees) :
    Counted d.tree d'.tree := by
  cases h with
  | rewrite _ h => exact h.counted hd he
  | relist _ h => exact h.counted hd
  | install _ _ _ => exact .refl _
  | purge _ => exact .refl _

namespace Deeds

theorem everyElement (h : Deeds F d d') (hP : Markup.Lasting P) (hd : d.tree.Whole) (he : d.tree.EveryElement P) :
    d'.tree.EveryElement P := by
  induction h with
  | refl => exact he
  | tail h hdeed ih => exact hdeed.everyElement hP (Deeds.whole h hd) ih

theorem counted (h : Deeds F d d') (hd : d.tree.Whole) (he : d.tree.EveryElement Markup.Element.Agrees) :
    Counted d.tree d'.tree := by
  induction h with
  | refl => exact .refl _
  | tail h hdeed ih => exact ih.trans (hdeed.counted (Deeds.whole h hd) (Deeds.everyElement h Markup.lasting_agrees hd he))

end Deeds

end Document

/-- The live state of an element. -/
def Markup.Element.live (e : Markup.Element) : String × (Markup.Flag → Bool) := (e.value, e.flag)

theorem Markup.Element.live_unmarked (e : Markup.Element) : e.unmarked.live = e.live := by
  unfold unmarked
  split
  · exact congrArg (e.value, ·) (funext (Markup.flag_with_attrs e _))
  · rfl

namespace Page

variable {σ : Type} {page page' : Page σ} {P : Markup.Element → Prop}

/-- What elements have from the start on, and do not lose, all elements of a page have. -/
theorem Reached.everyElement (h : page.Reached) (hP : Markup.Lasting P) : page.tree.EveryElement P := by
  induction h with
  | @parse html d h heap user =>
    unfold Document.parse at h
    split at h
    · next content hparse =>
      cases h
      exact everyElement_ofMarkup (hP.parse hparse)
    · cases h
  | step h hstep ih => exact (hstep.deeds h.whole).everyElement hP h.whole ih

theorem Reached.counted (h : page.Reached) (hsteps : Relation.ReflTransGen Step page page') : Counted page.tree page'.tree := by
  induction hsteps using Relation.ReflTransGen.head_induction_on with
  | refl => exact .refl _
  | @head page middle hstep _ ih =>
    exact ((hstep.deeds h.whole).counted h.whole (h.everyElement Markup.lasting_agrees)).trans (ih (h.step hstep))

/--
Operations on any page that is reached, one after the other, in which view models may fail. If the count of changes is the
same as before, there are the same nodes, in the same places, with the same text, attributes and live state, up to the marks
of options. A node that lies in no select is the same without exception, and so is the dump of a page without a select.
-/
theorem Reached.unchanged_of_mutations_eq (h : page.Reached) (hsteps : Relation.ReflTransGen Step page page')
    (hcount : page'.tree.mutations = page.tree.mutations) :
    (∀ x, (page'.tree.get? x).map Slot.unmarked = (page.tree.get? x).map Slot.unmarked) ∧
      (∀ x, (∀ s, page.tree.Inside x s → page.tree.hasTag s "select" = false) → page'.tree.get? x = page.tree.get? x) ∧
      (∀ x, (page'.tree.element? x).map (·.live) = (page.tree.element? x).map (·.live)) ∧
      ((∀ s, page.tree.hasTag s "select" = false) → page'.document.dump = page.document.dump) := by
  have halike := (h.counted hsteps).alike hcount
  refine ⟨halike.unmarked, halike.same, fun x => ?_, fun hselect => ?_⟩
  · exact halike.map_element? x Markup.Element.live_unmarked
  · exact congrArg Markup.writeAll (halike.content hselect Tree.root)

/-- Whether writing a value to an element leaves the count as it is and shows in the dump. -/
def showsUncounted (d : Document) (id : NodeId) (value : String) : Bool :=
  (d.edit (·.setValue id value)).toOption.any fun d' => d'.tree.mutations == d.tree.mutations && d'.dump != d.dump

set_option maxRecDepth 10000 in
/-- A select is given the value that it shows. Its option gets the mark, which the dump shows, and nothing is counted. -/
theorem unchanged_of_mutations_eq_marked : ∃ page page' : Page Unit, page.Reached ∧ Relation.ReflTransGen Step page page' ∧
    page'.tree.mutations = page.tree.mutations ∧ page'.document.dump ≠ page.document.dump ∧
    ∀ x, (page'.tree.element? x).map (·.live) = (page.tree.element? x).map (·.live) := by
  have h : (Document.parse "<select><option>a</option><option>b</option></select>").toOption.any (fun d =>
      d.tree.elements.any (showsUncounted d · "a")) = true := by
    decide +kernel
  obtain ⟨d, hd, hany⟩ := Session.exists_of_toOption_any h
  obtain ⟨id, -, hid⟩ := List.any_eq_true.1 hany
  obtain ⟨d', hd', hcheck⟩ := Session.exists_of_toOption_any hid
  obtain ⟨hcount, hdump⟩ := (Bool.and_eq_true _ _).mp hcheck
  have hpage : Reached (⟨d, .empty, ()⟩ : Page Unit) := .parse hd _ _
  have hstep : Step (⟨d, .empty, ()⟩ : Page Unit) ⟨d', .empty, ()⟩ := .setValue hd'
  have hlive := (hpage.unchanged_of_mutations_eq (.single hstep) (eq_of_beq hcount)).2.2.1
  exact ⟨_, _, hpage, .single hstep, eq_of_beq hcount, bne_iff_ne.1 hdump, hlive⟩

end Page

end ViewBinding
