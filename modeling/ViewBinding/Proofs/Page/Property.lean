import ViewBinding.Proofs.Page.Counter
import ViewBinding.Proofs.Tree.Stable

/-! Writing values to the properties of elements. -/
namespace ViewBinding

namespace Property

variable {p : Property} {heap : Heap} {t t' : Tree} {id : NodeId} {v : Value}

/--
Whether a property shows a value that was written to it, the select and its options being those before. A text that is no
markup is shown as a text.
-/
def Shows (p : Property) (heap : Heap) (t t' : Tree) (id : NodeId) (v : Value) : Prop :=
  let text := heap.display v
  match p with
  | .checked | .disabled | .readOnly | .required | .hidden => p.read t' id = .ok (.bool v.truthy)
  | .textContent | .className | .id => p.read t' id = .ok (.string text)
  | .value =>
    let isMissing := t.hasTag id "select" ∧ ¬ ∃ option ∈ t.options id, t.optionValue option = text
    p.read t' id = .ok (.string (if isMissing then "" else text))
  | .innerHtml =>
    match Markup.parse text with
    | .ok content => p.read t' id = .ok (.string (Markup.writeAll content))
    | .error _ => t'.textContent id = text

theorem shows_value (ht : t.WellFormed) (h : t.setValue id (heap.display v) = .ok t') : Shows .value heap t t' id v := by
  simp only [Shows, read]
  unfold Tree.setValue at h
  split_ifs at h with hselect
  · rw [(Tree.setSelectValue_again ht hselect h).2]
    by_cases hoption : ∃ option ∈ t.options id, t.optionValue option = heap.display v
    · simp only [hselect, hoption, not_true, and_false, if_false]
      rfl
    · simp only [hselect, hoption, not_false_eq_true, and_self, if_true]
      rfl
  · rw [(Tree.writeValue_again h).2, if_neg fun hmissing => hselect hmissing.1]
    rfl

theorem write_again_hidden (ht : t.WellFormed) (h : write .hidden heap t id v = .ok t') :
    write .hidden heap t' id v = .ok t' ∧ Shows .hidden heap t t' id v := by
  simp only [write, Shows, read, Tree.hasAttr] at h ⊢
  split_ifs at h ⊢ with hon
  · have hthere := Tree.attr?_setAttr_self ht h
    exact ⟨Tree.setAttr_of_attr? hthere, by rw [hthere, hon]; rfl⟩
  · have hgone := Tree.attr?_removeAttr_self ht h
    have hid := ((Tree.writes_removeAttr ht h).isElement id).trans (Tree.isElement_of_bind h)
    exact ⟨Tree.removeAttr_of_attr? hid hgone, by rw [hgone, Bool.eq_false_iff.2 hon]; rfl⟩

/-- Writing a value again changes nothing, and the property shows the value. -/
theorem write_again (ht : t.Whole) (ha : t.EveryElement Markup.Element.Agrees) (h : p.write heap t id v = .ok t') :
    p.write heap t' id v = .ok t' ∧ p.Shows heap t t' id v := by
  have hw := ht.wellFormed
  have hflag : ∀ {flag : Markup.Flag}, t.setFlag id flag v.truthy = .ok t' → t'.setFlag id flag v.truthy = .ok t' ∧
      (return .bool (← t'.flag id flag) : Except Tree.Error Value) = .ok (.bool v.truthy) := fun hset => by
    obtain ⟨hagain, hread⟩ := Tree.setFlag_again ha hset
    exact ⟨hagain, by rw [hread]; rfl⟩
  have hattr : ∀ {name : String}, t.setAttr id name (heap.display v) = .ok t' →
      t'.setAttr id name (heap.display v) = .ok t' ∧
        (.ok (.string ((t'.attr? id name).getD "")) : Except Tree.Error Value) = .ok (.string (heap.display v)) := fun hset => by
    have hthere := Tree.attr?_setAttr_self hw hset
    exact ⟨Tree.setAttr_of_attr? hthere, by rw [hthere]; rfl⟩
  cases p with
  | checked => exact hflag h
  | disabled => exact hflag h
  | readOnly => exact hflag h
  | required => exact hflag h
  | value => exact ⟨Tree.setValue_again hw h, shows_value hw h⟩
  | hidden => exact write_again_hidden hw h
  | textContent =>
    have htext : t'.textContent id = heap.display v := by
      simp only [write] at h
      split_ifs at h with hsame
      · cases h
        exact hsame
      · exact Tree.textContent_setTextContent hw h
    exact ⟨if_pos htext, by simp only [Shows, read, htext]⟩
  | innerHtml =>
    obtain ⟨hagain, hshown⟩ := Tree.setInnerMarkup_again ht h
    refine ⟨hagain, ?_⟩
    cases hparse : Markup.parse (heap.display v) with
    | ok content =>
      simp only [hparse] at hshown
      simp only [Shows, read, hparse, hshown]
      rfl
    | error e =>
      simp only [hparse] at hshown
      simp only [Shows, hparse, hshown]
  | className => exact hattr h
  | id => exact hattr h

end Property

namespace Page

variable {σ : Type} {page : Page σ}

/--
On every page that is reached, a value that was written to a property of an element is shown by that property, and writing it
once more leaves the whole document as it is, the count of changes included.
-/
theorem Reached.property_written (h : page.Reached) (p : Property) {heap : Heap} {id : NodeId} {v : Value} {t' : Tree}
    (hw : p.write heap page.tree id v = .ok t') : p.write heap t' id v = .ok t' ∧ p.Shows heap page.tree t' id v :=
  Property.write_again h.whole (h.everyElement Markup.lasting_agrees) hw

/-- Whether a value can be written to a property of an element, and is counted as a change. -/
def writesAnew (p : Property) (t : Tree) (id : NodeId) (v : Value) : Bool :=
  t.isElement id && (p.write .empty t id v).toOption.any fun t' => t'.mutations != t.mutations

set_option maxRecDepth 10000 in
/-- Of two options the second one is chosen by its text, and stays chosen. -/
theorem property_written_select : ∃ (page : Page Unit) (id : NodeId) (t' : Tree), page.Reached ∧
    Property.write .value .empty page.tree id (.string "b") = .ok t' ∧ t'.mutations ≠ page.tree.mutations ∧
    Property.write .value .empty t' id (.string "b") = .ok t' ∧ Property.Shows .value .empty page.tree t' id (.string "b") := by
  have h : (Document.parse "<select><option value=x>a</option><option>b</option></select>").toOption.any (fun d =>
      d.tree.elements.any (writesAnew .value d.tree · (.string "b"))) = true := by
    decide +kernel
  obtain ⟨d, hd, hany⟩ := Session.exists_of_toOption_any h
  obtain ⟨id, -, hid⟩ := List.any_eq_true.1 hany
  obtain ⟨-, hwrite⟩ := (Bool.and_eq_true _ _).mp hid
  obtain ⟨t', hw, hcount⟩ := Session.exists_of_toOption_any hwrite
  have hpage : Reached (⟨d, .empty, ()⟩ : Page Unit) := .parse hd _ _
  obtain ⟨hagain, hshows⟩ := hpage.property_written .value hw
  exact ⟨_, id, t', hpage, hw, bne_iff_ne.1 hcount, hagain, hshows⟩

end Page

end ViewBinding
