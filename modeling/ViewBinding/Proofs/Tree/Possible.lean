import ViewBinding.Property
import ViewBinding.Proofs.Tree.Control

/-! What can be done with an element. No operation on it fails, whatever is written; only nodes that are no elements, or are
gone, are refused. -/
namespace ViewBinding

namespace Tree

variable {t : Tree} {id : NodeId}

theorem exists_setAttr_of_isElement (h : t.isElement id = true) (name value : String) :
    ∃ t', t.setAttr id name value = .ok t' := by
  obtain ⟨e, -, he⟩ := element_of_isElement h "setAttribute"
  simp only [setAttr, he, bind, Except.bind]
  split <;> exact ⟨_, rfl⟩

theorem exists_removeAttr_of_isElement (h : t.isElement id = true) (name : String) : ∃ t', t.removeAttr id name = .ok t' := by
  obtain ⟨e, -, he⟩ := element_of_isElement h "removeAttribute"
  simp only [removeAttr, he, bind, Except.bind]
  split <;> exact ⟨_, rfl⟩

theorem exists_addClass_of_isElement (h : t.isElement id = true) (cls : String) : ∃ t', t.addClass id cls = .ok t' := by
  obtain ⟨e, -, he⟩ := element_of_isElement h "classList"
  simp only [addClass, he, bind, Except.bind]
  split
  · exact ⟨t, rfl⟩
  · exact exists_setAttr_of_isElement h ..

theorem exists_setFlag_of_isElement (h : t.isElement id = true) (flag : Markup.Flag) (on : Bool) :
    ∃ t', t.setFlag id flag on = .ok t' := by
  obtain ⟨e, -, he⟩ := element_of_isElement h flag.attribute
  simp only [setFlag, he, bind, Except.bind]
  exact ⟨_, rfl⟩

theorem exists_writeValue_of_isElement (h : t.isElement id = true) (value op : String) :
    ∃ t', t.writeValue id value op = .ok t' := by
  obtain ⟨e, -, he⟩ := element_of_isElement h op
  simp only [writeValue, he, bind, Except.bind]
  split <;> exact ⟨_, rfl⟩

/-- Marking options takes no element away, so the value of a select can be written afterwards. -/
theorem exists_setValue_of_isElement (ht : t.WellFormed) (h : t.isElement id = true) (value : String) :
    ∃ t', t.setValue id value = .ok t' := by
  unfold setValue
  split
  · refine exists_writeValue_of_isElement ?_ ..
    exact ((writes_foldl_select ht _ _).isElement id).trans h
  · exact exists_writeValue_of_isElement h ..

theorem exists_setTextContent_of_isElement (h : t.isElement id = true) (text : String) :
    ∃ t', t.setTextContent id text = .ok t' := by
  obtain ⟨e, -, he⟩ := element_of_isElement h "textContent"
  simp only [setTextContent, he, bind, Except.bind]
  exact ⟨_, rfl⟩

theorem exists_innerHtml_of_isElement (h : t.isElement id = true) : ∃ markup, t.innerHtml id = .ok markup := by
  obtain ⟨e, -, he⟩ := element_of_isElement h "innerHTML"
  simp only [innerHtml, he, bind, Except.bind]
  exact ⟨_, rfl⟩

/-- A text that is no markup is written as a text. -/
theorem exists_setInnerMarkup_of_isElement (h : t.isElement id = true) (markup : String) :
    ∃ t', t.setInnerMarkup id markup = .ok t' := by
  unfold setInnerMarkup
  split
  · split
    · exact ⟨t, rfl⟩
    · exact exists_setTextContent_of_isElement h markup
  · obtain ⟨shown, hshown⟩ := exists_innerHtml_of_isElement h
    obtain ⟨e, -, he⟩ := element_of_isElement h "innerHTML"
    simp only [hshown, replaceInner, he, bind, Except.bind]
    split <;> exact ⟨_, rfl⟩

end Tree

namespace Property

open ViewBinding.Tree

variable {t : Tree} {id : NodeId}

theorem exists_write (p : Property) (ht : t.WellFormed) (h : t.isElement id = true) (heap : Heap) (v : Value) :
    ∃ t', p.write heap t id v = .ok t' := by
  cases p with
  | checked | disabled | readOnly | required => exact exists_setFlag_of_isElement h ..
  | value => exact exists_setValue_of_isElement ht h _
  | hidden =>
    simp only [write]
    split
    · exact exists_setAttr_of_isElement h ..
    · exact exists_removeAttr_of_isElement h _
  | textContent =>
    simp only [write]
    split
    · exact ⟨t, rfl⟩
    · exact exists_setTextContent_of_isElement h _
  | innerHtml => exact exists_setInnerMarkup_of_isElement h _
  | className | id => exact exists_setAttr_of_isElement h ..

theorem exists_read (p : Property) (h : t.isElement id = true) : ∃ v, p.read t id = .ok v := by
  have hflag : ∀ flag : Markup.Flag, ∃ v, (return .bool (← t.flag id flag) : Except Tree.Error Value) = .ok v := fun flag => by
    obtain ⟨e, -, he⟩ := element_of_isElement h flag.attribute
    simp only [Tree.flag, he, bind, Except.bind]
    exact ⟨_, rfl⟩
  cases p with
  | checked | disabled | readOnly | required => exact hflag _
  | value =>
    obtain ⟨e, -, he⟩ := element_of_isElement h "value"
    simp only [read, Tree.value, he, bind, Except.bind]
    exact ⟨_, rfl⟩
  | innerHtml =>
    obtain ⟨shown, hshown⟩ := exists_innerHtml_of_isElement h
    simp only [read, hshown, bind, Except.bind]
    exact ⟨_, rfl⟩
  | hidden | textContent | className | id => exact ⟨_, rfl⟩

end Property

end ViewBinding
