import ViewBinding.Proofs.Tree.Represents

/-! Operations on attributes and live state change no shape. Each of them writes attributes of known names
at known nodes; beside the element that it is given, only the marks of selected options are written. -/
namespace ViewBinding.Tree

open Markup (Flag)

/-- A change of attributes and live state. Only attributes in `w` are written. -/
structure Writes (t t' : Tree) (w : NodeId → String → Prop) : Prop extends SameShape t t' where
  tag : ∀ x, (t'.element? x).map (·.tag) = (t.element? x).map (·.tag)
  attrs : ∀ x name, ¬ w x name →
    (t'.element? x).bind (·.attrs.get? name) = (t.element? x).bind (·.attrs.get? name)
  mutations_le : t.mutations ≤ t'.mutations

theorem SameShape.refl (t : Tree) : SameShape t t where
  get? x := by cases h : t.get? x <;> simp [data, h]
  size := rfl
  free := rfl
  generation _ := rfl
  vacant _ _ := rfl
  document _ := id

theorem SameShape.trans {t t' t'' : Tree} (h : SameShape t t') (h' : SameShape t' t'') :
    SameShape t t'' where
  get? x := by
    rw [h'.get?, h.get?]
    cases t.get? x <;> rfl
  size := h'.size.trans h.size
  free := h'.free.trans h.free
  generation i := (h'.generation i).trans (h.generation i)
  vacant i hi := (h'.vacant i (h.free ▸ hi)).trans (h.vacant i hi)
  document x hx := h'.document x (h.document x hx)

theorem SameShape.wellFormed {t t' : Tree} (h : SameShape t t') (hw : t.WellFormed) : t'.WellFormed :=
  let ⟨_, hr⟩ := hw
  ⟨_, h.represents hr⟩

theorem SameShape.ancestors {t t' : Tree} (h : SameShape t t') (x : NodeId) : t'.ancestors x = t.ancestors x := by
  unfold Tree.ancestors
  rw [h.size]
  generalize t.slots.size = fuel
  induction fuel generalizing x with
  | zero => rfl
  | succ fuel ih =>
    rw [ancestorsWithin, ancestorsWithin, h.parent?]
    cases t.parent? x with
    | none => rfl
    | some p => exact congrArg (p :: ·) (ih p)

namespace Writes

variable {t t' t'' : Tree} {w w' : NodeId → String → Prop}

theorem refl (t : Tree) (w : NodeId → String → Prop) : Writes t t w :=
  ⟨.refl t, fun _ => rfl, fun _ _ _ => rfl, le_rfl⟩

theorem trans (h : Writes t t' w) (h' : Writes t' t'' w) : Writes t t'' w where
  toSameShape := h.toSameShape.trans h'.toSameShape
  tag x := (h'.tag x).trans (h.tag x)
  attrs x name hw := (h'.attrs x name hw).trans (h.attrs x name hw)
  mutations_le := h.mutations_le.trans h'.mutations_le

theorem mono (h : Writes t t' w) (hw : ∀ x name, w x name → w' x name) : Writes t t' w' :=
  ⟨h.toSameShape, h.tag, fun x name hn => h.attrs x name fun hx => hn (hw x name hx), h.mutations_le⟩

theorem touch (h : Writes t t' w) : Writes t t'.touch w :=
  ⟨⟨h.get?, h.size, h.free, h.generation, h.vacant, h.document⟩, h.tag, h.attrs, Nat.le_succ_of_le h.mutations_le⟩

theorem isElement (h : Writes t t' w) (x : NodeId) : t'.isElement x = t.isElement x := by
  have := congrArg Option.isSome (h.tag x)
  simpa [Tree.isElement] using this

theorem attr? (h : Writes t t' w) {x : NodeId} {name : String} (hn : ¬ w x (Text.asciiLower name)) :
    t'.attr? x name = t.attr? x name :=
  h.attrs x _ hn

theorem hasAttr (h : Writes t t' w) {x : NodeId} {name : String} (hn : ¬ w x (Text.asciiLower name)) :
    t'.hasAttr x name = t.hasAttr x name := by
  rw [Tree.hasAttr, h.attr? hn, Tree.hasAttr]

end Writes

variable {t t' : Tree} {w : NodeId → String → Prop}

/-- Writing an element in use keeps the shape. -/
theorem sameShape_setElement (ht : t.WellFormed) {id : NodeId} {e : Markup.Element}
    (he : t.element? id = some e) (e' : Markup.Element) : SameShape t (t.setElement id e') where
  get? x := by
    by_cases hx : x = id
    · subst hx
      have hget : (t.setElement x e').get? x = (t.get? x).map fun s => { s with data := .element e' } :=
        get?_modify_self t x fun _ => rfl
      rw [data, hget]
      cases t.get? x <;> rfl
    · have hget : (t.setElement id e').get? x = t.get? x := get?_modify_of_ne t hx fun _ => rfl
      rw [data, hget]
      cases h : t.get? x <;> simp
  size := by simp [setElement, modify]
  free := rfl
  generation i := by
    refine generation_modify t id ?_ i
    exact fun _ => rfl
  vacant i hi := by
    obtain ⟨forest, hr⟩ := ht
    have hid : t.InUse id := hr.mem_handles_iff.1 (hr.arena.mem_of_isElement (by simp [isElement, he]))
    have hne : id.slot ≠ i := fun h => hid.2 (h ▸ hi)
    simp [setElement, modify, Array.getElem?_modify, hne]
  document x hx := by
    have hxid : x ≠ id := by
      rintro rfl
      obtain ⟨s, hs, he⟩ := Option.bind_eq_some_iff.1 he
      simp only [data, hs, Option.map_some, Option.getD_some] at hx
      rw [hx] at he
      cases he
    have hget : (t.setElement id e').get? x = t.get? x := get?_modify_of_ne t hxid fun _ => rfl
    rw [data, hget]
    exact hx

theorem writes_setElement (ht : t.WellFormed) {id : NodeId} {e e' : Markup.Element}
    (he : t.element? id = some e) (htag : e'.tag = e.tag)
    (hattrs : ∀ name, ¬ w id name → e'.attrs.get? name = e.attrs.get? name) :
    Writes t (t.setElement id e') w where
  toSameShape := sameShape_setElement ht he e'
  tag x := by
    by_cases hx : x = id
    · subst hx
      have hlive : t.isLive x = true := by
        obtain ⟨s, hs, -⟩ := Option.bind_eq_some_iff.1 he
        simp [isLive, hs]
      simp [element?_setElement_self, hlive, he, htag]
    · rw [element?_setElement_of_ne t hx]
  attrs x name hn := by
    by_cases hx : x = id
    · subst hx
      have hlive : t.isLive x = true := by
        obtain ⟨s, hs, -⟩ := Option.bind_eq_some_iff.1 he
        simp [isLive, hs]
      simp [element?_setElement_self, hlive, he, hattrs name hn]
    · rw [element?_setElement_of_ne t hx]
  mutations_le := le_rfl

theorem element?_of_element {id : NodeId} {op : String} {e : Markup.Element}
    (h : t.element id op = .ok e) : t.element? id = some e := by
  unfold element at h
  split at h
  · next he => rw [he, Except.ok.inj h]
  · cases h

theorem isLive_of_element? {id : NodeId} {e : Markup.Element} (h : t.element? id = some e) :
    t.isLive id = true := by
  obtain ⟨s, hs, -⟩ := Option.bind_eq_some_iff.1 h
  simp [isLive, hs]

theorem writes_syncSelect (ht : t.WellFormed) (select : NodeId) : Writes t (t.syncSelect select) w := by
  unfold syncSelect
  split
  · next e he => exact writes_setElement ht he rfl fun _ _ => rfl
  · exact .refl t w

theorem writes_syncOption (ht : t.WellFormed) (id : NodeId) (name : String) :
    Writes t (t.syncOption id name) w := by
  unfold syncOption
  split
  · split
    · exact writes_syncSelect ht _
    · exact .refl t w
  · exact .refl t w

theorem tag_setFlag (e : Markup.Element) (on : Bool) (flag : Flag) : (e.setFlag on flag).tag = e.tag := by
  cases flag <;> rfl

theorem attrs_setFlag (e : Markup.Element) (on : Bool) (flag : Flag) :
    (e.setFlag on flag).attrs = e.attrs := by
  cases flag <;> rfl

theorem tag_setAttr (e : Markup.Element) (name value : String) : (e.setAttr name value).tag = e.tag := by
  unfold Markup.Element.setAttr
  split
  · rfl
  · split
    · rw [tag_setFlag]
    · rfl

theorem attrs_setAttr (e : Markup.Element) (name value : String) :
    (e.setAttr name value).attrs = e.attrs.insert name value := by
  unfold Markup.Element.setAttr
  split
  · rfl
  · split
    · rw [attrs_setFlag]
    · rfl

theorem tag_removeAttr (e : Markup.Element) (name : String) : (e.removeAttr name).tag = e.tag := by
  unfold Markup.Element.removeAttr
  split
  · rfl
  · split
    · rw [tag_setFlag]
    · rfl

theorem attrs_removeAttr (e : Markup.Element) (name : String) :
    (e.removeAttr name).attrs = e.attrs.erase name := by
  unfold Markup.Element.removeAttr
  split
  · rfl
  · split
    · rw [attrs_setFlag]
    · rfl

/-- Setting an attribute writes that one only. -/
theorem writes_setAttr (ht : t.WellFormed) {id : NodeId} {name value : String}
    (h : t.setAttr id name value = .ok t') :
    Writes t t' fun x n => x = id ∧ n = Text.asciiLower name := by
  simp only [setAttr, Except.bind, bind] at h
  split at h
  · cases h
  next e he =>
    split at h
    · cases h
      exact .refl t _
    · cases h
      have hset := (writes_setElement (w := fun x n => x = id ∧ n = Text.asciiLower name) ht
        (element?_of_element he) (tag_setAttr e _ value) fun n hn => by
          rw [attrs_setAttr]
          exact e.attrs.get?_insert_of_ne (fun h => hn ⟨rfl, h⟩) value).touch
      exact hset.trans (writes_syncOption (hset.wellFormed ht) id _)

theorem writes_removeAttr (ht : t.WellFormed) {id : NodeId} {name : String}
    (h : t.removeAttr id name = .ok t') :
    Writes t t' fun x n => x = id ∧ n = Text.asciiLower name := by
  simp only [removeAttr, Except.bind, bind] at h
  split at h
  · cases h
  next e he =>
    split at h
    · cases h
      exact .refl t _
    · cases h
      have hset := (writes_setElement (w := fun x n => x = id ∧ n = Text.asciiLower name) ht
        (element?_of_element he) (tag_removeAttr e _) fun n hn => by
          rw [attrs_removeAttr]
          exact e.attrs.get?_erase_of_ne fun h => hn ⟨rfl, h⟩).touch
      exact hset.trans (writes_syncOption (hset.wellFormed ht) id _)

/-- An attribute that has been set reads as its value. -/
theorem attr?_setAttr_self (ht : t.WellFormed) {id : NodeId} {name value : String}
    (h : t.setAttr id name value = .ok t') : t'.attr? id name = some value := by
  simp only [setAttr, Except.bind, bind] at h
  split at h
  · cases h
  next e he =>
    have he := element?_of_element he
    split at h
    · next hsame =>
      cases h
      simpa [attr?, he] using hsame
    · cases h
      have hset := writes_setElement (w := fun _ _ => True) ht he (tag_setAttr e (Text.asciiLower name) value)
        fun _ h => absurd trivial h
      have hsync := writes_syncOption (w := fun _ _ => False) (hset.touch.wellFormed ht) id
        (Text.asciiLower name)
      rw [hsync.attr? not_false]
      show ((t.setElement id (e.setAttr (Text.asciiLower name) value)).element? id).bind _ = some value
      rw [element?_setElement_self, isLive_of_element? he]
      simp [attrs_setAttr]

/-- An attribute that has been taken away reads as absent. -/
theorem attr?_removeAttr_self (ht : t.WellFormed) {id : NodeId} {name : String}
    (h : t.removeAttr id name = .ok t') : t'.attr? id name = none := by
  simp only [removeAttr, Except.bind, bind] at h
  split at h
  · cases h
  next e he =>
    have he := element?_of_element he
    split at h
    · next hnot =>
      cases h
      simpa [attr?, he, Markup.Attributes.contains] using hnot
    · cases h
      have hset := writes_setElement (w := fun _ _ => True) ht he (tag_removeAttr e (Text.asciiLower name))
        fun _ h => absurd trivial h
      have hsync := writes_syncOption (w := fun _ _ => False) (hset.touch.wellFormed ht) id
        (Text.asciiLower name)
      rw [hsync.attr? not_false]
      show ((t.setElement id (e.removeAttr (Text.asciiLower name))).element? id).bind _ = none
      rw [element?_setElement_self, isLive_of_element? he]
      simp [attrs_removeAttr]

theorem attr?_removeAttr_of_none (ht : t.WellFormed) {id : NodeId} {name other : String}
    (h : t.removeAttr id name = .ok t') (hnone : t.attr? id other = none) : t'.attr? id other = none := by
  by_cases hn : Text.asciiLower other = Text.asciiLower name
  · have := attr?_removeAttr_self ht h
    rwa [attr?, ← hn] at this
  · rw [(writes_removeAttr ht h).attr? fun hx => hn hx.2, hnone]

theorem writes_addClass (ht : t.WellFormed) {id : NodeId} {cls : String}
    (h : t.addClass id cls = .ok t') : Writes t t' fun x n => x = id ∧ n = "class" := by
  simp only [addClass, Except.bind, bind] at h
  split at h
  · cases h
  · split at h
    · cases h
      exact .refl t _
    · exact (writes_setAttr ht h).mono fun x n hx => ⟨hx.1, hx.2.trans (by decide +kernel)⟩

theorem writes_setFlag (ht : t.WellFormed) {id : NodeId} {flag : Flag} {on : Bool}
    (h : t.setFlag id flag on = .ok t') : Writes t t' fun x n => x = id ∧ n = flag.attribute := by
  simp only [setFlag, Except.bind, bind] at h
  split at h
  · cases h
  next e he =>
    have hset : Writes t (t.setElement id (reflected e flag on)) fun x n => x = id ∧ n = flag.attribute := by
      refine writes_setElement ht (element?_of_element he) ?_ fun n hn => ?_
      · simp only [reflected]
        split_ifs <;> simp [tag_setFlag]
      · have hne : n ≠ flag.attribute := fun he => hn ⟨rfl, he⟩
        simp only [reflected]
        split_ifs <;>
          simp [attrs_setFlag, Markup.Attributes.get?_insert_of_ne _ hne,
            Markup.Attributes.get?_erase_of_ne _ hne]
    cases h
    split
    · exact hset
    · exact hset.touch

theorem writes_writeValue (ht : t.WellFormed) {id : NodeId} {value op : String}
    (h : t.writeValue id value op = .ok t') : Writes t t' w := by
  simp only [writeValue, Except.bind, bind] at h
  split at h
  · cases h
  next e he =>
    split at h
    · cases h
      exact .refl t w
    · cases h
      refine (writes_setElement ht (element?_of_element he) ?_ ?_).touch
      · rfl
      · exact fun _ _ => rfl

/-- A live value that has been written is read again. -/
theorem value_writeValue {id : NodeId} {value op : String} (h : t.writeValue id value op = .ok t') :
    t'.value id = .ok value := by
  simp only [writeValue, Except.bind, bind] at h
  split at h
  · cases h
  next e he =>
    have he := element?_of_element he
    split at h
    · next hsame =>
      cases h
      simp [Tree.value, element, he, hsame, bind, Except.bind, pure, Except.pure]
    · cases h
      have hnew : (t.setElement id { e with value := value }).touch.element? id = some { e with value := value } := by
        show (t.setElement id { e with value := value }).element? id = _
        rw [element?_setElement_self, isLive_of_element? he, if_pos rfl]
      simp [Tree.value, element, hnew, bind, Except.bind, pure, Except.pure]

theorem writes_select (ht : t.WellFormed) (chosen : Option NodeId) (option : NodeId) :
    Writes t (t.select chosen option) fun _ n => n = "selected" := by
  unfold select
  split
  · next e he =>
    refine writes_setElement ht he rfl fun n hn => ?_
    simp only
    split
    · exact e.attrs.get?_insert_of_ne hn ""
    · exact e.attrs.get?_erase_of_ne hn
  · exact .refl t _

theorem writes_foldl_select (ht : t.WellFormed) (chosen : Option NodeId) (options : List NodeId) :
    Writes t (options.foldl (fun t option => t.select chosen option) t) fun _ n => n = "selected" := by
  induction options generalizing t with
  | nil => exact .refl t _
  | cons option options ih =>
    have hone := writes_select ht chosen option
    exact hone.trans (ih (hone.wellFormed ht))

/-- Setting a value writes no attributes but the marks of selected options. -/
theorem writes_setValue (ht : t.WellFormed) {id : NodeId} {value : String}
    (h : t.setValue id value = .ok t') : Writes t t' fun _ n => n = "selected" := by
  unfold setValue at h
  split at h
  · have hall := writes_foldl_select ht
      ((t.options id).find? fun option => t.optionValue option = value) (t.options id)
    exact hall.trans (writes_writeValue (hall.wellFormed ht) h)
  · exact writes_writeValue ht h

/-! At an element that is no option, what is written stays at the element. -/

theorem element_of_isElement {id : NodeId} (h : t.isElement id = true) (op : String) :
    ∃ e, t.element? id = some e ∧ t.element id op = .ok e := by
  obtain ⟨e, he⟩ := Option.isSome_iff_exists.1 h
  exact ⟨e, he, by rw [element, he]⟩

theorem isElement_of_hasTag {id : NodeId} {tag : String} (h : t.hasTag id tag = true) : t.isElement id = true := by
  rw [hasTag, Option.any_eq_true] at h
  obtain ⟨e, he, -⟩ := h
  exact Option.isSome_of_eq_some he

theorem isElement_of_hasAttr {id : NodeId} {name : String} (h : t.hasAttr id name = true) : t.isElement id = true := by
  rw [hasAttr, attr?] at h
  rw [isElement]
  cases he : t.element? id with
  | none => simp [he] at h
  | some e => rfl

theorem Writes.hasTag (h : Writes t t' w) (x : NodeId) (tag : String) : t'.hasTag x tag = t.hasTag x tag := by
  have htag := h.tag x
  rw [Tree.hasTag, Tree.hasTag]
  cases hx : t.element? x <;> cases hx' : t'.element? x <;> simp_all

theorem syncOption_of_not_option {id : NodeId} (h : t.hasTag id "option" = false) (name : String) :
    t.syncOption id name = t := by
  simp [syncOption, h]

/-- An attribute of such an element is written by writing the element. -/
theorem syncOption_setElement (ht : t.WellFormed) {id : NodeId} {e e' : Markup.Element}
    (he : t.element? id = some e) (htag : e'.tag = e.tag) (ho : t.hasTag id "option" = false) (name : String) :
    ((t.setElement id e').touch).syncOption id name = (t.setElement id e').touch := by
  have hw := (writes_setElement (w := fun _ _ => True) ht he htag fun _ h => absurd trivial h).touch
  refine syncOption_of_not_option ?_ name
  rw [hw.hasTag, ho]

theorem exists_setAttr (ht : t.WellFormed) {id : NodeId} (h : t.isElement id = true)
    (ho : t.hasTag id "option" = false) (name value : String) :
    ∃ t', t.setAttr id name value = .ok t' ∧ ∀ x ≠ id, t'.element? x = t.element? x := by
  obtain ⟨e, he, helement⟩ := element_of_isElement h "setAttribute"
  simp only [setAttr, helement, bind, Except.bind]
  split
  · exact ⟨t, rfl, fun _ _ => rfl⟩
  · rw [syncOption_setElement ht he (tag_setAttr ..) ho]
    exact ⟨_, rfl, fun x hx => element?_setElement_of_ne t hx _⟩

theorem exists_removeAttr (ht : t.WellFormed) {id : NodeId} (h : t.isElement id = true)
    (ho : t.hasTag id "option" = false) (name : String) :
    ∃ t', t.removeAttr id name = .ok t' ∧ ∀ x ≠ id, t'.element? x = t.element? x := by
  obtain ⟨e, he, helement⟩ := element_of_isElement h "removeAttribute"
  simp only [removeAttr, helement, bind, Except.bind]
  split
  · exact ⟨t, rfl, fun _ _ => rfl⟩
  · rw [syncOption_setElement ht he (tag_removeAttr ..) ho]
    exact ⟨_, rfl, fun x hx => element?_setElement_of_ne t hx _⟩

theorem exists_addClass (ht : t.WellFormed) {id : NodeId} (h : t.isElement id = true)
    (ho : t.hasTag id "option" = false) (cls : String) :
    ∃ t', t.addClass id cls = .ok t' ∧ ∀ x ≠ id, t'.element? x = t.element? x := by
  obtain ⟨e, he, helement⟩ := element_of_isElement h "classList"
  simp only [addClass, helement, bind, Except.bind]
  split
  · exact ⟨t, rfl, fun _ _ => rfl⟩
  · exact exists_setAttr ht h ho ..

/-- Setting the value of a control that is no list of options. -/
theorem exists_setValue {id : NodeId} (h : t.isElement id = true) (hs : t.hasTag id "select" = false)
    (value : String) :
    ∃ t', t.setValue id value = .ok t' ∧ t'.value id = .ok value ∧ ∀ x ≠ id, t'.element? x = t.element? x := by
  obtain ⟨e, he, helement⟩ := element_of_isElement h "value"
  obtain ⟨t', ht', hkept⟩ :
      ∃ t', t.setValue id value = .ok t' ∧ ∀ x ≠ id, t'.element? x = t.element? x := by
    rw [setValue, if_neg (by simp [hs])]
    simp only [writeValue, helement, bind, Except.bind]
    split
    · exact ⟨t, rfl, fun _ _ => rfl⟩
    · exact ⟨_, rfl, fun x hx => element?_setElement_of_ne t hx _⟩
  refine ⟨t', ht', ?_, hkept⟩
  rw [setValue, if_neg (by simp [hs])] at ht'
  exact value_writeValue ht'

end ViewBinding.Tree
