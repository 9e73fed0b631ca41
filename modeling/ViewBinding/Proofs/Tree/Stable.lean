import ViewBinding.Proofs.Tree.Counted

/-! Writing what is there. A write that is made a second time finds everything as it would make it, so it changes nothing, not
even the count of changes. -/
namespace ViewBinding

open Markup (Flag)

theorem Markup.Attributes.insertEntry_of_lookup {name value : String} {es : List (String × String)}
    (hsorted : es.Pairwise fun a b => a.1 < b.1) (h : es.lookup name = some value) : insertEntry name value es = es := by
  induction es with
  | nil => cases h
  | cons e es ih =>
    obtain ⟨n, v⟩ := e
    obtain ⟨hbelow, hsorted⟩ := List.pairwise_cons.1 hsorted
    by_cases hname : name = n
    · subst hname
      rw [List.lookup_cons_self] at h
      rw [insertEntry, if_pos rfl, Option.some.inj h]
    · rw [List.lookup_cons, beq_eq_false_iff_ne.2 hname] at h
      obtain ⟨_, hmem, hentry⟩ := List.lookup_eq_some_iff.1 h
      have hlt : n < name := hbelow (name, value) (by simp [hentry])
      rw [insertEntry, if_neg hname, if_neg fun hgt => String.lt_irrefl n (String.lt_trans hlt hgt), ih hsorted h]

/-- Inserting an attribute that is there changes nothing. -/
theorem Markup.Attributes.insert_of_get? {a : Attributes} {name value : String} (h : a.get? name = some value) :
    a.insert name value = a :=
  entries_injective (insertEntry_of_lookup a.sorted h)

namespace Tree

variable {t t' : Tree} {id x : NodeId} {e : Markup.Element}

theorem element_eq_ok (he : t.element? id = some e) (op : String) : t.element id op = .ok e := by rw [element, he]

/-! Attributes. -/

theorem setAttr_of_attr? {name value : String} (h : t.attr? id name = some value) : t.setAttr id name value = .ok t := by
  obtain ⟨e, he, hvalue⟩ := Option.bind_eq_some_iff.1 h
  simp only [setAttr, element_eq_ok he, bind, Except.bind, if_pos hvalue]
  rfl

theorem removeAttr_of_attr? {name : String} (hid : t.isElement id = true) (h : t.attr? id name = none) :
    t.removeAttr id name = .ok t := by
  obtain ⟨e, he⟩ := Option.isSome_iff_exists.1 hid
  have hnone : e.attrs.contains (Text.asciiLower name) = false := by
    rw [attr?, he] at h
    exact Option.isSome_eq_false_iff.2 (Option.isNone_iff_eq_none.2 h)
  simp only [removeAttr, element_eq_ok he, bind, Except.bind, hnone]
  rfl

/-! Live state. -/

theorem flag_reflected (e : Markup.Element) (flag : Flag) (on : Bool) : (reflected e flag on).flag flag = on := by
  have hset : (e.setFlag on flag).flag flag = on := by rw [Markup.flag_setFlag, if_pos rfl]
  simp only [reflected]
  split_ifs <;> exact hset

theorem element?_setFlag {flag : Flag} {on : Bool} (h : t.setFlag id flag on = .ok t') :
    ∃ e, t.element? id = some e ∧ t'.element? id = some (reflected e flag on) := by
  simp only [setFlag, Except.bind, bind] at h
  split at h
  · cases h
  · next e he =>
    have he := element?_of_element he
    have hself : (t.setElement id (reflected e flag on)).element? id = some (reflected e flag on) := by
      rw [element?_setElement_self, if_pos (isLive_of_element? he)]
    cases h
    refine ⟨e, he, ?_⟩
    split <;> exact hself

/-- A state that is as it should be is not written. -/
theorem setFlag_of_flag (he : t.element? id = some e) (ha : e.Agrees) {flag : Flag} {on : Bool} (hon : e.flag flag = on) :
    t.setFlag id flag on = .ok t := by
  simp only [setFlag, element_eq_ok he, bind, Except.bind, reflected_self ha hon, if_pos hon, setElement_self he]
  rfl

theorem setFlag_again (ha : t.EveryElement Markup.Element.Agrees) {flag : Flag} {on : Bool}
    (h : t.setFlag id flag on = .ok t') : t'.setFlag id flag on = .ok t' ∧ t'.flag id flag = .ok on := by
  obtain ⟨e, he, he'⟩ := element?_setFlag h
  have hon := flag_reflected e flag on
  refine ⟨setFlag_of_flag he' ((ha id e he).reflected flag on) hon, ?_⟩
  simp only [Tree.flag, element_eq_ok he', bind, Except.bind, hon]
  rfl

/-- A value that is there is not written. -/
theorem writeValue_of_value (he : t.element? id = some e) (op : String) : t.writeValue id e.value op = .ok t := by
  simp only [writeValue, element_eq_ok he, bind, Except.bind, if_true]
  rfl

theorem element?_writeValue {value op : String} (h : t.writeValue id value op = .ok t') :
    ∃ e, t'.element? id = some e ∧ e.value = value := by
  simp only [writeValue, Except.bind, bind] at h
  split at h
  · cases h
  · next e he =>
    have he := element?_of_element he
    split at h
    · next hvalue =>
      cases h
      exact ⟨e, he, hvalue⟩
    · cases h
      refine ⟨{ e with value := value }, ?_, rfl⟩
      show (t.setElement id _).element? id = _
      rw [element?_setElement_self, if_pos (isLive_of_element? he)]

theorem writeValue_again {value op : String} (h : t.writeValue id value op = .ok t') :
    t'.writeValue id value op = .ok t' ∧ t'.value id = .ok value := by
  obtain ⟨e, he, rfl⟩ := element?_writeValue h
  refine ⟨writeValue_of_value he op, ?_⟩
  simp only [Tree.value, element_eq_ok he, bind, Except.bind]
  rfl

/-! Values of selects. -/

/-- What a node shows of itself beside its attributes and live state: its children, or its text. -/
def Slot.outline (s : Slot) : List NodeId × Option String :=
  (s.children, match s.data with
    | .text text => some text
    | _ => none)

/-- Whether two trees differ in the attributes and the live state of elements only. -/
def SameText (t t' : Tree) : Prop :=
  t'.slots.size = t.slots.size ∧ ∀ x, (t'.get? x).map Slot.outline = (t.get? x).map Slot.outline

theorem textOf_append (ms ns : List Markup) : Markup.textOf (ms ++ ns) = Markup.textOf ms ++ Markup.textOf ns := by
  induction ms with
  | nil => simp [Markup.textOf]
  | cons m ms ih => simp [Markup.textOf, ih, String.append_assoc]

theorem textOf_flatMap_congr (xs : List NodeId) {f g : NodeId → List Markup}
    (h : ∀ x, Markup.textOf (f x) = Markup.textOf (g x)) : Markup.textOf (xs.flatMap f) = Markup.textOf (xs.flatMap g) := by
  induction xs with
  | nil => rfl
  | cons x xs ih => rw [List.flatMap_cons, List.flatMap_cons, textOf_append, textOf_append, h, ih]

namespace SameText

theorem refl (t : Tree) : SameText t t := ⟨rfl, fun _ => rfl⟩

theorem trans {t'' : Tree} (h : SameText t t') (h' : SameText t' t'') : SameText t t'' :=
  ⟨h'.1.trans h.1, fun x => (h'.2 x).trans (h.2 x)⟩

theorem setElement (he : t.element? id = some e) (e' : Markup.Element) : SameText t (t.setElement id e') := by
  refine ⟨by simp [Tree.setElement, modify], fun x => ?_⟩
  by_cases hx : x = id
  · obtain ⟨slot, hslot, hdata⟩ := exists_slot he
    rw [hx, get?_setElement_self, hslot, Option.map_some, Option.map_some, Option.map_some, Slot.outline, Slot.outline, hdata]
  · rw [get?_setElement_of_ne t hx]

theorem foldl_select (chosen : Option NodeId) (options : List NodeId) :
    SameText t (options.foldl (fun t option => t.select chosen option) t) := by
  induction options generalizing t with
  | nil => exact .refl t
  | cons option options ih =>
    refine .trans ?_ ih
    change SameText t (t.select chosen option)
    unfold select
    split
    · next e he => exact .setElement he _
    · exact .refl t

theorem writeValue {value op : String} (h : t.writeValue id value op = .ok t') : SameText t t' := by
  simp only [Tree.writeValue, Except.bind, bind] at h
  split at h
  · cases h
  · next e he =>
    split at h
    · cases h
      exact .refl t
    · cases h
      exact .setElement (element?_of_element he) _

theorem textContent (h : SameText t t') (x : NodeId) : t'.textContent x = t.textContent x := by
  rw [Tree.textContent, Tree.textContent, content, content, h.1]
  generalize t.slots.size = fuel
  induction fuel generalizing x with
  | zero => rfl
  | succ fuel ih =>
    have hx := h.2 x
    rw [contentWithin, contentWithin]
    cases hs : t.get? x with
    | none =>
      rw [hs] at hx
      rw [Option.map_eq_none_iff.1 hx]
    | some s =>
      rw [hs] at hx
      obtain ⟨s', hs', hsame⟩ := Option.map_eq_some_iff.1 hx
      obtain ⟨hchildren, htext⟩ := Prod.mk.inj hsame
      have hbelow := textOf_flatMap_congr s.children ih
      rw [hs']
      dsimp only
      rw [hchildren]
      cases hd : s.data <;> cases hd' : s'.data <;> simp_all [Markup.textOf, Markup.textContent]

end SameText

/-- Whether an option has the mark of the selected one exactly if it is the one that is chosen. -/
def IsMarked (t : Tree) (chosen : Option NodeId) (option : NodeId) : Prop :=
  t.isElement option = true ∧ t.attr? option "selected" = if chosen = some option then some "" else none

theorem asciiLower_selected : Text.asciiLower "selected" = "selected" := by decide +kernel

theorem IsMarked.of_get?_eq {chosen : Option NodeId} (h : t.IsMarked chosen x) (hget : t'.get? x = t.get? x) :
    t'.IsMarked chosen x := by
  rw [IsMarked, isElement, attr?, element?_eq_of_get?_eq hget]
  exact h

theorem isMarked_select {chosen : Option NodeId} (hx : t.isElement x = true) : (t.select chosen x).IsMarked chosen x := by
  obtain ⟨e, he⟩ := Option.isSome_iff_exists.1 hx
  have hself : ∀ e', (t.setElement x e').element? x = some e' := fun e' => by
    rw [element?_setElement_self, if_pos (isLive_of_element? he)]
  simp only [IsMarked, isElement, select, he, hself, attr?, asciiLower_selected, Option.bind_some, Option.isSome_some,
    true_and]
  split_ifs <;> simp

/-- Choosing the option that is chosen changes nothing. -/
theorem IsMarked.select_eq {chosen : Option NodeId} (h : t.IsMarked chosen x) : t.select chosen x = t := by
  obtain ⟨hx, hmark⟩ := h
  obtain ⟨e, he⟩ := Option.isSome_iff_exists.1 hx
  rw [attr?, he, asciiLower_selected, Option.bind_some] at hmark
  have hattrs : (if chosen = some x then e.attrs.insert "selected" "" else e.attrs.erase "selected") = e.attrs := by
    split_ifs at hmark ⊢
    · exact Markup.Attributes.insert_of_get? hmark
    · exact Markup.Attributes.erase_of_not_contains (by rw [Markup.Attributes.contains, hmark]; rfl)
  simp only [select, he, hattrs]
  exact setElement_self he

theorem isMarked_foldl_select (ht : t.WellFormed) (chosen : Option NodeId) {options : List NodeId} (hx : x ∈ options)
    (helement : t.isElement x = true) :
    (options.foldl (fun t option => t.select chosen option) t).IsMarked chosen x := by
  induction options generalizing t with
  | nil => cases hx
  | cons option options ih =>
    have hwrites := writes_select ht chosen option
    rw [List.foldl_cons]
    by_cases hmem : x ∈ options
    · exact ih (hwrites.wellFormed ht) hmem ((hwrites.isElement x).trans helement)
    · obtain rfl := (List.mem_cons.1 hx).resolve_right hmem
      exact (isMarked_select helement).of_get?_eq (get?_foldl_select chosen hmem)

theorem foldl_select_eq {chosen : Option NodeId} {options : List NodeId} (h : ∀ option ∈ options, t.IsMarked chosen option) :
    options.foldl (fun t option => t.select chosen option) t = t := by
  induction options with
  | nil => rfl
  | cons option options ih =>
    rw [List.forall_mem_cons] at h
    rw [List.foldl_cons, h.1.select_eq, ih h.2]

theorem SameShape.preorder (h : SameShape t t') (x : NodeId) : t'.preorder x = t.preorder x := by
  unfold Tree.preorder
  rw [h.size]
  generalize t.slots.size = fuel
  induction fuel generalizing x with
  | zero => rfl
  | succ fuel ih => rw [preorderWithin, preorderWithin, h.children, funext ih]

theorem Writes.options {w : NodeId → String → Prop} (h : Writes t t' w) (x : NodeId) : t'.options x = t.options x := by
  unfold Tree.options elementsBelow
  simp only [h.children, funext h.toSameShape.preorder, funext h.isElement, h.hasTag]

/-- The option that is chosen for a value: the first one that stands for it. -/
def chosen? (t : Tree) (select : NodeId) (value : String) : Option NodeId :=
  (t.options select).find? fun option => t.optionValue option = value

/-- A select whose options are marked as they should be is not written. -/
theorem setSelectValue_of_marked {value : String} (he : t.element? id = some e)
    (hvalue : e.value = if (t.chosen? id value).isSome then value else "")
    (hmarked : ∀ option ∈ t.options id, t.IsMarked (t.chosen? id value) option) : t.setSelectValue id value = .ok t := by
  rw [setSelectValue, ← chosen?, foldl_select_eq hmarked, ← hvalue]
  exact writeValue_of_value he _

theorem isMarked_setSelectValue (ht : t.WellFormed) (hselect : t.hasTag id "select" = true) {value : String}
    (h : t.setSelectValue id value = .ok t') {option : NodeId} (hoption : option ∈ t.options id) :
    t'.IsMarked (t.chosen? id value) option := by
  have hbelow := ht.below_of_mem_options (ht.inUse_of_isElement (isElement_of_hasTag hselect)) hoption
  have hmarks := isMarked_foldl_select ht (t.chosen? id value) hoption (List.mem_filter.1 (List.mem_filter.1 hoption).1).2
  exact hmarks.of_get?_eq (get?_writeValue h hbelow.2)

/-- The first option with a value is chosen again, and a select without one is left with the empty value. -/
theorem setSelectValue_again (ht : t.WellFormed) (hselect : t.hasTag id "select" = true) {value : String}
    (h : t.setSelectValue id value = .ok t') : t'.setSelectValue id value = .ok t' ∧
      t'.value id = .ok (if ∃ option ∈ t.options id, t.optionValue option = value then value else "") := by
  have hset : t.setValue id value = .ok t' := by rw [setValue, if_pos hselect, h]
  have hwrites := writes_setValue ht hset
  have hwritten := h
  rw [setSelectValue] at hwritten
  have htext := (SameText.foldl_select _ _).trans (.writeValue hwritten)
  have hvalue : ∀ option, t'.optionValue option = t.optionValue option := fun option => by
    rw [optionValue, hwrites.attr? (by decide +kernel), htext.textContent, optionValue]
  have hchosen : t'.chosen? id value = t.chosen? id value := by
    rw [chosen?, hwrites.options]
    simp only [hvalue]
    rfl
  obtain ⟨e, he, hread⟩ := element?_writeValue hwritten
  constructor
  · refine setSelectValue_of_marked he (by rw [hread, hchosen, chosen?]) fun option hoption => ?_
    rw [hwrites.options] at hoption
    exact hchosen ▸ isMarked_setSelectValue ht hselect h hoption
  · rw [(writeValue_again hwritten).2]
    exact congrArg Except.ok (if_congr (by simp) rfl rfl)

theorem setValue_again (ht : t.WellFormed) {value : String} (h : t.setValue id value = .ok t') :
    t'.setValue id value = .ok t' := by
  have htag := (writes_setValue ht h).hasTag id "select"
  unfold setValue at h ⊢
  rw [htag]
  split_ifs at h ⊢ with hselect
  · exact (setSelectValue_again ht hselect h).1
  · exact (writeValue_again h).1

/-! Content. -/

open Branch

theorem Represents.inner {forest : List Branch} {b : Branch} (h : t.Represents forest) (hb : b ∈ forest.flatMap parts) :
    t.inner b.handle = b.children.flatMap Branch.content := by
  obtain ⟨p, hp⟩ := h.part hb
  rw [Tree.inner, hp.children, List.flatMap_map]
  exact List.flatMap_congr fun c hc => h.content (Represents.child_mem_parts hb hc)

/-- The text of an element is the text of what is in it. -/
theorem textContent_eq_textOf_inner (ht : t.WellFormed) (hid : t.isElement id = true) :
    t.textContent id = Markup.textOf (t.inner id) := by
  obtain ⟨e, he⟩ := Option.isSome_iff_exists.1 hid
  obtain ⟨forest, hr⟩ := ht
  obtain ⟨b, hb, rfl⟩ := hr.exists_part (WellFormed.inUse_of_isElement ⟨forest, hr⟩ hid)
  obtain ⟨p, hp⟩ := hr.part hb
  rw [textContent, hr.content hb, hr.inner hb]
  obtain ⟨id, data, cs⟩ := b
  have hdata : data.element? = some e := hp.element?.symm.trans he
  cases data <;> simp_all [NodeData.element?, Branch.content, contentAll_eq, Markup.textOf, Markup.textContent]

/-- What is put into an element is what is in it. -/
theorem content_refill (ht : t.WellFormed) (hid : t.isElement id = true) (content : List Markup) :
    ((t.clear id).fill id content).touch.inner id = content ∧
      ((t.clear id).fill id content).touch.textContent id = Markup.textOf content := by
  obtain ⟨forest, hr⟩ := ht
  obtain ⟨sub, hsub, rfl⟩ := hr.exists_part (WellFormed.inUse_of_isElement ⟨forest, hr⟩ hid)
  obtain ⟨cs, hspells, hreshaped, -⟩ := refill_spec hr hsub content
  have hr' := hreshaped.touch.represents
  have hinner : ((t.clear sub.handle).fill sub.handle content).touch.inner sub.handle = content :=
    (hr'.inner (mem_parts_replace hsub (.node sub.handle sub.data cs))).trans hspells.content
  have helement : ((t.clear sub.handle).fill sub.handle content).touch.element? sub.handle = t.element? sub.handle :=
    hreshaped.touch.holds.element?.trans hreshaped.held.element?.symm
  refine ⟨hinner, ?_⟩
  rw [textContent_eq_textOf_inner ⟨_, hr'⟩ (by rwa [isElement, helement]), hinner]

theorem innerHtml_eq_ok (hid : t.isElement id = true) : t.innerHtml id = .ok (Markup.writeAll (t.inner id)) := by
  obtain ⟨e, he⟩ := Option.isSome_iff_exists.1 hid
  simp only [innerHtml, element_eq_ok he, bind, Except.bind]
  rfl

theorem textContent_setTextContent (ht : t.WellFormed) {text : String} (h : t.setTextContent id text = .ok t') :
    t'.textContent id = text := by
  have hid := Rewrite.isElement (.setTextContent h)
  simp only [setTextContent, Except.bind, bind] at h
  split at h
  · cases h
  · cases h
    refine (content_refill ht hid _).2.trans ?_
    split_ifs with hempty
    · exact (String.isEmpty_iff.1 hempty).symm
    · simp [Markup.textOf, Markup.textContent]

theorem innerHtml_replaceInner (ht : t.Whole) {content : List Markup} (h : t.replaceInner id content = .ok t') :
    t'.innerHtml id = .ok (Markup.writeAll content) := by
  have hid : t.isElement id = true := isElement_of_bind h
  obtain rfl := Rewrite.refill_of_replaceInner h
  have hid' : ((t.clear id).fill id content).touch.isElement id = true := by
    have hin := ht.wellFormed.inUse_of_isElement hid
    have hedited := (Edit.refill hid content).edited ht
    have hin' := (hedited.inUse_iff hin).2 fun hgone => (hedited.taken id hgone).2.2 rfl
    rw [isElement, (kept_of_refill ht hid content hin hin').2]
    exact hid
  rw [innerHtml_eq_ok hid', (content_refill ht.wellFormed hid content).1]

/-- Markup that an element reads as already is not written. -/
theorem setInnerMarkup_of_shown {markup : String} (h : match Markup.parse markup with
    | .ok content => t.innerHtml id = .ok (Markup.writeAll content)
    | .error _ => t.textContent id = markup) : t.setInnerMarkup id markup = .ok t := by
  unfold setInnerMarkup
  split at h
  · next content hparse =>
    simp only [hparse, h, bind, Except.bind, if_true]
    rfl
  · next e hparse =>
    simp only [hparse]
    exact if_pos h

/-- Markup that is written reads as its own text, and a text that is no markup as itself. -/
theorem setInnerMarkup_again (ht : t.Whole) {markup : String} (h : t.setInnerMarkup id markup = .ok t') :
    t'.setInnerMarkup id markup = .ok t' ∧
      match Markup.parse markup with
      | .ok content => t'.innerHtml id = .ok (Markup.writeAll content)
      | .error _ => t'.textContent id = markup := by
  suffices hshown : match Markup.parse markup with
      | .ok content => t'.innerHtml id = .ok (Markup.writeAll content)
      | .error _ => t'.textContent id = markup from ⟨setInnerMarkup_of_shown hshown, hshown⟩
  unfold setInnerMarkup at h
  split at h
  · next hparse =>
    simp only [hparse]
    split_ifs at h with hsame
    · cases h
      exact hsame
    · exact textContent_setTextContent ht.wellFormed h
  · next content hparse =>
    simp only [hparse]
    simp only [Except.bind, bind] at h
    split at h
    · cases h
    · next text htext =>
      split_ifs at h with hsame
      · cases h
        rw [htext, hsame]
      · exact innerHtml_replaceInner ht h

end Tree

end ViewBinding
