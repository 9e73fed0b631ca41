import ViewBinding.Proofs.Tree.Lasting

/-! The count of changes. Whatever is done to a tree is counted, unless it changes nothing; only the marks of options, which
follow the value of their select, are written without being counted. -/
namespace ViewBinding

open Markup (Flag)

namespace Markup

/-- An option without the mark of a selected one. Any other element is left as it is. -/
def Element.unmarked (e : Element) : Element :=
  if e.tag = "option" then { e with attrs := e.attrs.erase "selected" } else e

/-- Every state that is written to an attribute as well is on exactly where the attribute is there. -/
def Element.Agrees (e : Element) : Prop := ∀ flag : Flag, flag ≠ .checked → e.flag flag = e.attrs.contains flag.attribute

namespace Attributes

theorem entries_injective {a b : Attributes} (h : a.entries = b.entries) : a = b := by
  cases a
  cases b
  congr

theorem filter_insertEntry (name value : String) (es : List (String × String)) :
    (insertEntry name value es).filter (·.1 != name) = es.filter (·.1 != name) := by
  induction es with
  | nil => simp [insertEntry]
  | cons e es ih =>
    rw [insertEntry]
    split_ifs with hname hlt
    · simp [hname]
    · simp
    · rw [List.filter_cons, List.filter_cons, ih]

/-- Once an attribute is taken away, nothing is left of what it was. -/
theorem erase_insert_self (a : Attributes) (name value : String) : (a.insert name value).erase name = a.erase name :=
  entries_injective (filter_insertEntry name value a.entries)

theorem erase_erase_self (a : Attributes) (name : String) : (a.erase name).erase name = a.erase name :=
  entries_injective (by simp [erase, List.filter_filter])

theorem erase_of_not_contains {a : Attributes} {name : String} (h : a.contains name = false) : a.erase name = a := by
  refine entries_injective (List.filter_eq_self.2 fun e he => bne_iff_ne.2 fun hname => ?_)
  have hnone : a.entries.lookup name = none := by simpa [contains, get?] using h
  have hne := List.lookup_eq_none_iff.1 hnone e he
  simp [hname] at hne

theorem contains_insert (a : Attributes) (name value other : String) :
    (a.insert name value).contains other = if other = name then true else a.contains other := by
  split_ifs with h
  · simp [contains, h]
  · simp [contains, get?_insert_of_ne a h]

theorem contains_erase (a : Attributes) (name other : String) :
    (a.erase name).contains other = if other = name then false else a.contains other := by
  split_ifs with h
  · simp [contains, h]
  · simp [contains, get?_erase_of_ne a h]

end Attributes

variable {e e' : Element}

theorem Flag.attribute_injective {flag other : Flag} (h : flag.attribute = other.attribute) : flag = other := by
  revert h
  cases flag <;> cases other <;> decide

theorem Flag.attribute_of_ofAttribute? {name : String} {flag : Flag} (h : Flag.ofAttribute? name = some flag) :
    flag.attribute = name := by
  unfold Flag.ofAttribute? at h
  split at h <;> cases h <;> rfl

theorem Flag.ofAttribute?_attribute (flag : Flag) : Flag.ofAttribute? flag.attribute = some flag := by
  cases flag <;> rfl

theorem Flag.attribute_ne (flag : Flag) : flag.attribute ≠ "value" ∧ flag.attribute ≠ "selected" := by
  cases flag <;> decide

theorem flag_setFlag (e : Element) (on : Bool) (flag other : Flag) :
    (e.setFlag on flag).flag other = if other = flag then on else e.flag other := by
  cases flag <;> cases other <;> rfl

theorem flag_with_attrs (e : Element) (attrs : Attributes) (flag : Flag) : ({ e with attrs := attrs } : Element).flag flag = e.flag flag := by
  cases flag <;> rfl

theorem flag_with_value (e : Element) (value : String) (flag : Flag) : ({ e with value := value } : Element).flag flag = e.flag flag := by
  cases flag <;> rfl

/-- An attribute sets the state that is tied to it, and no other one. -/
theorem flag_tied (e : Element) (name : String) (on : Bool) (flag : Flag) :
    (match Flag.ofAttribute? name with
      | some other => e.setFlag on other
      | none => e).flag flag = if flag.attribute = name then on else e.flag flag := by
  split
  · next other hother =>
    rw [flag_setFlag]
    exact if_congr ⟨fun he => he ▸ Flag.attribute_of_ofAttribute? hother, fun he => Flag.attribute_injective
      (he.trans (Flag.attribute_of_ofAttribute? hother).symm)⟩ rfl rfl
  · next hnone =>
    refine (if_neg ?_).symm
    rintro rfl
    rw [flag.ofAttribute?_attribute] at hnone
    cases hnone

theorem flag_setAttr (e : Element) (name value : String) (flag : Flag) :
    (e.setAttr name value).flag flag = if flag.attribute = name then true else e.flag flag := by
  unfold Element.setAttr
  split
  · next hname => rw [if_neg (hname ▸ flag.attribute_ne.1), flag_with_value, flag_with_attrs]
  · exact (flag_tied { e with attrs := e.attrs.insert name value } name true flag).trans (by rw [flag_with_attrs])

theorem flag_removeAttr (e : Element) (name : String) (flag : Flag) :
    (e.removeAttr name).flag flag = if flag.attribute = name then false else e.flag flag := by
  unfold Element.removeAttr
  split
  · next hname => rw [if_neg (hname ▸ flag.attribute_ne.1), flag_with_value, flag_with_attrs]
  · exact (flag_tied { e with attrs := e.attrs.erase name } name false flag).trans (by rw [flag_with_attrs])

/-- Writing an attribute and the state that is tied to it. -/
theorem Element.Agrees.write (h : e.Agrees) (name : String) (on : Bool)
    (hattrs : ∀ other, e'.attrs.contains other = if other = name then on else e.attrs.contains other)
    (hflags : ∀ flag, flag ≠ .checked → e'.flag flag = if flag.attribute = name then on else e.flag flag) : e'.Agrees := fun flag hflag => by
  rw [hattrs, hflags flag hflag, h flag hflag]

theorem Element.Agrees.reflected (h : e.Agrees) (flag : Flag) (on : Bool) : (Tree.reflected e flag on).Agrees := by
  have hset : ∀ other, (e.setFlag on flag).flag other = if other.attribute = flag.attribute then on else e.flag other := fun other => by
    rw [flag_setFlag]
    exact if_congr ⟨congrArg Flag.attribute, Flag.attribute_injective⟩ rfl rfl
  simp only [Tree.reflected]
  split_ifs with hchecked hon hthere
  · intro other hother
    rw [flag_setFlag, if_neg (hchecked ▸ hother), Tree.attrs_setFlag, h other hother]
  · refine h.write flag.attribute on (fun other => ?_) fun other _ => hset other
    rw [Tree.attrs_setFlag] at hthere ⊢
    split_ifs with hname
    · rw [hname, hthere, hon]
    · rfl
  · refine h.write flag.attribute on (fun other => ?_) fun other _ => ?_
    · rw [Tree.attrs_setFlag, Attributes.contains_insert, hon]
    · rw [flag_with_attrs, hset]
  · refine h.write flag.attribute on (fun other => ?_) fun other _ => ?_
    · rw [Tree.attrs_setFlag, Attributes.contains_erase, Bool.eq_false_iff.2 hon]
    · rw [flag_with_attrs, hset]

/-- The mark of an option comes and goes without a trace. -/
theorem Element.unmarked_of_marked (htag : e.tag = "option") (on : Prop) [Decidable on] :
    ({ e with attrs := if on then e.attrs.insert "selected" "" else e.attrs.erase "selected" } : Element).unmarked = e.unmarked := by
  rw [unmarked, unmarked, if_pos htag, if_pos htag]
  split_ifs
  · rw [Attributes.erase_insert_self]
  · rw [Attributes.erase_erase_self]

theorem lasting_agrees : Lasting Element.Agrees where
  new tag attrs flag hflag := by
    cases flag with
    | checked => exact absurd rfl hflag
    | _ => rfl
  value e value h flag hflag := (flag_with_value e value flag).trans (h flag hflag)
  setAttr e name value h := h.write name true (fun other => by rw [Tree.attrs_setAttr, Attributes.contains_insert])
    fun flag _ => flag_setAttr e name value flag
  removeAttr e name h := h.write name false (fun other => by rw [Tree.attrs_removeAttr, Attributes.contains_erase])
    fun flag _ => flag_removeAttr e name flag
  reflected e flag on h := h.reflected flag on
  marked e h := h.write "selected" true (fun other => Attributes.contains_insert e.attrs "selected" "" other) fun flag _ => by
    rw [flag_with_attrs, if_neg flag.attribute_ne.2]
  unmarked e h := h.write "selected" false (fun other => Attributes.contains_erase e.attrs "selected" other) fun flag _ => by
    rw [flag_with_attrs, if_neg flag.attribute_ne.2]

end Markup

def NodeData.unmarked : NodeData → NodeData
  | .element e => .element e.unmarked
  | data => data

/-- A node without the mark of a selected option. -/
def Slot.unmarked (s : Slot) : Slot := { s with data := s.data.unmarked }

namespace Tree

variable {t t' t'' : Tree} {id up x s : NodeId}

/-- The same nodes, up to the marks of options that lie in a select. -/
structure Alike (t t' : Tree) : Prop where
  size : t'.slots.size = t.slots.size
  unmarked : ∀ x, (t'.get? x).map Slot.unmarked = (t.get? x).map Slot.unmarked
  same : ∀ x, (∀ s, t.Inside x s → t.hasTag s "select" = false) → t'.get? x = t.get? x

/-- Changes are counted: where the count is the same no more than marks of options is different. -/
structure Counted (t t' : Tree) : Prop where
  mutations_le : t.mutations ≤ t'.mutations
  alike : t'.mutations = t.mutations → Alike t t'

namespace Alike

theorem refl (t : Tree) : Alike t t := ⟨rfl, fun _ => rfl, fun _ _ => rfl⟩

theorem parent? (h : Alike t t') (x : NodeId) : t'.parent? x = t.parent? x := by
  have hx := congrArg (Option.bind · Slot.parent) (h.unmarked x)
  rwa [Option.bind_map, Option.bind_map] at hx

theorem element? (h : Alike t t') (x : NodeId) :
    (t'.element? x).map Markup.Element.unmarked = (t.element? x).map Markup.Element.unmarked := by
  have hdata : ∀ data : NodeData, data.unmarked.element? = data.element?.map Markup.Element.unmarked := fun data => by
    cases data <;> rfl
  have hx := congrArg (Option.bind · (·.data.element?)) (h.unmarked x)
  simp only [Option.bind_map, Function.comp_def, Slot.unmarked, hdata] at hx
  rwa [Tree.element?, Tree.element?, Option.map_bind, Option.map_bind]

/-- Whatever does not depend on the mark of an option is the same. -/
theorem map_element? {α : Type} (h : Alike t t') (x : NodeId) {f : Markup.Element → α} (hf : ∀ e, f e.unmarked = f e) :
    (t'.element? x).map f = (t.element? x).map f := by
  have hx := congrArg (Option.map f) (h.element? x)
  simpa only [Option.map_map, Function.comp_def, hf] using hx

theorem hasTag (h : Alike t t') (x : NodeId) (tag : String) : t'.hasTag x tag = t.hasTag x tag := by
  have htag := h.map_element? x (f := (·.tag)) fun e => by rw [Markup.Element.unmarked]; split <;> rfl
  rw [Tree.hasTag, Tree.hasTag]
  cases he : t.element? x <;> cases he' : t'.element? x <;> simp_all

theorem inside_iff (h : Alike t t') : t'.Inside x s ↔ t.Inside x s := by
  simp only [Inside, h.parent?]

theorem trans (h : Alike t t') (h' : Alike t' t'') : Alike t t'' where
  size := h'.size.trans h.size
  unmarked x := (h'.unmarked x).trans (h.unmarked x)
  same x hx := (h'.same x fun s hs => (h.hasTag s _).trans (hx s (h.inside_iff.1 hs))).trans (h.same x hx)

/-- Without selects in the tree nothing is different, so the tree reads the same. -/
theorem content (h : Alike t t') (hselect : ∀ s, t.hasTag s "select" = false) (x : NodeId) : t'.content x = t.content x := by
  unfold Tree.content
  rw [h.size]
  generalize t.slots.size = fuel
  induction fuel generalizing x with
  | zero => rfl
  | succ fuel ih =>
    rw [contentWithin, contentWithin, h.same x fun s _ => hselect s, funext ih]

end Alike

namespace Counted

theorem refl (t : Tree) : Counted t t := ⟨le_rfl, fun _ => .refl t⟩

theorem of_lt (h : t.mutations < t'.mutations) : Counted t t' := ⟨h.le, fun he => absurd he h.ne'⟩

theorem trans (h : Counted t t') (h' : Counted t' t'') : Counted t t'' where
  mutations_le := h.mutations_le.trans h'.mutations_le
  alike he := by
    -- a count that is the same in the end has not moved in between
    have hfirst : t'.mutations = t.mutations := le_antisymm (he ▸ h'.mutations_le) h.mutations_le
    exact (h.alike hfirst).trans (h'.alike (he.trans hfirst.symm))

end Counted

theorem exists_slot {e : Markup.Element} (he : t.element? id = some e) : ∃ slot, t.get? id = some slot ∧ slot.data = .element e := by
  obtain ⟨slot, hslot, hdata⟩ := Option.bind_eq_some_iff.1 he
  refine ⟨slot, hslot, ?_⟩
  unfold NodeData.element? at hdata
  split at hdata
  · next he' => rw [he', Option.some.inj hdata]
  · cases hdata

theorem get?_setElement_self (t : Tree) (id : NodeId) (e : Markup.Element) :
    (t.setElement id e).get? id = (t.get? id).map fun slot => { slot with data := .element e } :=
  get?_modify_self t id fun _ => rfl

/-- Writing the element that is there changes nothing. -/
theorem setElement_self {e : Markup.Element} (he : t.element? id = some e) : t.setElement id e = t := by
  obtain ⟨slot, hslot, hdata⟩ := exists_slot he
  obtain ⟨hat, -⟩ := Option.filter_eq_some_iff.1 hslot
  have hslots : (t.setElement id e).slots = t.slots := Array.ext_getElem? fun i => by
    simp only [setElement, modify, Array.getElem?_modify]
    split_ifs with hi
    · rw [← hi, hat, Option.map_some, ← hdata]
      split <;> rfl
    · rfl
  show { t with slots := (t.setElement id e).slots } = t
  rw [hslots]

theorem reflected_self {e : Markup.Element} (h : e.Agrees) {flag : Flag} {on : Bool} (hon : e.flag flag = on) :
    reflected e flag on = e := by
  have hself : e.setFlag on flag = e := by
    subst hon
    cases flag <;> rfl
  simp only [reflected, hself]
  split_ifs with hchecked hon' hthere
  · rfl
  · rfl
  · exact absurd ((h flag hchecked).symm.trans (hon.trans hon')) hthere
  · rw [Markup.Attributes.erase_of_not_contains ((h flag hchecked).symm.trans (hon.trans (Bool.eq_false_iff.2 hon')))]

theorem mutations_syncOption (t : Tree) (id : NodeId) (name : String) : (t.syncOption id name).mutations = t.mutations := by
  unfold syncOption syncSelect
  split
  · split
    · split <;> rfl
    · rfl
  · rfl

theorem mutations_foldl_select (chosen : Option NodeId) (options : List NodeId) :
    (options.foldl (fun t option => t.select chosen option) t).mutations = t.mutations := by
  induction options generalizing t with
  | nil => rfl
  | cons option options ih =>
    rw [List.foldl_cons, ih, select]
    split <;> rfl

theorem counted_setAttr {name value : String} (h : t.setAttr id name value = .ok t') : Counted t t' := by
  simp only [Tree.setAttr, Except.bind, bind] at h
  split at h
  · cases h
  · split at h
    · cases h
      exact .refl t
    · cases h
      exact .of_lt (mutations_syncOption (t.setElement id _).touch id _ ▸ Nat.lt_succ_self _)

theorem counted_removeAttr {name : String} (h : t.removeAttr id name = .ok t') : Counted t t' := by
  simp only [Tree.removeAttr, Except.bind, bind] at h
  split at h
  · cases h
  · split at h
    · cases h
      exact .refl t
    · cases h
      exact .of_lt (mutations_syncOption (t.setElement id _).touch id _ ▸ Nat.lt_succ_self _)

/-- A state that is there already is not written, since its attribute agrees with it. -/
theorem counted_setFlag (ha : t.EveryElement Markup.Element.Agrees) {flag : Flag} {on : Bool} (h : t.setFlag id flag on = .ok t') :
    Counted t t' := by
  simp only [Tree.setFlag, Except.bind, bind] at h
  split at h
  · cases h
  next e he =>
    have he := element?_of_element he
    cases h
    split
    · next hon =>
      rw [reflected_self (ha id e he) hon, setElement_self he]
      exact .refl t
    · exact .of_lt (Nat.lt_succ_self _)

theorem counted_writeValue {value op : String} (h : t.writeValue id value op = .ok t') : Counted t t' := by
  simp only [writeValue, Except.bind, bind] at h
  split at h
  · cases h
  · split at h
    · cases h
      exact .refl t
    · cases h
      exact .of_lt (Nat.lt_succ_self _)

/-- Choosing an option of a select writes its mark. -/
theorem alike_select (chosen : Option NodeId) {option : NodeId} (hoption : t.hasTag option "option" = true)
    (hin : t.Inside option s) (hselect : t.hasTag s "select" = true) : Alike t (t.select chosen option) := by
  unfold select
  split
  · next e he =>
    have htag : e.tag = "option" := by simpa [hasTag, he] using hoption
    obtain ⟨slot, hslot, hdata⟩ := exists_slot he
    have hother : ∀ x ≠ option, ∀ e', (t.setElement option e').get? x = t.get? x := fun x hx => get?_setElement_of_ne t hx
    refine ⟨by simp [setElement, modify], fun x => ?_, fun x hx => hother x ?_ _⟩
    · by_cases hx : x = option
      · rw [hx, get?_setElement_self, hslot, Option.map_some, Option.map_some, Option.map_some, Slot.unmarked, Slot.unmarked,
          NodeData.unmarked, Markup.Element.unmarked_of_marked htag, hdata, NodeData.unmarked]
      · rw [hother x hx]
    · rintro rfl
      simp [hx s hin] at hselect
  · exact .refl t

theorem alike_foldl_select (chosen : Option NodeId) {options : List NodeId} (hselect : t.hasTag s "select" = true)
    (hoptions : ∀ option ∈ options, t.hasTag option "option" = true ∧ t.Inside option s) :
    Alike t (options.foldl (fun t option => t.select chosen option) t) := by
  induction options generalizing t with
  | nil => exact .refl t
  | cons option options ih =>
    obtain ⟨⟨htag, hin⟩, hoptions⟩ := List.forall_mem_cons.1 hoptions
    have hfirst := alike_select chosen htag hin hselect
    refine hfirst.trans (ih ((hfirst.hasTag s _).trans hselect) fun other hother => ?_)
    exact ⟨(hfirst.hasTag other _).trans (hoptions other hother).1, hfirst.inside_iff.2 (hoptions other hother).2⟩

/-- Setting a value that is there already writes no more than the marks of options. -/
theorem counted_setValue (ht : t.WellFormed) {value : String} (h : t.setValue id value = .ok t') : Counted t t' := by
  unfold Tree.setValue at h
  split at h
  · next hselect =>
    have hid := ht.inUse_of_isElement (isElement_of_hasTag hselect)
    have hmarks := alike_foldl_select ((t.options id).find? fun option => t.optionValue option = value) hselect
      fun option hoption => ⟨(List.mem_filter.1 hoption).2, (ht.below_of_mem_options hid hoption).1⟩
    have hfirst : Counted t _ := ⟨(mutations_foldl_select _ _).ge, fun _ => hmarks⟩
    exact hfirst.trans (counted_writeValue h)
  · exact counted_writeValue h

theorem counted_refill (ht : t.Whole) (hid : t.isElement id = true) (content : List Markup) :
    Counted t ((t.clear id).fill id content).touch := by
  have hw := ht.wellFormed
  obtain ⟨b, hr⟩ := ht
  obtain ⟨sub, hsub, rfl⟩ := hr.exists_part (hw.inUse_of_isElement hid)
  obtain ⟨_, -, -, hmutations⟩ := refill_spec hr hsub content
  exact .of_lt ((Nat.lt_succ_self _).trans_eq (congrArg Nat.succ hmutations.symm))

theorem Rewrite.counted (h : t.Rewrite id t') (ht : t.Whole) (ha : t.EveryElement Markup.Element.Agrees) : Counted t t' := by
  have hid := h.isElement
  cases h with
  | setAttr h => exact counted_setAttr h
  | removeAttr h => exact counted_removeAttr h
  | setFlag h => exact counted_setFlag ha h
  | setValue h => exact counted_setValue ht.wellFormed h
  | setTextContent h =>
    obtain ⟨content, rfl⟩ := refill_of_setTextContent h
    exact counted_refill ht hid content
  | replaceInner _ h =>
    obtain rfl := refill_of_replaceInner h
    exact counted_refill ht hid _

theorem Relist.counted (h : t.Relist up t') (ht : t.Whole) : Counted t t' := by
  obtain ⟨b, hr⟩ := ht
  cases h with
  | @insert template anchor c first second t₁ t₂ t₃ t' hp helement hcopy h₁ h₂ h =>
    obtain ⟨_, -, -, -, -, -, -, -, hmutations⟩ := copy_spec hr hcopy
    have hready := ((counted_removeAttr h₁).trans (counted_removeAttr h₂)).mutations_le
    refine .of_lt (lt_of_le_of_lt (hmutations ▸ hready) ?_)
    unfold insertAfter at h
    split at h
    · cases h
    · split_ifs at h
      cases h
      refine Nat.lt_succ_of_le ?_
      show t₃.mutations ≤ (t₃.unlink c).mutations
      unfold unlink
      split <;> rfl
  | remove hp h =>
    obtain ⟨_, _, _, _, -, -, hmutations⟩ := remove_spec hr hp h
    exact .of_lt (hmutations ▸ Nat.lt_succ_self _)

end Tree

end ViewBinding
