import ViewBinding.Proofs.Tree.Layout
import ViewBinding.Proofs.Tree.Order
import ViewBinding.Proofs.Tree.Stable

/-! What a write on an element can change. An element shows attributes, a value and what is in it. A write names those of
them that it changes, and all others are as they were, on that element and elsewhere. So what has been written stays as long
as nobody writes the same. -/
namespace ViewBinding

open Markup (Flag)

/-- One of the things that an element shows. With an attribute goes the state that is tied to it. -/
inductive Facet where
  | attr (name : String)
  | value
  | content
  deriving Repr, DecidableEq

namespace Facet

/-- What an element shows by itself. What is in it is not part of it. -/
def of : Facet → Markup.Element → Option String × Option Bool
  | .attr name, e => (e.attrs.get? name, (Flag.ofAttribute? name).map e.flag)
  | .value, e => (some e.value, none)
  | .content, _ => (none, none)

/-- What goes along with a value: a select marks the options in it. -/
def ofValue (select : Bool) : List Facet := if select then [.value, .content] else [.value]

/-- What goes along with an attribute: one of them starts the value of a control. -/
def ofAttr (select : Bool) (name : String) : List Facet :=
  if name = "value" then .attr name :: ofValue select else [.attr name]

variable {f : Facet} {e e' : Markup.Element} {name : String} {select : Bool}

theorem value_mem_ofValue (select : Bool) : .value ∈ ofValue select := by
  unfold ofValue
  split <;> simp

theorem attr_mem_ofAttr (select : Bool) (name : String) : .attr name ∈ ofAttr select name := by
  unfold ofAttr
  split_ifs <;> simp

/-- Who writes the value of a select writes its options. -/
theorem content_mem_ofAttr (h : .value ∈ ofAttr true name) : .content ∈ ofAttr true name := by
  unfold ofAttr at h ⊢
  split_ifs at h ⊢ <;> simp_all [ofValue]

theorem value_setFlag (e : Markup.Element) (on : Bool) (flag : Flag) : (e.setFlag on flag).value = e.value := by
  cases flag <;> rfl

theorem of_with_value (hf : f ≠ .value) (value : String) : f.of { e with value := value } = f.of e := by
  cases f with
  | attr n => exact Prod.ext rfl (congrArg (Option.map · _) (funext (Markup.flag_with_value e value)))
  | value => exact absurd rfl hf
  | content => rfl

/-- Writing an attribute changes what it stands for, and nothing else. -/
theorem of_eq_of_write (hf : f ∉ ofAttr select name) (hattrs : ∀ n, n ≠ name → e'.attrs.get? n = e.attrs.get? n)
    (hflags : ∀ flag : Flag, flag.attribute ≠ name → e'.flag flag = e.flag flag)
    (hvalue : name ≠ "value" → e'.value = e.value) : f.of e' = f.of e := by
  cases f with
  | attr n =>
    have hn : n ≠ name := by
      rintro rfl
      exact hf (attr_mem_ofAttr select n)
    refine Prod.ext (hattrs n hn) (Option.map_congr fun flag hflag => hflags flag ?_)
    rwa [Markup.Flag.attribute_of_ofAttribute? hflag]
  | value =>
    have hname : name ≠ "value" := by
      rintro rfl
      exact hf (by simp [ofAttr, value_mem_ofValue])
    exact Prod.ext (congrArg some (hvalue hname)) rfl
  | content => rfl

theorem of_setAttr (hf : f ∉ ofAttr select name) (value : String) : f.of (e.setAttr name value) = f.of e :=
  of_eq_of_write hf (fun n hn => by rw [Tree.attrs_setAttr, Markup.Attributes.get?_insert_of_ne _ hn])
    (fun flag hflag => (Markup.flag_setAttr e name value flag).trans (if_neg hflag)) fun hname => by
      simp only [Markup.Element.setAttr, if_neg hname]
      split <;> simp [value_setFlag]

theorem of_removeAttr (hf : f ∉ ofAttr select name) : f.of (e.removeAttr name) = f.of e :=
  of_eq_of_write hf (fun n hn => by rw [Tree.attrs_removeAttr, Markup.Attributes.get?_erase_of_ne _ hn])
    (fun flag hflag => (Markup.flag_removeAttr e name flag).trans (if_neg hflag)) fun hname => by
      simp only [Markup.Element.removeAttr, if_neg hname]
      split <;> simp [value_setFlag]

theorem of_reflected {flag : Flag} (hf : f ∉ ofAttr select flag.attribute) (on : Bool) : f.of (Tree.reflected e flag on) = f.of e := by
  refine of_eq_of_write hf (fun n hn => ?_) (fun other hother => ?_) fun _ => ?_
  · simp only [Tree.reflected]
    split_ifs <;> simp [Tree.attrs_setFlag, Markup.Attributes.get?_insert_of_ne _ hn, Markup.Attributes.get?_erase_of_ne _ hn]
  · have hset : (e.setFlag on flag).flag other = e.flag other := by
      rw [Markup.flag_setFlag, if_neg fun he => hother (congrArg Flag.attribute he)]
    simp only [Tree.reflected]
    split_ifs <;> simpa only [Markup.flag_with_attrs] using hset
  · simp only [Tree.reflected]
    split_ifs <;> simp [value_setFlag]

end Facet

/-- What a write on an element of a tree changes. -/
def Write.facets (t : Tree) (id : NodeId) : Write → List Facet
  | .setAttr name _ | .removeAttr name => Facet.ofAttr (t.hasTag id "select") (Text.asciiLower name)
  | .setFlag flag _ => Facet.ofAttr (t.hasTag id "select") flag.attribute
  | .setValue _ => Facet.ofValue (t.hasTag id "select")
  | .setText _ | .setMarkup _ => [.content]

namespace Tree

variable {t t' : Tree} {id x : NodeId} {f : Facet}

/-! What is in an element. -/

/-- Whether everything below a node is the same in two trees. -/
def SameBelow (t t' : Tree) (x : NodeId) : Prop :=
  t'.children x = t.children x ∧ ∀ y, t.Inside y x → y ≠ x → t'.get? y = t.get? y

/-- A node has the same in it as long as all of that is the same. -/
theorem congr_of_inside (ht : t.WellFormed) (ht' : t'.WellFormed) (hx : t.InUse x) (hx' : t'.InUse x)
    (h : ∀ y, t.Inside y x → t'.get? y = t.get? y) : t'.content x = t.content x ∧ t'.preorder x = t.preorder x := by
  have hw := ht
  obtain ⟨forest, hr⟩ := ht
  obtain ⟨forest', hr'⟩ := ht'
  obtain ⟨b, hb, rfl⟩ := hr.exists_part hx
  obtain ⟨b', hb', he⟩ := hr'.exists_part hx'
  obtain ⟨p, hp⟩ := hr.part hb
  obtain ⟨p', hp'⟩ := hr'.part hb'
  have hheld : t'.Holds p b := hp.congr fun y hy => h y ((hw.mem_preorder_iff_inside hx).1 (hr.preorder hb ▸ hy))
  obtain rfl := hp'.unique hheld he
  exact ⟨(hr'.content hb').trans (hr.content hb).symm, (hr'.preorder hb').trans (hr.preorder hb).symm⟩

namespace SameBelow

variable (h : SameBelow t t' x) (ht : t.WellFormed) (ht' : t'.WellFormed)

include h ht ht'

theorem child {c : NodeId} (hc : c ∈ t.children x) : t'.content c = t.content c ∧ t'.preorder c = t.preorder c := by
  have hup := ht.mem_children_iff.1 hc
  have hup' := ht'.mem_children_iff.1 (h.1 ▸ hc)
  refine congr_of_inside ht ht' (ht.inUse_of_parent? hup) (ht'.inUse_of_parent? hup') fun y hy => ?_
  refine h.2 y (hy.trans (.parent hup)) ?_
  rintro rfl
  exact ht.not_inside_of_parent? hup hy

theorem inner : t'.inner x = t.inner x := by
  rw [Tree.inner, h.1, Tree.inner]
  exact List.flatMap_congr fun c hc => (h.child ht ht' hc).1

theorem options (hx : t.InUse x) : t'.options x = t.options x := by
  have hpre : (t'.children x).flatMap t'.preorder = (t.children x).flatMap t.preorder := by
    rw [h.1]
    exact List.flatMap_congr fun c hc => (h.child ht ht' hc).2
  have hsame : ∀ y ∈ (t.children x).flatMap t.preorder, t'.element? y = t.element? y := fun y hy => by
    have hmem : y ∈ t.preorder x := ht.preorder_eq_cons hx ▸ List.mem_cons_of_mem x hy
    have hnodup := ht.preorder_eq_cons hx ▸ ht.nodup_preorder hx
    refine element?_eq_of_get?_eq (h.2 y ((ht.mem_preorder_iff_inside hx).1 hmem) ?_)
    rintro rfl
    exact (List.nodup_cons.1 hnodup).1 hy
  unfold Tree.options elementsBelow
  rw [hpre, List.filter_filter, List.filter_filter]
  exact List.filter_congr fun y hy => by rw [hasTag, isElement, hsame y hy, hasTag, isElement]

omit ht' in
theorem get?_of_option {option y : NodeId} (hx : t.InUse x) (hoption : option ∈ t.options x) (hy : t.Inside y option) :
    t'.get? y = t.get? y := by
  have hin := ht.below_of_mem_options hx hoption
  refine h.2 y (hy.trans hin.1) ?_
  rintro rfl
  exact hin.2 (ht.inside_antisymm hin.1 hy)

theorem chosen? (hx : t.InUse x) (value : String) : t'.chosen? x value = t.chosen? x value := by
  rw [Tree.chosen?, Tree.chosen?, h.options ht ht' hx]
  refine List.find?_congr fun option hoption => ?_
  have hget := fun y => h.get?_of_option (y := y) ht hx hoption
  have hself := element?_eq_of_get?_eq (hget option (.refl t option))
  have helement : t.isElement option = true := (List.mem_filter.1 (List.mem_filter.1 hoption).1).2
  have helement' : t'.isElement option = true := by rwa [isElement, hself]
  have hcontent := congr_of_inside ht ht' (ht.inUse_of_isElement helement) (ht'.inUse_of_isElement helement') hget
  rw [optionValue, attr?, hself, textContent, hcontent.1, optionValue, attr?, textContent]

end SameBelow

/-- Whether a facet of an element is the same in two trees. -/
def SameFacet (t t' : Tree) (x : NodeId) (f : Facet) : Prop :=
  (t'.element? x).map f.of = (t.element? x).map f.of ∧ (f = .content → SameBelow t t' x)

theorem SameFacet.attr? {name : String} (h : t.SameFacet t' x (.attr (Text.asciiLower name))) :
    t'.attr? x name = t.attr? x name := by
  have hof : ∀ t : Tree, t.attr? x name = ((t.element? x).map (Facet.attr (Text.asciiLower name)).of).bind (·.1) := fun t => by
    rw [Tree.attr?, Option.bind_map]
    rfl
  rw [hof, h.1, ← hof]

/-! Writes on the attributes and the live state of an element. -/

theorem map_element?_setElement {α : Type} {e e' : Markup.Element} {g : Markup.Element → α} (he : t.element? id = some e)
    (h : x = id → g e' = g e) : ((t.setElement id e').element? x).map g = (t.element? x).map g := by
  by_cases hx : x = id
  · subst hx
    rw [element?_setElement_self, if_pos (isLive_of_element? he), he, Option.map_some, Option.map_some, h rfl]
  · rw [element?_setElement_of_ne t hx]

/-- Only the value of a select follows an option. -/
theorem map_of_syncOption (name : String) (hf : f = .value → t.ancestorWithTag? id "select" ≠ some x) :
    ((t.syncOption id name).element? x).map f.of = (t.element? x).map f.of := by
  by_cases hvalue : f = .value
  · rw [element?_eq_of_get?_eq (get?_syncOption t name (hf hvalue))]
  · exact map_element?_syncOption t id name x fun _ => Facet.of_with_value hvalue

theorem map_of_synced (ht : t.WellFormed) {e e' : Markup.Element} (he : t.element? id = some e) (htag : e'.tag = e.tag)
    (name : String) (hid : x = id → f.of e' = f.of e) (hf : f = .value → t.ancestorWithTag? id "select" ≠ some x) :
    ((((t.setElement id e').touch).syncOption id name).element? x).map f.of = (t.element? x).map f.of := by
  have hw := (writes_setElement (w := fun _ _ => True) ht he htag fun _ h => absurd trivial h).touch
  refine (map_of_syncOption name fun hvalue hselect => ?_).trans (map_element?_setElement he hid)
  rw [hw.ancestorWithTag?] at hselect
  exact hf hvalue hselect

theorem map_of_setAttr (ht : t.WellFormed) {name value : String} {select : Bool} (h : t.setAttr id name value = .ok t')
    (hid : x = id → f ∉ Facet.ofAttr select (Text.asciiLower name))
    (hf : f = .value → t.ancestorWithTag? id "select" ≠ some x) : (t'.element? x).map f.of = (t.element? x).map f.of := by
  simp only [setAttr, Except.bind, bind] at h
  split at h
  · cases h
  next e he =>
    split at h
    · cases h
      rfl
    · cases h
      exact map_of_synced ht (element?_of_element he) (tag_setAttr ..) _ (fun hx => Facet.of_setAttr (hid hx) value) hf

theorem map_of_removeAttr (ht : t.WellFormed) {name : String} {select : Bool} (h : t.removeAttr id name = .ok t')
    (hid : x = id → f ∉ Facet.ofAttr select (Text.asciiLower name))
    (hf : f = .value → t.ancestorWithTag? id "select" ≠ some x) : (t'.element? x).map f.of = (t.element? x).map f.of := by
  simp only [removeAttr, Except.bind, bind] at h
  split at h
  · cases h
  next e he =>
    split at h
    · cases h
      rfl
    · cases h
      exact map_of_synced ht (element?_of_element he) (tag_removeAttr ..) _ (fun hx => Facet.of_removeAttr (hid hx)) hf

theorem map_of_setFlag {flag : Flag} {on select : Bool} (h : t.setFlag id flag on = .ok t')
    (hid : x = id → f ∉ Facet.ofAttr select flag.attribute) : (t'.element? x).map f.of = (t.element? x).map f.of := by
  simp only [setFlag, Except.bind, bind] at h
  split at h
  · cases h
  next e he =>
    have hset := map_element?_setElement (element?_of_element he) fun hx => Facet.of_reflected (e := e) (hid hx) on
    cases h
    split <;> exact hset

theorem map_of_writeValue {value op : String} (h : t.writeValue id value op = .ok t') (hid : x = id → f ≠ .value) :
    (t'.element? x).map f.of = (t.element? x).map f.of := by
  simp only [writeValue, Except.bind, bind] at h
  split at h
  · cases h
  next e he =>
    split at h
    · cases h
      rfl
    · cases h
      exact map_element?_setElement (element?_of_element he) fun hx => Facet.of_with_value (hid hx) value

/-- A value is written on its element, and on the options in it. -/
theorem map_of_setValue (ht : t.WellFormed) {value : String} (h : t.setValue id value = .ok t') (hid : x = id → f ≠ .value)
    (hout : t.hasTag id "select" = true → t.Outside id x) : (t'.element? x).map f.of = (t.element? x).map f.of := by
  unfold setValue at h
  split at h
  · next hselect =>
    have hused := ht.inUse_of_isElement (isElement_of_hasTag hselect)
    have hnot : x ∉ t.options id := fun hmem => (hout hselect).2 (ht.below_of_mem_options hused hmem)
    refine (map_of_writeValue h hid).trans ?_
    rw [element?_eq_of_get?_eq (get?_foldl_select _ hnot)]
  · exact map_of_writeValue h hid

end Tree

namespace Write

open ViewBinding.Tree
open Markup (Flag)

variable {w : Write} {t t' : Tree} {id x : NodeId} {f : Facet}

theorem facets_congr (h : t'.hasTag id "select" = t.hasTag id "select") (w : Write) : w.facets t' id = w.facets t id := by
  cases w <;> simp only [facets, h]

/-- Who writes the value of a select writes its options. -/
theorem content_mem_facets (hselect : t.hasTag id "select" = true) (h : .value ∈ w.facets t id) : .content ∈ w.facets t id := by
  cases w <;> simp only [facets, hselect] at h ⊢
  · exact Facet.content_mem_ofAttr h
  · exact Facet.content_mem_ofAttr h
  · exact Facet.content_mem_ofAttr h
  · simp [Facet.ofValue]
  · simp at h
  · simp at h

/-- Whether a write replaces what is in an element. -/
def refills : Write → Bool
  | .setText _ | .setMarkup _ => true
  | _ => false

theorem content_mem_of_refills (h : w.refills = true) : .content ∈ w.facets t id := by
  cases w <;> simp_all [refills, facets]

/-- The elements that are new after a write. -/
def brings : Write → List Markup.Element
  | .setMarkup markup =>
    match Markup.parse markup with
    | .ok content => (Markup.elementsOf content).map (·.1)
    | .error _ => []
  | _ => []

/-- A write that replaces no content writes the attributes that it names, and may mark options as selected. -/
theorem writes (ht : t.WellFormed) (h : w.apply t id = .ok t') (hw : w.refills = false) :
    Writes t t' fun x n => x = id ∨ n = "selected" := by
  cases w with
  | setAttr name value => exact (writes_setAttr ht h).mono fun _ _ hx => .inl hx.1
  | removeAttr name => exact (writes_removeAttr ht h).mono fun _ _ hx => .inl hx.1
  | setFlag flag on => exact (writes_setFlag ht h).mono fun _ _ hx => .inl hx.1
  | setValue value => exact (writes_setValue ht h).mono fun _ _ => .inr
  | setText text => cases hw
  | setMarkup markup => cases hw

/-- A write that replaces content refills the element, unless that reads the same already. -/
theorem eq_or_refill (h : w.apply t id = .ok t') (hw : w.refills = true) :
    t' = t ∨ t.isElement id = true ∧ ∃ content, t' = ((t.clear id).fill id content).touch ∧
      ∀ y ∈ Markup.elementsOf content, y.1 ∈ w.brings := by
  have htext : ∀ {text : String}, t.setTextContent id text = .ok t' → t.isElement id = true ∧
      ∃ content, t' = ((t.clear id).fill id content).touch ∧ ∀ y ∈ Markup.elementsOf content, y.1 ∈ w.brings := fun h => by
    refine ⟨isElement_of_bind h, ?_⟩
    simp only [setTextContent, Except.bind, bind] at h
    split at h
    · cases h
    · cases h
      refine ⟨_, rfl, fun y hy => ?_⟩
      split at hy <;> cases hy
  cases w with
  | setAttr _ _ | removeAttr _ | setFlag _ _ | setValue _ => cases hw
  | setText text =>
    simp only [apply] at h
    split_ifs at h
    · exact .inl (Except.ok.inj h).symm
    · exact .inr (htext h)
  | setMarkup markup =>
    simp only [apply, setInnerMarkup] at h
    split at h
    · split_ifs at h
      · exact .inl (Except.ok.inj h).symm
      · exact .inr (htext h)
    · next content hparse =>
      simp only [Except.bind, bind] at h
      split at h
      · cases h
      · split_ifs at h
        · exact .inl (Except.ok.inj h).symm
        · refine .inr ⟨isElement_of_bind h, content, Rewrite.refill_of_replaceInner h, fun y hy => ?_⟩
          simp only [brings, hparse]
          exact List.mem_map_of_mem hy

theorem edited (ht : t.Whole) (h : w.apply t id = .ok t') :
    ∃ gone, Edited t t' id gone ∧ (w.refills = false → gone = []) := by
  cases hw : w.refills with
  | false => exact ⟨[], (writes ht.wellFormed h hw).edited ht id, fun _ => rfl⟩
  | true =>
    rcases eq_or_refill h hw with rfl | ⟨hid, content, rfl, -⟩
    · exact ⟨[], (Writes.refl t' fun _ _ => True).edited ht id, fun _ => rfl⟩
    · exact ⟨_, (Edit.refill hid content).edited ht, fun hn => by cases hn⟩

theorem everyElement {P : Markup.Element → Prop} (hP : Markup.Lasting P) (ht : t.Whole) (he : t.EveryElement P)
    (h : w.apply t id = .ok t') : t'.EveryElement P := by
  rcases Rewrite.of_apply h with rfl | hrewrite
  · exact he
  · exact he.rewrite hP ht hrewrite

/-- A node stays unless it lies in an element whose content is replaced. -/
theorem stays (ht : t.Whole) (h : w.apply t id = .ok t') (hx : t.InUse x) (hout : w.refills = true → t.Outside id x) :
    t'.InUse x ∧ t'.parent? x = t.parent? x ∧ (t'.element? x).map (·.tag) = (t.element? x).map (·.tag) := by
  obtain ⟨gone, hedited, hgone⟩ := edited ht h
  refine hedited.stays x hx fun hmem => ?_
  cases hw : w.refills with
  | true => exact (hout hw).2 (hedited.taken x hmem).2
  | false =>
    rw [hgone hw] at hmem
    cases hmem

/-- What is new after a write has been brought by it. -/
theorem mem_brings (ht : t.Whole) (h : w.apply t id = .ok t') (hx : ¬ t.InUse x) {e : Markup.Element}
    (he : t'.element? x = some e) : e ∈ w.brings := by
  cases hw : w.refills with
  | false =>
    have hwrites := writes ht.wellFormed h hw
    exact absurd ((hwrites.inUse x).1 ((hwrites.wellFormed ht.wellFormed).inUse_of_element? he)) hx
  | true =>
    rcases eq_or_refill h hw with rfl | ⟨hid, content, rfl, hbrings⟩
    · exact absurd (ht.wellFormed.inUse_of_element? he) hx
    · obtain ⟨y, hy, rfl⟩ := exists_of_element?_refill ht hid hx he
      exact hbrings y hy

/-- Nobody else has other attributes after a write, apart from options that are selected. -/
theorem attr?_of_ne (ht : t.Whole) (h : w.apply t id = .ok t') (hx : t.InUse x) (hx' : t'.InUse x) (hne : x ≠ id)
    {name : String} (hname : Text.asciiLower name ≠ "selected") : t'.attr? x name = t.attr? x name := by
  cases hw : w.refills with
  | false => exact (writes ht.wellFormed h hw).attr? (by simp [hne, hname])
  | true =>
    rcases eq_or_refill h hw with rfl | ⟨hid, content, rfl, -⟩
    · rfl
    · rw [attr?, (kept_of_refill ht hid content hx hx').2, attr?]

/-- A write leaves all other nodes alone, apart from selects that follow their options. -/
theorem get?_eq (ht : t.Whole) (h : w.apply t id = .ok t') (hx : t.InUse x) (hne : x ≠ id)
    (hselect : t.ancestorWithTag? id "select" ≠ some x) (hout : .content ∈ w.facets t id → t.Outside id x) :
    t'.get? x = t.get? x := by
  cases hw : w.refills with
  | true =>
    have hx' := (stays ht h hx fun _ => hout (content_mem_of_refills hw)).1
    rcases eq_or_refill h hw with rfl | ⟨hid, content, rfl, -⟩
    · rfl
    · exact (kept_of_refill ht hid content hx hx').1 hne
  | false =>
    cases w with
    | setAttr name value => exact (kept_of_setAttr ht.wellFormed h hne).1 hselect
    | removeAttr name => exact (kept_of_removeAttr ht.wellFormed h hne).1 hselect
    | setFlag flag on => exact get?_setFlag h hne
    | setValue value =>
      by_cases htag : t.hasTag id "select" = true
      · exact get?_setValue ht.wellFormed h (hout (by simp [facets, htag, Facet.ofValue])) hne
      · simp only [apply, Tree.setValue, if_neg htag] at h
        exact get?_writeValue h hne
    | setText text => cases hw
    | setMarkup markup => cases hw

/-- An element shows the same by itself after a write on another one, or one that names other facets. -/
theorem map_of_eq (ht : t.Whole) (h : w.apply t id = .ok t') (hx : t.InUse x) (hid : x = id → f ∉ w.facets t id)
    (hselect : f = .value → t.ancestorWithTag? id "select" ≠ some x) (hout : .content ∈ w.facets t id → t.Outside id x) :
    (t'.element? x).map f.of = (t.element? x).map f.of := by
  cases hw : w.refills with
  | true =>
    have hx' := (stays ht h hx fun _ => hout (content_mem_of_refills hw)).1
    rcases eq_or_refill h hw with rfl | ⟨hid, content, rfl, -⟩
    · rfl
    · rw [(kept_of_refill ht hid content hx hx').2]
  | false =>
    cases w with
    | setAttr name value => exact map_of_setAttr ht.wellFormed h hid hselect
    | removeAttr name => exact map_of_removeAttr ht.wellFormed h hid hselect
    | setFlag flag on => exact map_of_setFlag h hid
    | setValue value =>
      refine map_of_setValue ht.wellFormed h (fun he hf => hid he (hf ▸ Facet.value_mem_ofValue _)) fun htag => hout ?_
      simp [facets, htag, Facet.ofValue]
    | setText text => cases hw
    | setMarkup markup => cases hw

/--
A write leaves a facet of an element as it is, if it is on another element or names other facets, replaces no content in which
the element lies, and is not made in what the facet shows.
-/
theorem sameFacet (ht : t.Whole) (h : w.apply t id = .ok t') (hx : t.InUse x) (hid : x = id → f ∉ w.facets t id)
    (hout : .content ∈ w.facets t id → t.Outside id x)
    (hin : f = .content ∨ f = .value ∧ t.hasTag x "select" = true → t.Inside id x → id = x) : t.SameFacet t' x f := by
  have hw := ht.wellFormed
  have habove : ∀ y, t.ancestorWithTag? id "select" = some y → t.Inside id y ∧ id ≠ y ∧ t.hasTag y "select" = true := fun y hy => by
    obtain ⟨hinside, htag⟩ := inside_of_ancestorWithTag? hy
    refine ⟨hinside, ?_, htag⟩
    rintro rfl
    have hused : t.InUse id := by
      rcases Rewrite.of_apply h with rfl | hrewrite
      · exact hw.inUse_of_isElement (isElement_of_hasTag htag)
      · exact hw.inUse_of_isElement hrewrite.isElement
    exact ((WellFormed.mem_ancestors_iff hw hused).1 (List.mem_of_find?_eq_some hy)).2 rfl
  refine ⟨map_of_eq ht h hx hid (fun hf hy => ?_) hout, ?_⟩
  · obtain ⟨hinside, hne, htag⟩ := habove x hy
    exact hne (hin (.inr ⟨hf, htag⟩) hinside)
  rintro rfl
  replace hin := hin (.inl rfl)
  have hbelow : ∀ y, t.Inside y x → y ≠ x → t'.get? y = t.get? y := fun y hy hne => by
    have hyid : y ≠ id := by
      rintro rfl
      exact hne (hin hy)
    have hused : t.InUse y := by
      rcases hy.eq_or_up with rfl | ⟨up, hup, -⟩
      · exact hx
      · exact hw.inUse_of_parent? hup
    refine get?_eq ht h hused hyid (fun hselect => ?_) fun hcontent => ⟨hused, fun hyid' => ?_⟩
    · have hidx := hin ((habove y hselect).1.trans hy)
      exact hne (hw.inside_antisymm hy (hidx ▸ (habove y hselect).1))
    · have hxid : x ≠ id := fun he => hid he hcontent
      rcases hy.total hyid'.1 with hxin | hidin
      · exact (hout hcontent).2 ⟨hxin, hxid⟩
      · exact hxid (hin hidin).symm
  refine ⟨?_, hbelow⟩
  by_cases he : x = id
  · have hrefills : w.refills = false := Bool.eq_false_iff.2 fun hr => hid he (content_mem_of_refills hr)
    exact (writes hw h hrefills).children x
  · have hsame : t'.get? x = t.get? x :=
      get?_eq ht h hx he (fun hy => (habove x hy).2.1 (hin (habove x hy).1)) hout
    rw [children, hsame, children]

/-! What has been written. -/

/-- Whatever has been written can be written again, and this changes nothing. -/
theorem again (ht : t.Whole) (ha : t.EveryElement Markup.Element.Agrees) (h : w.apply t id = .ok t') :
    w.apply t' id = .ok t' := by
  have hw := ht.wellFormed
  cases w with
  | setAttr name value => exact setAttr_of_attr? (attr?_setAttr_self hw h)
  | removeAttr name =>
    have hid := ((writes_removeAttr hw h).isElement id).trans (isElement_of_bind h)
    exact removeAttr_of_attr? hid (attr?_removeAttr_self hw h)
  | setFlag flag on => exact (setFlag_again ha h).1
  | setValue value => exact setValue_again hw h
  | setText text =>
    refine if_pos ?_
    simp only [apply] at h
    split_ifs at h with hsame
    · cases h
      exact hsame
    · exact textContent_setTextContent hw h
  | setMarkup markup => exact (setInnerMarkup_again ht h).1

/-- A value that is there is there as long as the element, and what is in it if it is a select, shows the same. -/
theorem setValue_of_sameFacet (ht : t.WellFormed) (ht' : t'.WellFormed) {value : String} (hid : t'.isElement id = true)
    (htag : t'.hasTag id "select" = t.hasTag id "select") (h : t.setValue id value = .ok t)
    (hsame : ∀ f ∈ Facet.ofValue (t.hasTag id "select"), t.SameFacet t' id f) : t'.setValue id value = .ok t' := by
  obtain ⟨e', he'⟩ := Option.isSome_iff_exists.1 hid
  have hshown : ∀ e, t.element? id = some e → e.value = e'.value := fun e he => by
    have hmap := (hsame .value (Facet.value_mem_ofValue _)).1
    rw [he, he'] at hmap
    exact Option.some.inj (congrArg Prod.fst (Option.some.inj hmap)).symm
  rw [Tree.setValue, htag]
  by_cases hselect : t.hasTag id "select" = true
  · rw [Tree.setValue, if_pos hselect] at h
    rw [if_pos hselect]
    have hused := ht.inUse_of_isElement (isElement_of_hasTag hselect)
    have hbelow := (hsame .content (by simp [hselect, Facet.ofValue])).2 rfl
    have hchosen := hbelow.chosen? ht ht' hused value
    obtain ⟨e, he, hvalue⟩ := element?_writeValue h
    refine setSelectValue_of_marked he' ?_ fun option hoption => ?_
    · rw [hchosen, ← hshown e he, hvalue]
      rfl
    · rw [hbelow.options ht ht' hused] at hoption
      rw [hchosen]
      exact (isMarked_setSelectValue ht hselect h hoption).of_get?_eq (hbelow.get?_of_option ht hused hoption (.refl t option))
  · rw [Tree.setValue, if_neg hselect] at h
    rw [if_neg hselect]
    obtain ⟨e, he, hvalue⟩ := element?_writeValue h
    rw [← hvalue, hshown e he]
    exact writeValue_of_value he' "value"

/-- What has been written is there as long as everything that the write changes is the same. -/
theorem apply_of_sameFacet (ht : t.Whole) (ht' : t'.WellFormed) (ha : t'.EveryElement Markup.Element.Agrees)
    (hid : t'.isElement id = true) (htag : t'.hasTag id "select" = t.hasTag id "select") (h : w.apply t id = .ok t)
    (hsame : ∀ f ∈ w.facets t id, t.SameFacet t' id f) : w.apply t' id = .ok t' := by
  have hw := ht.wellFormed
  obtain ⟨e', he'⟩ := Option.isSome_iff_exists.1 hid
  have hinner : .content ∈ w.facets t id → t'.inner id = t.inner id ∧ t.isElement id = true := fun hcontent => by
    have hmap := congrArg Option.isSome (hsame .content hcontent).1
    rw [Option.isSome_map, Option.isSome_map] at hmap
    exact ⟨((hsame .content hcontent).2 rfl).inner hw ht', hmap.symm.trans hid⟩
  cases w with
  | setAttr name value =>
    have hattr := (hsame _ (Facet.attr_mem_ofAttr _ _)).attr?
    exact setAttr_of_attr? (hattr.trans (attr?_setAttr_self hw h))
  | removeAttr name =>
    have hattr := (hsame _ (Facet.attr_mem_ofAttr _ _)).attr?
    exact removeAttr_of_attr? hid (hattr.trans (attr?_removeAttr_self hw h))
  | setFlag flag on =>
    obtain ⟨e, he, hset⟩ := element?_setFlag h
    have hmap := (hsame _ (Facet.attr_mem_ofAttr _ _)).1
    rw [he', hset] at hmap
    have hflag := congrArg Prod.snd (Option.some.inj hmap)
    simp only [Facet.of, Flag.ofAttribute?_attribute, Option.map_some, Option.some.injEq] at hflag
    exact setFlag_of_flag he' (ha id e' he') (hflag.trans (flag_reflected e flag on))
  | setValue value => exact setValue_of_sameFacet hw ht' hid htag h hsame
  | setText text =>
    obtain ⟨hinner, hid₀⟩ := hinner (by simp [facets])
    have hshown : t.textContent id = text := by
      simp only [apply] at h
      split_ifs at h with hread
      · exact hread
      · exact textContent_setTextContent hw h
    refine if_pos ?_
    rw [textContent_eq_textOf_inner ht' hid, hinner, ← textContent_eq_textOf_inner hw hid₀, hshown]
  | setMarkup markup =>
    obtain ⟨hinner, hid₀⟩ := hinner (by simp [facets])
    have hshown := (setInnerMarkup_again ht h).2
    refine setInnerMarkup_of_shown ?_
    split at hshown
    · rwa [innerHtml_eq_ok hid, hinner, ← innerHtml_eq_ok hid₀]
    · rwa [textContent_eq_textOf_inner ht' hid, hinner, ← textContent_eq_textOf_inner hw hid₀]

end Write

end ViewBinding
