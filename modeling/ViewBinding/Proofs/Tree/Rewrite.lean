import ViewBinding.Proofs.Tree.Amend
import ViewBinding.Property

/-! The operations that change a tree, each with the node at which it works. A node that does not lie in that node stays as
it is; only a select above an option that is written follows its options. -/
namespace ViewBinding

open Markup (Flag)

/-- Something to be written on an element. -/
inductive Write where
  | setAttr (name value : String)
  | removeAttr (name : String)
  | setFlag (flag : Flag) (on : Bool)
  | setValue (value : String)
  | setText (text : String)
  | setMarkup (markup : String)
  deriving Repr, DecidableEq

def Write.apply (t : Tree) (id : NodeId) : Write → Except Tree.Error Tree
  | .setAttr name value => t.setAttr id name value
  | .removeAttr name => t.removeAttr id name
  | .setFlag flag on => t.setFlag id flag on
  | .setValue value => t.setValue id value
  | .setText text => if t.textContent id = text then .ok t else t.setTextContent id text
  | .setMarkup markup => t.setInnerMarkup id markup

/-- What is written for the value of a property. -/
def Property.toWrite (p : Property) (h : Heap) (v : Value) : Write :=
  match p with
  | .checked => .setFlag .checked v.truthy
  | .disabled => .setFlag .disabled v.truthy
  | .readOnly => .setFlag .readonly v.truthy
  | .required => .setFlag .required v.truthy
  | .value => .setValue (h.display v)
  | .hidden => if v.truthy then .setAttr "hidden" "" else .removeAttr "hidden"
  | .textContent => .setText (h.display v)
  | .innerHtml => .setMarkup (h.display v)
  | .className => .setAttr "class" (h.display v)
  | .id => .setAttr "id" (h.display v)

theorem Property.write_eq_apply (p : Property) (h : Heap) (t : Tree) (id : NodeId) (v : Value) :
    p.write h t id v = (p.toWrite h v).apply t id := by
  cases p with
  | hidden =>
    simp only [write, toWrite]
    split <;> rfl
  | _ => rfl

namespace Tree

open Branch

variable {t t' : Tree} {id up x s : NodeId}

/-- An element is written, or what is in it is replaced. -/
inductive Rewrite (t : Tree) (id : NodeId) : Tree → Prop
  | setAttr {name value : String} {t' : Tree} (h : t.setAttr id name value = .ok t') : Rewrite t id t'
  | removeAttr {name : String} {t' : Tree} (h : t.removeAttr id name = .ok t') : Rewrite t id t'
  | setFlag {flag : Flag} {on : Bool} {t' : Tree} (h : t.setFlag id flag on = .ok t') : Rewrite t id t'
  | setValue {value : String} {t' : Tree} (h : t.setValue id value = .ok t') : Rewrite t id t'
  | setTextContent {text : String} {t' : Tree} (h : t.setTextContent id text = .ok t') : Rewrite t id t'
  | replaceInner {markup : String} {content : List Markup} {t' : Tree} (hparse : Markup.parse markup = .ok content)
    (h : t.replaceInner id content = .ok t') : Rewrite t id t'

/-- A child of a node comes or goes. What comes is a copy without two of its attributes. -/
inductive Relist (t : Tree) (up : NodeId) : Tree → Prop
  | insert {template anchor c : NodeId} {first second : String} {t₁ t₂ t₃ t' : Tree} (hp : t.parent? anchor = some up)
    (helement : t.isElement template = true) (hcopy : t.copy template = .ok (c, t₁)) (h₁ : t₁.removeAttr c first = .ok t₂)
    (h₂ : t₂.removeAttr c second = .ok t₃) (h : t₃.insertAfter anchor c = .ok t') : Relist t up t'
  | remove {id : NodeId} {t' : Tree} (hp : t.parent? id = some up) (h : t.remove id = .ok t') : Relist t up t'

/-! What is written where. -/

theorem get?_setElement_of_ne (t : Tree) (h : x ≠ id) (e : Markup.Element) : (t.setElement id e).get? x = t.get? x :=
  get?_modify_of_ne t h fun _ => rfl

theorem element?_eq_of_get?_eq (h : t'.get? x = t.get? x) : t'.element? x = t.element? x := by rw [element?, h, element?]

/-- The attributes of a node are read off its element. -/
theorem attr?_eq_of_attrs (h : (t'.element? x).map (·.attrs) = (t.element? x).map (·.attrs)) (name : String) :
    t'.attr? x name = t.attr? x name := by
  have hof : ∀ t : Tree, t.attr? x name = ((t.element? x).map (·.attrs)).bind (·.get? (Text.asciiLower name)) := fun t => by
    rw [attr?, Option.bind_map]
    rfl
  rw [hof, h, ← hof]

theorem Writes.ancestorWithTag? {w : NodeId → String → Prop} (h : Writes t t' w) (id : NodeId) (tag : String) :
    t'.ancestorWithTag? id tag = t.ancestorWithTag? id tag := by
  rw [Tree.ancestorWithTag?, h.ancestors, Tree.ancestorWithTag?]
  simp only [h.tag]

/-- What is found above a node lies above it. -/
theorem inside_of_ancestorWithTag? {tag : String} (h : t.ancestorWithTag? id tag = some s) :
    t.Inside id s ∧ t.hasTag s tag = true := by
  refine ⟨inside_of_mem_ancestors (List.mem_cons_of_mem _ (List.mem_of_find?_eq_some h)), ?_⟩
  have htag := List.find?_some h
  rw [hasTag]
  cases he : t.element? s <;> simp_all

theorem get?_syncOption (t : Tree) (name : String) (hx : t.ancestorWithTag? id "select" ≠ some x) :
    (t.syncOption id name).get? x = t.get? x := by
  unfold syncOption syncSelect
  split
  · split
    · next select hselect =>
      split
      · refine get?_setElement_of_ne t ?_ _
        rintro rfl
        exact hx hselect
      · rfl
    · rfl
  · rfl

/-- A select that follows its options keeps all but its value. -/
theorem map_element?_syncOption {α : Type} (t : Tree) (id : NodeId) (name : String) (x : NodeId) {f : Markup.Element → α}
    (hf : ∀ e value, f { e with value := value } = f e) :
    ((t.syncOption id name).element? x).map f = (t.element? x).map f := by
  unfold syncOption syncSelect
  split
  · split
    · next select _ =>
      split
      · next e he =>
        by_cases hx : x = select
        · rw [hx, element?_setElement_self, isLive_of_element? he, he]
          exact congrArg some (hf e _)
        · rw [element?_setElement_of_ne t hx]
      · rfl
    · rfl
  · rfl

/-- Writing an attribute of an element writes that element, and a select that follows. -/
theorem kept_of_syncOption (ht : t.WellFormed) {e e' : Markup.Element} (he : t.element? id = some e) (htag : e'.tag = e.tag)
    (name : String) (hx : x ≠ id) :
    (t.ancestorWithTag? id "select" ≠ some x → (((t.setElement id e').touch).syncOption id name).get? x = t.get? x) ∧
      ((((t.setElement id e').touch).syncOption id name).element? x).map (·.attrs) = (t.element? x).map (·.attrs) := by
  have hw := (writes_setElement (w := fun _ _ => True) ht he htag fun _ h => absurd trivial h).touch
  have hget : (t.setElement id e').touch.get? x = t.get? x := get?_setElement_of_ne t hx e'
  refine ⟨fun hselect => (get?_syncOption _ name ?_).trans hget, (map_element?_syncOption _ id name x fun _ _ => rfl).trans ?_⟩
  · rwa [hw.ancestorWithTag?]
  · rw [element?_eq_of_get?_eq hget]

theorem kept_of_setAttr (ht : t.WellFormed) {name value : String} (h : t.setAttr id name value = .ok t') (hx : x ≠ id) :
    (t.ancestorWithTag? id "select" ≠ some x → t'.get? x = t.get? x) ∧
      (t'.element? x).map (·.attrs) = (t.element? x).map (·.attrs) := by
  simp only [Tree.setAttr, Except.bind, bind] at h
  split at h
  · cases h
  next e he =>
    split at h
    · cases h
      exact ⟨fun _ => rfl, rfl⟩
    · cases h
      exact kept_of_syncOption ht (element?_of_element he) (tag_setAttr ..) _ hx

theorem kept_of_removeAttr (ht : t.WellFormed) {name : String} (h : t.removeAttr id name = .ok t') (hx : x ≠ id) :
    (t.ancestorWithTag? id "select" ≠ some x → t'.get? x = t.get? x) ∧
      (t'.element? x).map (·.attrs) = (t.element? x).map (·.attrs) := by
  simp only [Tree.removeAttr, Except.bind, bind] at h
  split at h
  · cases h
  next e he =>
    split at h
    · cases h
      exact ⟨fun _ => rfl, rfl⟩
    · cases h
      exact kept_of_syncOption ht (element?_of_element he) (tag_removeAttr ..) _ hx

theorem get?_setFlag {flag : Flag} {on : Bool} (h : t.setFlag id flag on = .ok t') (hx : x ≠ id) : t'.get? x = t.get? x := by
  simp only [Tree.setFlag, Except.bind, bind] at h
  split at h
  · cases h
  · cases h
    split <;> exact get?_setElement_of_ne t hx _

theorem get?_writeValue {value op : String} (h : t.writeValue id value op = .ok t') (hx : x ≠ id) : t'.get? x = t.get? x := by
  simp only [writeValue, Except.bind, bind] at h
  split at h
  · cases h
  · split at h
    · cases h
      rfl
    · cases h
      exact get?_setElement_of_ne t hx _

theorem get?_foldl_select (chosen : Option NodeId) {options : List NodeId} (hx : x ∉ options) :
    (options.foldl (fun t option => t.select chosen option) t).get? x = t.get? x := by
  induction options generalizing t with
  | nil => rfl
  | cons option options ih =>
    rw [List.mem_cons, not_or] at hx
    rw [List.foldl_cons, ih hx.2, select]
    split
    · exact get?_setElement_of_ne t hx.1 _
    · rfl

theorem WellFormed.below_of_mem_options (ht : t.WellFormed) (hid : t.InUse id) (hx : x ∈ t.options id) :
    t.Inside x id ∧ x ≠ id := by
  have hmem : x ∈ (t.children id).flatMap t.preorder := (List.mem_filter.1 (List.mem_filter.1 hx).1).1
  have hpre := ht.preorder_eq_cons hid
  refine ⟨(ht.mem_preorder_iff_inside hid).1 (hpre ▸ List.mem_cons_of_mem _ hmem), ?_⟩
  rintro rfl
  exact (List.nodup_cons.1 (hpre ▸ ht.nodup_preorder hid)).1 hmem

/-- Setting a value writes the element and options below it. -/
theorem get?_setValue (ht : t.WellFormed) {value : String} (h : t.setValue id value = .ok t') (hx : t.Outside id x)
    (hne : x ≠ id) : t'.get? x = t.get? x := by
  unfold Tree.setValue at h
  split at h
  · next hselect =>
    have hid := ht.inUse_of_isElement (isElement_of_hasTag hselect)
    have hout : x ∉ t.options id := fun hmem => hx.2 (ht.below_of_mem_options hid hmem)
    exact (get?_writeValue h hne).trans (get?_foldl_select _ hout)
  · exact get?_writeValue h hne

/-- A node that is there before and after a refill keeps its element, and all of it unless it is the one that is refilled. -/
theorem kept_of_refill (ht : t.Whole) (hid : t.isElement id = true) (content : List Markup) (hx : t.InUse x)
    (hx' : ((t.clear id).fill id content).touch.InUse x) :
    (x ≠ id → ((t.clear id).fill id content).touch.get? x = t.get? x) ∧
      ((t.clear id).fill id content).touch.element? x = t.element? x := by
  have hout := (((Edit.refill hid content).edited ht).inUse_iff hx).1 hx'
  have hw := ht.wellFormed
  obtain ⟨b, hr⟩ := ht
  obtain ⟨sub, hsub, rfl⟩ := hr.exists_part (hw.inUse_of_isElement hid)
  obtain ⟨cs, -, hreshaped, -⟩ := refill_spec hr hsub content
  rw [hr.preorder hsub, tail_handles] at hout
  have hmem := hr.mem_handles_iff.2 hx
  exact ⟨fun hne => hreshaped.kept x hmem hne hout, hreshaped.element? hmem hout⟩

/-- An edit takes nothing away that does not lie in its top. -/
theorem Edited.inUse_of_outside {top : NodeId} {gone : List NodeId} (h : Edited t t' top gone) (hx : t.Outside top x) :
    t'.InUse x :=
  (h.inUse_iff hx.1).2 fun hg => hx.2 (h.taken x hg).2

/-- Whatever starts by reading an element fails elsewhere. -/
theorem isElement_of_bind {α : Type} {op : String} {f : Markup.Element → Except Error α} {a : α}
    (h : (t.element id op >>= f) = .ok a) : t.isElement id = true := by
  cases he : t.element id op with
  | error e =>
    rw [he] at h
    cases h
  | ok e => exact Option.isSome_of_eq_some (element?_of_element he)

namespace Rewrite

theorem isElement (h : t.Rewrite id t') : t.isElement id = true := by
  cases h with
  | setAttr h => exact isElement_of_bind h
  | removeAttr h => exact isElement_of_bind h
  | setFlag h => exact isElement_of_bind h
  | setValue h =>
    unfold Tree.setValue at h
    split at h
    · next hselect => exact isElement_of_hasTag hselect
    · exact isElement_of_bind h
  | setTextContent h => exact isElement_of_bind h
  | replaceInner _ h => exact isElement_of_bind h

/-- A class that is there is not added again. -/
theorem of_addClass {cls : String} (h : t.addClass id cls = .ok t') : t' = t ∨ t.Rewrite id t' := by
  simp only [addClass, Except.bind, bind] at h
  split at h
  · cases h
  · split at h
    · cases h
      exact .inl rfl
    · exact .inr (.setAttr h)

theorem of_setInnerMarkup {markup : String} (h : t.setInnerMarkup id markup = .ok t') : t' = t ∨ t.Rewrite id t' := by
  unfold setInnerMarkup at h
  split at h
  · split at h
    · cases h
      exact .inl rfl
    · exact .inr (.setTextContent h)
  · next content hparse =>
    simp only [Except.bind, bind] at h
    split at h
    · cases h
    · split at h
      · cases h
        exact .inl rfl
      · exact .inr (.replaceInner hparse h)

/-- A write is one operation, or none where the element reads the same already. -/
theorem of_apply {w : Write} (h : w.apply t id = .ok t') : t' = t ∨ t.Rewrite id t' := by
  cases w with
  | setAttr name value => exact .inr (.setAttr h)
  | removeAttr name => exact .inr (.removeAttr h)
  | setFlag flag on => exact .inr (.setFlag h)
  | setValue value => exact .inr (.setValue h)
  | setText text =>
    simp only [Write.apply] at h
    split_ifs at h
    · exact .inl (Except.ok.inj h).symm
    · exact .inr (.setTextContent h)
  | setMarkup markup => exact of_setInnerMarkup h

theorem of_write (p : Property) {h : Heap} {v : Value} (hw : p.write h t id v = .ok t') : t' = t ∨ t.Rewrite id t' := by
  rw [Property.write_eq_apply] at hw
  exact of_apply hw

/-- A change of content is a refill. -/
theorem refill_of_setTextContent {text : String} (h : t.setTextContent id text = .ok t') :
    ∃ content, t' = ((t.clear id).fill id content).touch := by
  simp only [Tree.setTextContent, Except.bind, bind] at h
  split at h
  · cases h
  · cases h
    exact ⟨_, rfl⟩

theorem refill_of_replaceInner {content : List Markup} (h : t.replaceInner id content = .ok t') :
    t' = ((t.clear id).fill id content).touch := by
  simp only [Tree.replaceInner, Except.bind, bind] at h
  split at h
  · cases h
  · cases h
    rfl

theorem edit (h : t.Rewrite id t') (ht : t.WellFormed) : ∃ gone, t.Edit id gone t' := by
  have hid := h.isElement
  cases h with
  | setAttr h => exact ⟨_, .write (writes_setAttr ht h)⟩
  | removeAttr h => exact ⟨_, .write (writes_removeAttr ht h)⟩
  | setFlag h => exact ⟨_, .write (writes_setFlag ht h)⟩
  | setValue h => exact ⟨_, .write (writes_setValue ht h)⟩
  | setTextContent h =>
    obtain ⟨content, rfl⟩ := refill_of_setTextContent h
    exact ⟨_, .refill hid content⟩
  | replaceInner _ h =>
    obtain rfl := refill_of_replaceInner h
    exact ⟨_, .refill hid _⟩

/-- A node outside keeps its attributes, and all of it unless it is a select in which the element lies. -/
theorem kept (h : t.Rewrite id t') (ht : t.Whole) (hx : t.Outside id x) (hne : x ≠ id) :
    ((t.Inside id x → t.hasTag x "select" = false) → t'.get? x = t.get? x) ∧
      (t'.element? x).map (·.attrs) = (t.element? x).map (·.attrs) := by
  have hw := ht.wellFormed
  have hid := h.isElement
  have hselect : (t.Inside id x → t.hasTag x "select" = false) → t.ancestorWithTag? id "select" ≠ some x := fun hno he => by
    obtain ⟨hin, htag⟩ := inside_of_ancestorWithTag? he
    exact absurd (hno hin) (by simp [htag])
  have hall : t'.get? x = t.get? x → ((t.Inside id x → t.hasTag x "select" = false) → t'.get? x = t.get? x) ∧
      (t'.element? x).map (·.attrs) = (t.element? x).map (·.attrs) := fun hget =>
    ⟨fun _ => hget, by rw [element?_eq_of_get?_eq hget]⟩
  cases h with
  | setAttr h =>
    obtain ⟨hget, hattrs⟩ := kept_of_setAttr hw h hne
    exact ⟨fun hno => hget (hselect hno), hattrs⟩
  | removeAttr h =>
    obtain ⟨hget, hattrs⟩ := kept_of_removeAttr hw h hne
    exact ⟨fun hno => hget (hselect hno), hattrs⟩
  | setFlag h => exact hall (get?_setFlag h hne)
  | setValue h => exact hall (get?_setValue hw h hx hne)
  | setTextContent h =>
    obtain ⟨content, rfl⟩ := refill_of_setTextContent h
    exact hall ((kept_of_refill ht hid content hx.1 (((Edit.refill hid content).edited ht).inUse_of_outside hx)).1 hne)
  | replaceInner _ h =>
    obtain rfl := refill_of_replaceInner h
    exact hall ((kept_of_refill ht hid _ hx.1 (((Edit.refill hid _).edited ht).inUse_of_outside hx)).1 hne)

/-- A node outside keeps its children. -/
theorem children (h : t.Rewrite id t') (ht : t.Whole) (hx : t.Outside id x) (hne : x ≠ id) : t'.children x = t.children x := by
  have hw := ht.wellFormed
  have hid := h.isElement
  have hrefill : ∀ {content : List Markup}, t' = ((t.clear id).fill id content).touch → t'.children x = t.children x := by
    rintro content rfl
    have hused := ((Edit.refill hid content).edited ht).inUse_of_outside hx
    rw [Tree.children, (kept_of_refill ht hid content hx.1 hused).1 hne, Tree.children]
  cases h with
  | setAttr h => exact (writes_setAttr hw h).children x
  | removeAttr h => exact (writes_removeAttr hw h).children x
  | setFlag h => exact (writes_setFlag hw h).children x
  | setValue h => exact (writes_setValue hw h).children x
  | setTextContent h =>
    obtain ⟨content, heq⟩ := refill_of_setTextContent h
    exact hrefill heq
  | replaceInner _ h => exact hrefill (refill_of_replaceInner h)

/-- The attributes of any other node that stays are as they were, except for the marks of selected options. -/
theorem attr? (h : t.Rewrite id t') (ht : t.Whole) (hx : t.InUse x) (hx' : t'.InUse x) (hne : x ≠ id) {name : String}
    (hname : Text.asciiLower name ≠ "selected") : t'.attr? x name = t.attr? x name := by
  have hw := ht.wellFormed
  have hid := h.isElement
  cases h with
  | setAttr h => exact (writes_setAttr hw h).attr? fun hx => hne hx.1
  | removeAttr h => exact (writes_removeAttr hw h).attr? fun hx => hne hx.1
  | setFlag h => exact (writes_setFlag hw h).attr? fun hx => hne hx.1
  | setValue h => exact (writes_setValue hw h).attr? hname
  | setTextContent h =>
    obtain ⟨content, rfl⟩ := refill_of_setTextContent h
    rw [Tree.attr?, (kept_of_refill ht hid content hx hx').2, Tree.attr?]
  | replaceInner _ h =>
    obtain rfl := refill_of_replaceInner h
    rw [Tree.attr?, (kept_of_refill ht hid _ hx hx').2, Tree.attr?]

end Rewrite

/-- New content leaves every element that stays as it is, the one that it is put into included. -/
theorem element?_setInnerMarkup (ht : t.Whole) {markup : String} (h : t.setInnerMarkup id markup = .ok t') (hx : t.InUse x)
    (hx' : t'.InUse x) : t'.element? x = t.element? x := by
  have hrefill : ∀ {content : List Markup}, t.isElement id = true → t' = ((t.clear id).fill id content).touch →
      t'.element? x = t.element? x := by
    rintro content hid rfl
    exact (kept_of_refill ht hid content hx hx').2
  unfold setInnerMarkup at h
  split at h
  · split at h
    · cases h
      rfl
    · obtain ⟨content, heq⟩ := Rewrite.refill_of_setTextContent h
      exact hrefill (Rewrite.isElement (.setTextContent h)) heq
  · next content hparse =>
    simp only [Except.bind, bind] at h
    split at h
    · cases h
    · split at h
      · cases h
        rfl
      · exact hrefill (Rewrite.isElement (.replaceInner hparse h)) (Rewrite.refill_of_replaceInner h)

/-- Removing a child makes no nodes. -/
theorem inUse_of_remove (ht : t.WellFormed) (hp : t.parent? id = some up) (h : t.remove id = .ok t') (hx : t'.InUse x) :
    t.InUse x := by
  obtain ⟨forest, hr⟩ := ht
  obtain ⟨d, pre, post, sub, rfl, hreshaped, -⟩ := remove_spec hr hp h
  obtain ⟨rest, hperm⟩ := hr.exists_rest hreshaped.mem
  have hmem := (perm_replace hr.nodup hreshaped.mem hperm _).mem_iff.1 (hreshaped.represents.mem_handles_iff.2 hx)
  refine hr.mem_handles_iff.1 (hperm.mem_iff.2 ?_)
  simp only [handles_node, List.flatMap_append, List.flatMap_cons, List.mem_append, List.mem_cons] at hmem ⊢
  tauto

namespace Relist

theorem edit (h : t.Relist up t') (ht : t.WellFormed) : ∃ gone, t.Edit up gone t' := by
  cases h with
  | insert hp _ hcopy h₁ h₂ h =>
    obtain ⟨forest, hr⟩ := ht
    obtain ⟨b, -, -, -, hr₁, -⟩ := copy_spec hr hcopy
    have hw₁ : Writes _ _ fun _ _ => True := (writes_removeAttr ⟨_, hr₁⟩ h₁).mono fun _ _ _ => trivial
    have hw₂ : Writes _ _ fun _ _ => True := (writes_removeAttr (hw₁.wellFormed ⟨_, hr₁⟩) h₂).mono fun _ _ _ => trivial
    exact ⟨_, .insert hp hcopy (hw₁.trans hw₂) h⟩
  | remove hp h => exact ⟨_, .remove hp h⟩

/-- A node that is there before stays as it is while a copy gets ready. -/
theorem get?_of_copy (ht : t.Whole) {template c : NodeId} {first second : String} {t₁ t₂ t₃ : Tree}
    (hcopy : t.copy template = .ok (c, t₁)) (h₁ : t₁.removeAttr c first = .ok t₂) (h₂ : t₂.removeAttr c second = .ok t₃)
    (hx : t.InUse x) : t₃.get? x = t.get? x := by
  obtain ⟨b, hr⟩ := ht
  obtain ⟨cb, rfl, -, -, hr₁, hkept, hfresh, -⟩ := copy_spec hr hcopy
  have hne : x ≠ cb.handle := fun he => hfresh _ cb.handle_mem_handles (he ▸ hx)
  have hw₁ : t₁.WellFormed := ⟨_, hr₁⟩
  have hwrites := writes_removeAttr hw₁ h₁
  have hnone : t₁.ancestorWithTag? cb.handle "select" = none := by
    have hloose : t₁.parent? cb.handle = none := (hr₁.holds cb (by simp)).parent?
    have hancestors : ∀ fuel, t₁.ancestorsWithin fuel cb.handle = [] := fun fuel => by
      cases fuel <;> simp [ancestorsWithin, hloose]
    simp [Tree.ancestorWithTag?, ancestors, hancestors]
  rw [(kept_of_removeAttr (hwrites.wellFormed hw₁) h₂ hne).1, (kept_of_removeAttr hw₁ h₁ hne).1, hkept x hx]
  · simp [hnone]
  · rw [hwrites.ancestorWithTag?]
    simp [hnone]

/-- A copy comes to stand right behind its anchor, and the tree is reshaped below the parent of the anchor only. -/
theorem exists_reshaped (ht : t.Whole) {template anchor c : NodeId} {first second : String} {t₁ t₂ t₃ : Tree}
    (hcopy : t.copy template = .ok (c, t₁)) (h₁ : t₁.removeAttr c first = .ok t₂) (h₂ : t₂.removeAttr c second = .ok t₃)
    (h : t₃.insertAfter anchor c = .ok t') : ∃ (b cb tb : Branch) (up : NodeId) (d : NodeData) (pre post : List Branch),
      cb.handle = c ∧ tb.handle = anchor ∧ t.parent? anchor = some up ∧ (∀ x, t.InUse x → x ∈ [b].flatMap handles) ∧
      t₃.Reshaped t' [b] (.node up d (pre ++ tb :: post)) (.node up d (pre ++ tb :: cb :: post)) [] ∧
      t'.element? c = t₃.element? c := by
  have hw := ht.wellFormed
  obtain ⟨b, hr⟩ := id ht
  obtain ⟨cb, rfl, -, -, hr₁, -, hfresh, -⟩ := copy_spec hr hcopy
  have hw₁ := writes_removeAttr ⟨_, hr₁⟩ h₁
  have hr₃ := (writes_removeAttr (hw₁.wellFormed ⟨_, hr₁⟩) h₂).represents (hw₁.represents hr₁)
  simp only [List.map_cons, List.map_nil] at hr₃
  set b' := (b.relabel t₂.data).relabel t₃.data with hb
  set cb' := (cb.relabel t₂.data).relabel t₃.data with hcb
  have hhandle : cb'.handle = cb.handle := by rw [hcb, handle_relabel, handle_relabel]
  have hroot : cb'.handle ≠ root := by
    rw [hhandle]
    exact fun he => hfresh _ cb.handle_mem_handles (he ▸ hw.inUse_root)
  have hhandles : [b'].flatMap handles = [b].flatMap handles := by
    rw [List.flatMap_singleton, hb, handles_relabel, handles_relabel, List.flatMap_singleton]
  rw [← hhandle] at h ⊢
  obtain ⟨up, d, pre, post, tb, rfl, hp₃, hreshaped, hchild, -, -⟩ := insertAfter_spec hr₃ hroot h
  have htb : tb.handle ∈ [b'].flatMap handles := by
    have hmem : tb ∈ (node up d (pre ++ tb :: post)).children := by simp
    exact Represents.handles_subset (Represents.child_mem_parts hreshaped.mem hmem) tb.handle_mem_handles
  have hused := hr.mem_handles_iff.1 (hhandles ▸ htb)
  refine ⟨b', cb', tb, up, d, pre, post, rfl, rfl, ?_, fun x hx => hhandles ▸ hr.mem_handles_iff.2 hx, hreshaped, ?_⟩
  · rwa [Tree.parent?, get?_of_copy ht hcopy h₁ h₂ hused, ← Tree.parent?] at hp₃
  · rw [Tree.element?, hchild, Tree.element?]
    cases t₃.get? cb'.handle <;> rfl

/-- A node that is there before and after keeps its element, and all of it unless it is the node with the children. -/
theorem kept (h : t.Relist up t') (ht : t.Whole) (hx : t.InUse x) (hx' : t'.InUse x) :
    (x ≠ up → t'.get? x = t.get? x) ∧ t'.element? x = t.element? x := by
  have hw := ht.wellFormed
  cases h with
  | @insert template anchor c first second t₁ t₂ t₃ t' hp helement hcopy h₁ h₂ h =>
    have hsame := get?_of_copy ht hcopy h₁ h₂ hx
    obtain ⟨b, cb, tb, p, d, pre, post, -, rfl, hup, hhandles, hreshaped, -⟩ := exists_reshaped ht hcopy h₁ h₂ h
    obtain rfl : p = up := Option.some.inj (hup.symm.trans hp)
    refine ⟨fun hne => (hreshaped.kept x (hhandles x hx) hne List.not_mem_nil).trans hsame, ?_⟩
    rw [hreshaped.element? (hhandles x hx) List.not_mem_nil, element?_eq_of_get?_eq hsame]
  | @remove id t' hp h =>
    have hout := (((Edit.remove hp h).edited ht).inUse_iff hx).1 hx'
    obtain ⟨b, hr⟩ := ht
    obtain ⟨d, pre, post, sub, rfl, hreshaped, -⟩ := remove_spec hr hp h
    have hsub : sub ∈ [b].flatMap parts := Represents.child_mem_parts hreshaped.mem (by simp)
    rw [hr.preorder hsub] at hout
    have hmem := hr.mem_handles_iff.2 hx
    exact ⟨fun hne => hreshaped.kept x hmem hne hout, hreshaped.element? hmem hout⟩

end Relist

end Tree

end ViewBinding
