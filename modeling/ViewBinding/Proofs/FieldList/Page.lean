import ViewBinding.Proofs.Render.CopiesMade
import ViewBinding.Proofs.Tree.Layout

/-! A page with a list of text fields, one for each item of an array: what it consists of. -/
namespace ViewBinding

/-- An element with bindings of one kind at most, which is written back once it has changed. -/
structure View.Marked (v : View) (t : Tree) (x : NodeId) (tag : String) (raw : BindingKind → Option String) : Prop where
  tag : t.hasTag x tag = true
  bindings : ∀ kind, t.attr? x (v.attributeName kind) = raw kind
  unhurried : t.hasAttr x v.realTimeAttribute = false

namespace FieldList

def listPath : String := "$vm.model.items"

/-- The path from an item to what its field shows. -/
def fieldPath (key : String) : String := "$item." ++ key

def plain : BindingKind → Option String := fun _ => none

/-- The bindings of the template. -/
def repeated : BindingKind → Option String := fun kind => if kind = .foreach then some listPath else none

/-- The bindings of a field. -/
def bound (key : String) : BindingKind → Option String := fun kind =>
  if kind = .value then some ("value::" ++ fieldPath key) else none

/-- The nodes that stay: the list, its template, and the field in the template. -/
structure Frame where
  list : NodeId
  template : NodeId
  sample : NodeId

/-- A copy of the template: its node, the field in it, and what it was bound with. -/
structure Row where
  node : NodeId
  field : NodeId
  scope : ItemScope

namespace Row

def branch (r : Row) : Branch := .bare r.node [.bare r.field []]

@[simp] theorem handle_branch (r : Row) : r.branch.handle = r.node := rfl

@[simp] theorem handles_branch (r : Row) : r.branch.handles = [r.node, r.field] := by simp [branch]

/-- The listener that writes the field of a row back. -/
def listener (v : View) (key : String) (r : Row) : Listener :=
  ⟨"change", v.name, .writeBack .value, .writeBack .value (fieldPath key), some r.scope⟩

/-- A row that has been bound. -/
structure Made (v : View) (key : String) (t : Tree) (r : Row) : Prop where
  node : v.Marked t r.node "li" plain
  cls : t.hasClass r.node (v.copyClass listPath) = true
  field : v.Marked t r.field "input" (bound key)

end Row

namespace Frame

/-- The branch of the template. -/
def templateBranch (f : Frame) : Branch := .bare f.template [.bare f.sample []]

@[simp] theorem handle_templateBranch (f : Frame) : f.templateBranch.handle = f.template := rfl

@[simp] theorem handles_templateBranch (f : Frame) : f.templateBranch.handles = [f.template, f.sample] := by
  simp [templateBranch]

def layout (f : Frame) (rows : List Row) : Branch := Tree.listing f.list (f.templateBranch :: rows.map Row.branch)

theorem handles_layout (f : Frame) (rows : List Row) :
    (f.layout rows).handles =
      Tree.root :: f.list :: f.template :: f.sample :: rows.flatMap fun r => [r.node, r.field] := by
  simp [layout, Tree.listing, List.flatMap_map]

theorem mem_handles_layout {f : Frame} {rows : List Row} {x : NodeId} : x ∈ (f.layout rows).handles ↔
    x = Tree.root ∨ x = f.list ∨ x = f.template ∨ x = f.sample ∨ ∃ r ∈ rows, x = r.node ∨ x = r.field := by
  simp [handles_layout]

theorem handles_subset {f : Frame} {rows rows' : List Row} (h : rows' ⊆ rows) :
    (f.layout rows').handles ⊆ (f.layout rows).handles := by
  intro x hx
  rw [mem_handles_layout] at hx ⊢
  refine hx.imp_right (Or.imp_right (Or.imp_right (Or.imp_right ?_)))
  rintro ⟨r, hr, he⟩
  exact ⟨r, h hr, he⟩

end Frame

/-- The page as a tree: the frame with some rows. -/
structure Page (key : String) (v : View) (f : Frame) (rows : List Row) (t : Tree) : Prop where
  layout : t.LaidOut [f.layout rows]
  list : v.Marked t f.list "ul" plain
  template : v.Marked t f.template "li" repeated
  sample : v.Marked t f.sample "input" (bound key)
  rows : ∀ r ∈ rows, r.Made v key t

/-- What the view has to know of the page. -/
structure Sees (v : View) (f : Frame) : Prop where
  name : v.name = "vm"
  options : v.options = .standard
  roots : v.roots = [f.list]
  object : v.object.isNullish = false

/-- The attributes that a pass and a user write on the page. -/
def unboundNames : List String := ["class", "hidden", "selected", "checked", "disabled", "readonly", "required"]

end FieldList

namespace View.Marked

open FieldList

variable {v : View} {f : Frame} {t t' : Tree} {x : NodeId} {tag : String} {raw : BindingKind → Option String}

theorem isElement (h : v.Marked t x tag raw) : t.isElement x = true := Tree.isElement_of_hasTag h.tag

theorem hasTag_of_ne (h : v.Marked t x tag raw) {other : String} (hne : tag ≠ other) : t.hasTag x other = false := by
  have htag := h.tag
  rw [Tree.hasTag] at htag ⊢
  cases he : t.element? x with
  | none => rfl
  | some e =>
    simp only [he, Option.any_some, beq_iff_eq] at htag
    simp [htag, hne]

/-- All of this is about the element. -/
theorem congr {y : NodeId} (h : v.Marked t x tag raw) (he : t'.element? y = t.element? x) :
    v.Marked t' y tag raw where
  tag := by rw [Tree.hasTag, he]; exact h.tag
  bindings kind := by rw [Tree.attr?, he]; exact h.bindings kind
  unhurried := by rw [Tree.hasAttr, Tree.attr?, he]; exact h.unhurried

theorem ne_attributeName (hv : Sees v f) {name : String} (hname : name ∈ unboundNames) (kind : BindingKind) :
    Text.asciiLower (v.attributeName kind) ≠ name := by
  have hall : ∀ name ∈ unboundNames, Text.asciiLower ("vm" ++ "-" ++ kind.suffix) ≠ name := by
    cases kind <;> decide +kernel
  rw [attributeName, BindingKind.attributeName, hv.name]
  exact hall name hname

theorem ne_realTimeAttribute (hv : Sees v f) {name : String} (hname : name ∈ unboundNames) :
    Text.asciiLower v.realTimeAttribute ≠ name := by
  have hall : ∀ name ∈ unboundNames, Text.asciiLower ("vm" ++ "-real-time-bind") ≠ name := by decide +kernel
  rw [realTimeAttribute, hv.name]
  exact hall name hname

/-- Writing other attributes leaves the bindings of an element as they are. -/
theorem writes (h : v.Marked t x tag raw) (hv : Sees v f) {w : NodeId → String → Prop} (hw : Tree.Writes t t' w)
    (hnames : ∀ name, w x name → name ∈ unboundNames) : v.Marked t' x tag raw where
  tag := (hw.hasTag x tag).trans h.tag
  bindings kind := by
    rw [hw.attr? fun hx => ne_attributeName hv (hnames _ hx) kind rfl]
    exact h.bindings kind
  unhurried := by
    rw [hw.hasAttr fun hx => ne_realTimeAttribute hv (hnames _ hx) rfl]
    exact h.unhurried

/-- A copy of the template is none itself. -/
theorem removeForeach (h : v.Marked t x tag repeated) (hv : Sees v f) (ht : t.WellFormed)
    (hremove : t.removeAttr x (v.attributeName .foreach) = .ok t') : v.Marked t' x tag plain where
  tag := ((Tree.writes_removeAttr ht hremove).hasTag x tag).trans h.tag
  bindings kind := by
    by_cases hkind : kind = .foreach
    · rw [hkind]
      exact Tree.attr?_removeAttr_self ht hremove
    · have hname : Text.asciiLower (v.attributeName kind) ≠ Text.asciiLower (v.attributeName .foreach) := by
        simp only [attributeName, BindingKind.attributeName, hv.name]
        cases kind <;> first | exact absurd rfl hkind | decide +kernel
      rw [(Tree.writes_removeAttr ht hremove).attr? fun hx => hname hx.2, h.bindings]
      simp [repeated, plain, hkind]
  unhurried := by
    have hname : Text.asciiLower v.realTimeAttribute ≠ Text.asciiLower (v.attributeName .foreach) := by
      simp only [attributeName, BindingKind.attributeName, realTimeAttribute, hv.name]
      decide +kernel
    rw [(Tree.writes_removeAttr ht hremove).hasAttr fun hx => hname hx.2]
    exact h.unhurried

/-- The entries of a kind are those of its attribute. -/
theorem entriesAt (h : v.Marked t x tag raw) (kind : BindingKind) :
    v.entriesAt kind t x = ((raw kind).map (entries kind)).getD [] := by
  rw [View.entriesAt, h.bindings]

end View.Marked

namespace FieldList

variable {key : String} {v : View} {f : Frame} {rows rows' : List Row} {r : Row} {t t' : Tree} {x : NodeId}

theorem Row.Made.congr (h : r.Made v key t) (hnode : t'.element? r.node = t.element? r.node)
    (hfield : t'.element? r.field = t.element? r.field) : r.Made v key t' where
  node := h.node.congr hnode
  cls := by rw [Tree.hasClass, hnode]; exact h.cls
  field := h.field.congr hfield

namespace Frame

theorem mem_parts_list : Branch.bare f.list (f.templateBranch :: rows.map Row.branch) ∈
    [f.layout rows].flatMap Branch.parts := by
  simp [Frame.layout, Tree.listing]

theorem mem_parts_template : f.templateBranch ∈ [f.layout rows].flatMap Branch.parts := by
  simp [Frame.layout, Tree.listing, Branch.self_mem_parts]

theorem mem_parts_row (hr : r ∈ rows) : r.branch ∈ [f.layout rows].flatMap Branch.parts :=
  Tree.Represents.child_mem_parts mem_parts_list (by simp [List.mem_map_of_mem hr])

theorem children_row (h : t.LaidOut [f.layout rows]) (hr : r ∈ rows) : t.children r.node = [r.field] := by
  simpa [Row.branch] using h.children (mem_parts_row hr)

theorem children_field (h : t.LaidOut [f.layout rows]) (hr : r ∈ rows) : t.children r.field = [] := by
  have hmem : Branch.bare r.field [] ∈ [f.layout rows].flatMap Branch.parts :=
    Tree.Represents.child_mem_parts (mem_parts_row hr) (by simp [Row.branch])
  simpa using h.children hmem

/-- The frame alone takes four nodes. -/
theorem four_le_size (h : t.LaidOut [f.layout rows]) : 4 ≤ t.slots.size := by
  have hle := h.size_le (b := f.layout rows) (by simp [Branch.self_mem_parts])
  rw [← Branch.length_handles, handles_layout] at hle
  simp only [List.length_cons] at hle
  omega

end Frame

namespace Page

theorem wellFormed (h : Page key v f rows t) : t.WellFormed := h.layout.wellFormed

theorem inUse_iff_mem (h : Page key v f rows t) : t.InUse x ↔ x ∈ (f.layout rows).handles := by
  rw [h.layout.inUse_iff, List.flatMap_singleton]

theorem inUse_iff (h : Page key v f rows t) : t.InUse x ↔
    x = Tree.root ∨ x = f.list ∨ x = f.template ∨ x = f.sample ∨ ∃ r ∈ rows, x = r.node ∨ x = r.field := by
  rw [h.inUse_iff_mem, Frame.mem_handles_layout]

theorem nodup (h : Page key v f rows t) : (f.layout rows).handles.Nodup := by
  have hnd := h.layout.nodup
  rwa [List.flatMap_singleton] at hnd

/-- The page stays if its nodes keep their data; it may lose rows. -/
theorem congr (h : Page key v f rows t) (hrows : rows' ⊆ rows) (hlayout : t'.LaidOut [f.layout rows'])
    (he : ∀ x ∈ (f.layout rows').handles, t'.element? x = t.element? x) : Page key v f rows' t' where
  layout := hlayout
  list := h.list.congr (he _ (Frame.mem_handles_layout.2 (by simp)))
  template := h.template.congr (he _ (Frame.mem_handles_layout.2 (by simp)))
  sample := h.sample.congr (he _ (Frame.mem_handles_layout.2 (by simp)))
  rows r hr := by
    have hmem : ∀ x, x = r.node ∨ x = r.field → x ∈ (f.layout rows').handles := fun x hx =>
      Frame.mem_handles_layout.2 (.inr (.inr (.inr (.inr ⟨r, hr, hx⟩))))
    exact (h.rows r (hrows hr)).congr (he _ (hmem _ (.inl rfl))) (he _ (hmem _ (.inr rfl)))

/-- One more row that has been bound. -/
theorem snoc (h : Page key v f rows t) (hlayout : t'.LaidOut [f.layout (rows ++ [r])])
    (he : ∀ x, t.InUse x → t'.element? x = t.element? x) (hr : r.Made v key t') : Page key v f (rows ++ [r]) t' where
  layout := hlayout
  list := h.list.congr (he _ (h.inUse_iff.2 (by simp)))
  template := h.template.congr (he _ (h.inUse_iff.2 (by simp)))
  sample := h.sample.congr (he _ (h.inUse_iff.2 (by simp)))
  rows r' hr' := by
    rcases List.mem_append.1 hr' with hmem | hmem
    · have huse : ∀ x, x = r'.node ∨ x = r'.field → t.InUse x := fun x hx =>
        h.inUse_iff.2 (.inr (.inr (.inr (.inr ⟨r', hmem, hx⟩))))
      exact (h.rows r' hmem).congr (he _ (huse _ (.inl rfl))) (he _ (huse _ (.inr rfl)))
    · rwa [List.mem_singleton.1 hmem]

/-- Writing the live state of controls and attributes that bind nothing. -/
theorem writes (h : Page key v f rows t) (hv : Sees v f) {w : NodeId → String → Prop} (hw : Tree.Writes t t' w)
    (hnames : ∀ x name, w x name → name ∈ unboundNames) (hcls : ∀ r ∈ rows, ¬ w r.node "class") :
    Page key v f rows t' where
  layout := h.layout.sameShape hw.toSameShape
  list := h.list.writes hv hw (hnames _)
  template := h.template.writes hv hw (hnames _)
  sample := h.sample.writes hv hw (hnames _)
  rows r hr :=
    { node := (h.rows r hr).node.writes hv hw (hnames _)
      cls := by
        have hc := (h.rows r hr).cls
        rw [Tree.hasClass_iff] at hc ⊢
        rwa [hw.attrs r.node "class" (hcls r hr)]
      field := (h.rows r hr).field.writes hv hw (hnames _) }

theorem children_list (h : Page key v f rows t) : t.children f.list = f.template :: rows.map (·.node) := by
  have hc := h.layout.children Frame.mem_parts_list
  simpa [Function.comp_def] using hc

theorem parent?_template (h : Page key v f rows t) : t.parent? f.template = some f.list :=
  h.layout.parent? (b := f.templateBranch) Frame.mem_parts_list (by simp)

theorem parent?_list (h : Page key v f rows t) : t.parent? f.list = some Tree.root :=
  h.layout.parent? (a := f.layout rows) (b := .bare f.list (f.templateBranch :: rows.map Row.branch))
    (by simp [Branch.self_mem_parts]) (by simp [Frame.layout, Tree.listing])

theorem parent?_row (h : Page key v f rows t) (hr : r ∈ rows) : t.parent? r.node = some f.list :=
  h.layout.parent? (b := r.branch) Frame.mem_parts_list (by simp [List.mem_map_of_mem hr])

theorem parent?_field (h : Page key v f rows t) (hr : r ∈ rows) : t.parent? r.field = some r.node :=
  h.layout.parent? (b := .bare r.field []) (Frame.mem_parts_row hr) (by simp [Row.branch])

theorem isConnected_template (h : Page key v f rows t) : t.isConnected f.template = true :=
  h.wellFormed.isConnected_iff_inside.2 (.up h.parent?_template (.parent h.parent?_list))

theorem isConnected_list (h : Page key v f rows t) : t.isConnected f.list = true :=
  h.wellFormed.isConnected_iff_inside.2 (.parent h.parent?_list)

end Page

end FieldList

end ViewBinding
