import ViewBinding.Proofs.Binding.Entry
import ViewBinding.Proofs.FieldList.Page
import ViewBinding.Proofs.Render.Basic
import ViewBinding.Proofs.Session.Edit

/-! Rows of a list of text fields: how a pass takes them away, and how it makes them. -/
namespace ViewBinding

open Render

namespace FieldList

variable {key : String} {v : View} {f : Frame} {rows : List Row} {r : Row} {p : Pass} {x : NodeId}

/-- A pass over the page: the rows are on record, and nothing but them is listened to. -/
structure Lists (key : String) (v : View) (f : Frame) (rows : List Row) (p : Pass) : Prop where
  page : Page key v f rows p.tree
  copies : ∀ x, x ∈ p.copies ↔ x ∈ rows.map (·.node)
  heard : ∀ r ∈ rows, p.document.listeners.on r.field = [r.listener v key]
  unheard : ∀ x, x ∉ rows.map (·.field) → p.document.listeners.on x = []

/-- A row is found nowhere else on the page. -/
theorem Row.apart {pre post : List Row} (h : (f.layout (pre ++ r :: post)).handles.Nodup) :
    r.node ∉ (f.layout (pre ++ post)).handles ∧ r.field ∉ (f.layout (pre ++ post)).handles ∧ r.node ≠ r.field := by
  have hperm : (f.layout (pre ++ r :: post)).handles.Perm (r.node :: r.field :: (f.layout (pre ++ post)).handles) := by
    simp only [Frame.handles_layout, List.flatMap_append, List.flatMap_cons]
    refine List.perm_iff_count.2 fun x => ?_
    simp only [List.count_cons, List.count_append, List.count_nil]
    omega
  obtain ⟨hnode, hrest⟩ := List.nodup_cons.1 (hperm.nodup_iff.1 h)
  rw [List.mem_cons, not_or] at hnode
  exact ⟨hnode.2, (List.nodup_cons.1 hrest).1, hnode.1⟩

theorem node_mem_handles {rows : List Row} (hx : x ∈ rows.map (·.node)) : x ∈ (f.layout rows).handles := by
  obtain ⟨r, hr, rfl⟩ := List.mem_map.1 hx
  exact Frame.mem_handles_layout.2 (.inr (.inr (.inr (.inr ⟨r, hr, .inl rfl⟩))))

theorem field_mem_handles {rows : List Row} (hx : x ∈ rows.map (·.field)) : x ∈ (f.layout rows).handles := by
  obtain ⟨r, hr, rfl⟩ := List.mem_map.1 hx
  exact Frame.mem_handles_layout.2 (.inr (.inr (.inr (.inr ⟨r, hr, .inr rfl⟩))))

/-- The node behind which the next row comes. -/
def Frame.last (f : Frame) (rows : List Row) : NodeId := (rows.map (·.node)).getLastD f.template

theorem Frame.exists_last (f : Frame) (rows : List Row) :
    ∃ kids k, f.templateBranch :: rows.map Row.branch = kids ++ [k] ∧ k.handle = f.last rows := by
  rcases List.eq_nil_or_concat rows with rfl | ⟨rows, r, rfl⟩
  · exact ⟨[], f.templateBranch, rfl, rfl⟩
  · exact ⟨f.templateBranch :: rows.map Row.branch, r.branch, by simp, by simp [Frame.last]⟩

@[simp] theorem Frame.last_append (f : Frame) (rows : List Row) (r : Row) : f.last (rows ++ [r]) = r.node := by
  simp [Frame.last]

/-- A copy of the template is put behind the last row, without the marks of a template. -/
theorem Page.insertCopy (h : Page key v f rows p.tree) (hv : Sees v f) :
    ∃ a b t, (v.insertCopy f.template (f.last rows)).exec p = (.ok a, p.withTree t) ∧
      (∀ scope, t.LaidOut [f.layout (rows ++ [⟨a, b, scope⟩])]) ∧ v.Marked t a "li" plain ∧
      v.Marked t b "input" (bound key) ∧ (∀ x, p.tree.InUse x → t.element? x = p.tree.element? x) ∧
      ¬ p.tree.InUse a ∧ ¬ p.tree.InUse b := by
  obtain ⟨e, he⟩ := Option.isSome_iff_exists.1 h.template.isElement
  obtain ⟨e', he'⟩ := Option.isSome_iff_exists.1 h.sample.isElement
  obtain ⟨a, b, t₁, hcopy, hl₁, hea, heb, hkept₁, ha, hb⟩ := h.layout.copy_pair Frame.mem_parts_template he he'
  have hab : b ≠ a := by
    have hnd := hl₁.nodup
    simp only [List.flatMap_cons, Branch.handles_bare, List.cons_append, List.nodup_cons] at hnd
    exact fun hba => hnd.1 (by simp [hba])
  have hmarked₁ : v.Marked t₁ a "li" repeated := h.template.congr (hea.trans he.symm)
  -- the marks of a template go
  obtain ⟨t₂, hforeach, hkept₂⟩ := Tree.exists_removeAttr hl₁.wellFormed hmarked₁.isElement
    (hmarked₁.hasTag_of_ne (by decide)) (v.attributeName .foreach)
  have hw₂ := Tree.writes_removeAttr hl₁.wellFormed hforeach
  have hmarked₂ := hmarked₁.removeForeach hv hl₁.wellFormed hforeach
  have hl₂ := hl₁.sameShape hw₂.toSameShape
  obtain ⟨t₃, hhidden, hkept₃⟩ := Tree.exists_removeAttr hl₂.wellFormed hmarked₂.isElement
    (hmarked₂.hasTag_of_ne (by decide)) v.options.hiddenAttribute
  have hw₃ := Tree.writes_removeAttr hl₂.wellFormed hhidden
  have hname : Text.asciiLower v.options.hiddenAttribute ∈ unboundNames := by
    rw [hv.options]
    decide +kernel
  have hmarked₃ := hmarked₂.writes hv hw₃ fun name hn => hn.2 ▸ hname
  have hl₃ := hl₂.sameShape hw₃.toSameShape
  -- the copy becomes a row
  obtain ⟨kids, k, hkids, hk⟩ := f.exists_last rows
  have hl₃' : t₃.LaidOut [.bare a [.bare b []], Tree.listing f.list (kids ++ [k])] := hkids ▸ hl₃
  obtain ⟨t₄, hinsert, hl₄, hkept₄⟩ := hl₃'.insertAfter_last
  rw [hk] at hinsert
  have huse : ∀ x, x = a ∨ x = b ∨ p.tree.InUse x → t₃.InUse x := fun x hx => by
    rw [hl₃.inUse_iff]
    rcases hx with rfl | rfl | hx
    · simp
    · simp
    · simp [h.inUse_iff_mem.1 hx]
  have hkept : ∀ x, p.tree.InUse x → t₄.element? x = p.tree.element? x := fun x hx => by
    have hxa : x ≠ a := fun hxa => ha (hxa ▸ hx)
    rw [hkept₄ x (huse x (.inr (.inr hx))), hkept₃ x hxa, hkept₂ x hxa, hkept₁ x hx]
  refine ⟨a, b, t₄, ?_, fun scope => ?_, hmarked₃.congr (hkept₄ a (huse a (.inl rfl))), h.sample.congr ?_, hkept, ha, hb⟩
  · rw [View.insertCopy, exec_bind_ok (exec_tree p), hcopy]
    simp only
    rw [exec_bind_ok (exec_setTree t₁ p), exec_bind_ok (exec_edit_ok hforeach), exec_bind_ok (exec_edit_ok hhidden),
      exec_bind_ok (exec_edit_ok hinsert), exec_pure]
    rfl
  · have hrows : f.templateBranch :: (rows ++ [(⟨a, b, scope⟩ : Row)]).map Row.branch = kids ++ [k, .bare a [.bare b []]] := by
      rw [List.map_append, ← List.cons_append, hkids]
      simp [Row.branch]
    rw [Frame.layout, hrows]
    exact hl₄
  · rw [hkept₄ b (huse b (.inr (.inl rfl))), hkept₃ b hab, hkept₂ b hab, heb, he']

namespace Lists

/-- The first row is taken away with its listener and its record. -/
theorem dropCopy (h : Lists key v f (r :: rows) p) : ∃ q, (View.dropCopy r.node).exec p = (.ok (), q) ∧
    Lists key v f rows q ∧ q.heap = p.heap := by
  have hpreorder : p.tree.preorder r.node = [r.node, r.field] := by
    have hp := h.page.layout.preorder (Frame.mem_parts_row (List.mem_cons_self ..))
    simpa using hp
  have hlaid : p.tree.LaidOut [Tree.listing f.list ([f.templateBranch] ++ r.branch :: rows.map Row.branch)] :=
    h.page.layout
  obtain ⟨t, ht, hlayout, hkept⟩ := hlaid.remove_kid
  have hdrop : (View.dropCopy r.node).exec p = (.ok (),
      ⟨⟨t, p.document.listeners.purge [r.node, r.field]⟩, p.heap,
        p.copies.filter fun copy => !([r.node, r.field].contains copy), p.cache⟩) := by
    simp only [View.dropCopy, exec_bind, exec_tree, hpreorder, exec_modify, exec_edit, Pass.tree]
    rw [show p.document.tree.remove r.node = .ok t from ht]
    rfl
  refine ⟨_, hdrop, ?_, rfl⟩
  obtain ⟨hnode, hfield, -⟩ := Row.apart (show (f.layout ([] ++ r :: rows)).handles.Nodup from h.page.nodup)
  have hused : ∀ x ∈ (f.layout rows).handles, x ∉ [r.node, r.field] := by
    intro x hx hr
    rcases List.mem_pair.1 hr with rfl | rfl
    · exact hnode hx
    · exact hfield hx
  have hother : ∀ x, x ∉ [r.node, r.field] →
      (p.document.listeners.purge [r.node, r.field]).on x = p.document.listeners.on x := fun x hx => by
    rw [ListenerStore.on_purge, if_neg (by simpa using hx)]
  refine ⟨h.page.congr (List.subset_cons_self ..) hlayout fun x hx => hkept x ?_ (by simpa using hused x hx),
    fun x => ?_, fun r' hr' => ?_, fun x hx => ?_⟩
  · exact h.page.inUse_iff_mem.2 (Frame.handles_subset (List.subset_cons_self ..) hx)
  · have hrow : x ∈ rows.map (·.node) → x ∉ [r.node, r.field] := fun hx => hused x (node_mem_handles hx)
    have hrecord := h.copies x
    rw [List.map_cons, List.mem_cons] at hrecord
    simp only [List.mem_filter, Bool.not_eq_true', List.contains_eq_mem, decide_eq_false_iff_not, hrecord]
    constructor
    · rintro ⟨hx | hx, hr⟩
      · exact absurd (by simp [hx]) hr
      · exact hx
    · exact fun hx => ⟨.inr hx, hrow hx⟩
  · rw [hother _ (hused _ (field_mem_handles (List.mem_map_of_mem hr')))]
    exact h.heard r' (List.mem_cons_of_mem _ hr')
  · by_cases hr : x ∈ [r.node, r.field]
    · rw [ListenerStore.on_purge, if_pos (by simpa using hr)]
    · rw [hother x hr]
      refine h.unheard x ?_
      rw [List.map_cons, List.mem_cons, not_or]
      exact ⟨fun he => hr (by simp [he]), hx⟩

theorem dropAll (h : Lists key v f rows p) : ∃ q, ((rows.map (·.node)).forM View.dropCopy).exec p = (.ok (), q) ∧
    Lists key v f [] q ∧ q.heap = p.heap := by
  induction rows generalizing p with
  | nil => exact ⟨p, rfl, h, rfl⟩
  | cons r rows ih =>
    obtain ⟨p', hdrop, hp', hheap⟩ := h.dropCopy
    obtain ⟨q, hrest, hq, hheap'⟩ := ih hp'
    refine ⟨q, ?_, hq, hheap'.trans hheap⟩
    rw [List.map_cons, exec_forM_cons hdrop]
    exact hrest

/-- The copies beside the template that carry its class are the rows. -/
theorem staleCopies_eq (h : Lists key v f rows p) :
    View.staleCopies p.tree p.copies f.template (v.copyClass listPath) = rows.map (·.node) := by
  have htemplate : f.template ∉ rows.map (·.node) := by
    intro hmem
    have hnd := h.page.layout.wellFormed.nodup_children f.list
    rw [h.page.children_list, List.nodup_cons] at hnd
    exact hnd.1 hmem
  have hkept : ∀ x ∈ rows.map (·.node), p.tree.isElement x = true ∧
      (p.copies.contains x && p.tree.hasClass x (v.copyClass listPath)) = true := fun x hx => by
    obtain ⟨r, hr, rfl⟩ := List.mem_map.1 hx
    have hmade := h.page.rows r hr
    exact ⟨hmade.node.isElement, by simp [(h.copies r.node).2 hx, hmade.cls]⟩
  rw [View.staleCopies, h.page.parent?_template]
  simp only [Tree.elementChildren, h.page.children_list, List.filter_filter]
  rw [List.filter_cons, if_neg (by simp [(h.copies f.template).not.2 htemplate])]
  refine List.filter_eq_self.2 fun x hx => ?_
  rw [(hkept x hx).2, (hkept x hx).1]
  rfl

/-- All rows are taken away before new ones are made. -/
theorem tearDown (h : Lists key v f rows p) :
    ∃ q, (View.tearDown f.template (v.copyClass listPath)).exec p = (.ok (), q) ∧ Lists key v f [] q ∧
      q.heap = p.heap := by
  have hexec : (View.tearDown f.template (v.copyClass listPath)).exec p =
      ((rows.map (·.node)).forM View.dropCopy).exec p := by
    rw [View.tearDown, exec_bind, exec_view, show View.staleCopies p.document.tree p.copies f.template _ = _ from
      h.staleCopies_eq]
  rw [hexec]
  exact h.dropAll

end Lists

end FieldList

end ViewBinding

/-! Fields of a list: what their bindings read as, what they show, and how a row is bound to its item. -/
namespace ViewBinding

open Render

namespace FieldList

variable {key : String} {v : View} {f : Frame} {rows : List Row} {r : Row} {p : Pass} {t : Tree} {x a b : NodeId} {item : Value}
  {index : Nat}

theorem entries_bound (hk : Expr.isName key.toList = true) :
    View.entries .value ("value::" ++ fieldPath key) = [⟨.value, some "value", fieldPath key, none⟩] := by
  have hpath : ∀ d ∈ (fieldPath key).toList, Binding.isBare d = true := by
    intro d hd
    rw [fieldPath, String.toList_append, List.mem_append] at hd
    rcases hd with hd | hd
    · exact List.all_eq_true.1 (by decide +kernel) d hd
    · exact Binding.isBare_of_isIdentContinue (Expr.isIdentContinue_of_isName hk hd)
  have hne : fieldPath key ≠ "" := by
    intro he
    have hlength := congrArg String.length he
    simp [fieldPath] at hlength
  have hparse : Binding.parseAll .value ("value" ++ "::" ++ fieldPath key) = _ :=
    Binding.parseAll_value (List.all_eq_true.1 (by decide +kernel)) hpath (by decide) hne
  rw [View.entries, show "value::" ++ fieldPath key = "value" ++ "::" ++ fieldPath key from rfl, hparse]
  rfl

theorem pathParts_fieldPath (hk : Expr.isName key.toList = true) : View.pathParts (fieldPath key) = ["$item", key] := by
  rw [fieldPath, show "$item." = "$item" ++ "." from rfl, Expr.pathParts_append (by decide +kernel),
    Expr.pathParts_of_isName hk]

/-- What a field shows of its item. -/
def shown (h : Heap) (key : String) (item : Value) : String :=
  h.display ((h.valueAt? item [key]).getD (.string ""))

/-- The items that the list is made of. -/
def items? (v : View) (h : Heap) : Option (List Value) := h.items? (h.get (h.get v.object "model") "items")

/-- The expression of a field reads an entry of the item. -/
theorem evaluate_fieldPath (hk : Expr.isName key.toList = true) (parent : Scope) (item : Value) (index : Nat) (h : Heap) :
    (evaluate (fieldPath key) (ItemScope.within parent item index).scope h).1.toOption = h.valueAt? item [key] ∧
      (evaluate (fieldPath key) (ItemScope.within parent item index).scope h).2 = h := by
  refine View.evaluate_of_parts (pathParts_fieldPath hk) (by simpa using hk) (.inr rfl) ?_ h
  rw [ItemScope.within, OrderedMap.get?_insert_of_ne _ (by decide), OrderedMap.get?_insert_self]

/-- The expression of the list reads the items of the model. -/
theorem evaluate_listPath (hv : Sees v f) (h : Heap) :
    (evaluate listPath v.scope h).1.toOption.bind (evaluate listPath v.scope h).2.items? = items? v h ∧
      (evaluate listPath v.scope h).2 = h := by
  have hparts : View.pathParts listPath = ["$vm", "model", "items"] := by decide +kernel
  have hvm : v.scope.get? "$vm" = some v.object := OrderedMap.get?_insert_self ..
  obtain ⟨hvalue, hheap⟩ := View.evaluate_of_parts hparts (by decide +kernel) (.inl rfl) hvm h
  refine ⟨?_, hheap⟩
  rw [hvalue, hheap, Heap.valueAt?, List.foldlM_cons, hv.object, items?]
  cases hmodel : h.get v.object "model" <;> rfl

section
variable {scope : Scope}

theorem exec_bindAttributes_of_nil (h : v.entriesAt .attr p.tree x = []) :
    (v.bindAttributes scope x).exec p = (.ok (), p) := by
  rw [View.bindAttributes, exec_bind_ok (exec_tree p), h]
  rfl

theorem exec_bindContent_of_nil (h : v.entriesAt .content p.tree x = []) :
    (v.bindContent scope x).exec p = (.ok (), p) := by
  rw [View.bindContent, exec_bind_ok (exec_tree p), h]
  rfl

theorem exec_bindProperties_of_nil (h : v.entriesAt .value p.tree x = []) :
    (v.bindProperties scope x).exec p = (.ok (), p) := by
  rw [View.bindProperties, exec_bind_ok (exec_tree p), h]
  rfl

/-- Where attributes and content are not bound, elements are brought up to date by their properties. -/
theorem exec_sync {ids : List NodeId}
    (h : ∀ x ∈ ids, v.entriesAt .attr p.tree x = [] ∧ v.entriesAt .content p.tree x = []) :
    (v.sync scope ids).exec p = (ids.forM (v.bindProperties scope)).exec p := by
  have hattributes : (ids.forM (v.bindAttributes scope)).exec p = (.ok (), p) :=
    exec_forM_of_forall fun x hx => exec_bindAttributes_of_nil (h x hx).1
  have hcontent : (ids.forM (v.bindContent scope)).exec p = (.ok (), p) :=
    exec_forM_of_forall fun x hx => exec_bindContent_of_nil (h x hx).2
  rw [View.sync, exec_bind_ok hattributes, exec_bind_ok hcontent]

end

theorem entriesAt_plain {tag : String} (h : v.Marked t x tag plain) (kind : BindingKind) :
    v.entriesAt kind t x = [] := by
  rw [h.entriesAt]
  rfl

theorem entriesAt_bound (hk : Expr.isName key.toList = true) {tag : String} (h : v.Marked t x tag (bound key))
    (kind : BindingKind) :
    v.entriesAt kind t x = if kind = .value then [⟨.value, some "value", fieldPath key, none⟩] else [] := by
  rw [h.entriesAt, bound]
  split
  · next hkind => rw [hkind, Option.map_some, Option.getD_some, entries_bound hk]
  · rfl

/-- A row that is not on record is scanned with its field. -/
theorem scan_row {copies : List NodeId} (hsize : 4 ≤ t.slots.size) (ha : v.Marked t a "li" plain)
    (hb : v.Marked t b "input" (bound key)) (hca : t.children a = [b]) (hcb : t.children b = []) (ha' : a ∉ copies)
    (hb' : b ∉ copies) : v.scan t copies a = ⟨[a, b], []⟩ := by
  obtain ⟨n, hn⟩ : ∃ n, t.slots.size = n + 2 := ⟨t.slots.size - 2, by omega⟩
  have hopen : ∀ {x tag raw}, v.Marked t x tag raw → raw .foreach = none →
      t.hasAttr x (v.attributeName .foreach) = false := fun hx hraw => by
    rw [Tree.hasAttr, hx.bindings, hraw]
    rfl
  simp [View.scan, hn, View.scanWithin, ha.isElement, hb.isElement, hopen ha rfl, hopen hb rfl, hca, hcb, ha', hb',
    Scan.append, Scan.empty]

/-- Bringing a row up to date writes what its field shows. -/
theorem exec_sync_row (hk : Expr.isName key.toList = true) (ha : v.Marked p.tree a "li" plain)
    (hb : v.Marked p.tree b "input" (bound key)) (parent : Scope) (item : Value) (index : Nat)
    (ht : p.tree.setValue b (shown p.heap key item) = .ok t) :
    ∃ cache, (v.sync (ItemScope.within parent item index).scope [a, b]).exec p =
      (.ok (), ⟨{ p.document with tree := t }, p.heap, p.copies, cache⟩) := by
  obtain ⟨hvalue, hheap⟩ := evaluate_fieldPath hk parent item index p.heap
  have hplain : ∀ x ∈ [a, b], v.entriesAt .attr p.tree x = [] ∧ v.entriesAt .content p.tree x = [] := by
    simp [entriesAt_plain ha, entriesAt_bound hk hb]
  have hwrite : (View.bindProperty (ItemScope.within parent item index).scope b ⟨.value, some "value", fieldPath key, none⟩).exec p =
      (.ok (), (p.evaluated (fieldPath key) (ItemScope.within parent item index).scope).withTree t) := by
    rw [View.bindProperty, View.property?_value rfl]
    simp only
    rw [exec_bind_ok (exec_evaluateOrBlank _ _ p), exec_bind_ok (exec_view _ _), hvalue]
    refine exec_edit_ok ?_
    show p.tree.setValue b ((p.evaluated (fieldPath key) _).heap.display _) = _
    rw [show (p.evaluated (fieldPath key) (ItemScope.within parent item index).scope).heap = p.heap from hheap]
    exact ht
  have hfield : (v.bindProperties (ItemScope.within parent item index).scope b).exec p =
      (.ok (), (p.evaluated (fieldPath key) (ItemScope.within parent item index).scope).withTree t) := by
    rw [View.bindProperties, exec_bind_ok (exec_tree p), entriesAt_bound hk hb, if_pos rfl, exec_forM_cons hwrite]
    rfl
  refine ⟨(p.cache.parse (fieldPath key)).2, ?_⟩
  rw [exec_sync hplain, exec_forM_cons (exec_bindProperties_of_nil (entriesAt_plain ha .value)), exec_forM_cons hfield,
    Pass.evaluated, hheap]
  rfl

/-- Of a row its field alone is listened to. -/
theorem foldl_listen_row (hk : Expr.isName key.toList = true) {d : Document} (ha : v.Marked d.tree a "li" plain)
    (hb : v.Marked d.tree b "input" (bound key)) (scope : ItemScope) :
    [a, b].foldl (v.listen (some scope)) d =
      { d with listeners := d.listeners.install b (Row.listener v key ⟨a, b, scope⟩) } := by
  have hfirst : v.listen (some scope) d a = d := by
    simp [View.listen, View.writeBackListeners, View.handlerListeners, entriesAt_plain ha]
  have hsecond : v.listen (some scope) d b =
      { d with listeners := d.listeners.install b (Row.listener v key ⟨a, b, scope⟩) } := by
    simp [View.listen, View.writeBackListeners, View.handlerListeners, entriesAt_bound hk hb, View.writeBackEvent,
      hb.unhurried, View.property?_value, Row.listener]
  rw [List.foldl_cons, hfirst, List.foldl_cons, hsecond, List.foldl_nil]

theorem value_congr {t' : Tree} (h : t'.element? x = t.element? x) : t'.value x = t.value x := by
  rw [Tree.value, Tree.value, Tree.element, Tree.element, h]

theorem copyClass_spec (hv : Sees v f) :
    (v.copyClass listPath).toList ≠ [] ∧ ∀ c ∈ (v.copyClass listPath).toList, Text.isBlank c = false := by
  constructor
  · simp [View.copyClass, hv.options, BindingOptions.standard]
  · exact fun c hc => View.isBlank_of_mem_copyClass (hv.options ▸ fun _ => View.isBlank_of_mem_standard) listPath hc

/-- A row that has just been put on the page is bound to its item. -/
theorem Lists.bindCopy (h : Lists key v f rows p) (hv : Sees v f) (hk : Expr.isName key.toList = true) (hr : r.scope = .within v.scope item index)
    (hl : t.LaidOut [f.layout (rows ++ [r])]) (hnode : v.Marked t r.node "li" plain)
    (hfield : v.Marked t r.field "input" (bound key)) (hfresh : ¬ p.tree.InUse r.node ∧ ¬ p.tree.InUse r.field)
    (nested : NodeId → Scope → Render Unit) :
    ∃ t' cache, (v.bindCopy nested r.node r.scope).exec (p.withTree t) =
        (.ok (), ⟨⟨t', p.document.listeners.install r.field (r.listener v key)⟩, p.heap, p.copies, cache⟩) ∧
      t'.value r.field = .ok (shown p.heap key item) ∧ Tree.Writes t t' (fun _ name => name = "selected") ∧
      ∀ x ≠ r.field, t'.element? x = t.element? x := by
  have hunrecorded : ∀ x, ¬ p.tree.InUse x → x ∉ p.copies := fun x hx hc =>
    hx (h.page.inUse_iff_mem.2 (node_mem_handles ((h.copies x).1 hc)))
  have hrow : r ∈ rows ++ [r] := by simp
  have hscan := scan_row (Frame.four_le_size hl) hnode hfield (Frame.children_row hl hrow) (Frame.children_field hl hrow)
    (hunrecorded _ hfresh.1) (hunrecorded _ hfresh.2)
  obtain ⟨t', hset, hvalue, hkept⟩ := Tree.exists_setValue hfield.isElement (hfield.hasTag_of_ne (by decide))
    (shown p.heap key item)
  have hwrites := Tree.writes_setValue hl.wellFormed hset
  have hselected : ∀ name, name = "selected" → name ∈ unboundNames := by
    rintro name rfl
    decide
  obtain ⟨cache, hsync⟩ := exec_sync_row hk hnode hfield v.scope item index (p := p.withTree t) hset
  rw [← hr] at hsync
  have hlisten := foldl_listen_row hk (d := ⟨t', p.document.listeners⟩) (hnode.writes hv hwrites hselected)
    (hfield.writes hv hwrites hselected) r.scope
  refine ⟨t', cache, ?_, hvalue, hwrites, hkept⟩
  rw [View.bindCopy, exec_bind_ok (exec_view _ _)]
  show Render.exec (v.sync r.scope.scope (v.scan t p.copies r.node).elements >>= _) _ = _
  rw [hscan, exec_bind_ok hsync, exec_bind_ok (exec_editDocument _ _)]
  simp only [Pass.withTree, hscan]
  rw [hlisten]
  rfl

end FieldList

end ViewBinding
