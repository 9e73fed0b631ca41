import ViewBinding.Proofs.FieldList.Rows

/-! A pass over a page with a list of text fields: it makes one row for each item of the model, and each row shows its
item. Without items the rows stay as they are. -/
namespace ViewBinding.FieldList

open Render

variable {key : String} {v : View} {f : Frame} {rows : List Row} {p : Pass}

/-- One more item makes one more row behind the others, and nothing else of the page changes. -/
theorem Lists.makeRow (h : Lists key v f rows p) (hv : Sees v f) (hk : Expr.isName key.toList = true) (item : Value)
    (index : Nat) (nested : NodeId → Scope → Render Unit) :
    ∃ r q, r.scope = .within v.scope item index ∧ Lists key v f (rows ++ [r]) q ∧ q.heap = p.heap ∧
      q.tree.value r.field = .ok (shown p.heap key item) ∧
      (∀ x, p.tree.InUse x → q.tree.element? x = p.tree.element? x) ∧
      ∀ rest, (v.makeCopies nested f.template v.scope (v.copyClass listPath) (item :: rest) index (f.last rows)).exec p =
        (v.makeCopies nested f.template v.scope (v.copyClass listPath) rest (index + 1) r.node).exec q := by
  obtain ⟨a, b, t₁, hinsert, hlayout, hnode, hfield, hkept₁, hfa, hfb⟩ := h.page.insertCopy hv
  obtain ⟨r, rfl, rfl, hscope⟩ : ∃ r : Row, r.node = a ∧ r.field = b ∧ r.scope = .within v.scope item index :=
    ⟨⟨a, b, _⟩, rfl, rfl, rfl⟩
  have hl₁ : t₁.LaidOut [f.layout (rows ++ [r])] := hlayout r.scope
  obtain ⟨-, -, hne⟩ := Row.apart (show (f.layout (rows ++ r :: [])).handles.Nodup by
    simpa using hl₁.nodup)
  obtain ⟨t₂, cache, hbind, hvalue, hw₂, hkept₂⟩ := h.bindCopy hv hk hscope hl₁ hnode hfield ⟨hfa, hfb⟩ nested
  have hselected : ∀ name, name = "selected" → name ∈ unboundNames := by
    rintro name rfl
    decide
  have hnode₂ := hnode.writes hv hw₂ hselected
  have hl₂ := hl₁.sameShape hw₂.toSameShape
  obtain ⟨t₃, hclass, hkept₃⟩ := Tree.exists_addClass hl₂.wellFormed hnode₂.isElement (hnode₂.hasTag_of_ne (by decide))
    (v.copyClass listPath)
  have hw₃ := Tree.writes_addClass hl₂.wellFormed hclass
  have hcls : ∀ name, r.node = r.node ∧ name = "class" → name ∈ unboundNames := by
    rintro name ⟨-, rfl⟩
    decide
  have hkept : ∀ x, p.tree.InUse x → t₃.element? x = p.tree.element? x := fun x hx => by
    rw [hkept₃ x fun he => hfa (he ▸ hx), hkept₂ x fun he => hfb (he ▸ hx), hkept₁ x hx]
  have hnew : r.field ∉ rows.map (·.field) := fun hmem =>
    hfb (h.page.inUse_iff_mem.2 (field_mem_handles hmem))
  refine ⟨r, ⟨⟨t₃, p.document.listeners.install r.field (r.listener v key)⟩, p.heap, r.node :: p.copies, cache⟩, hscope,
    ⟨?_, ?_, ?_, ?_⟩, rfl, ?_, hkept, fun rest => ?_⟩
  · refine h.page.snoc (hl₂.sameShape hw₃.toSameShape) hkept ⟨hnode₂.writes hv hw₃ hcls, ?_, ?_⟩
    · exact Tree.hasClass_addClass hl₂.wellFormed (copyClass_spec hv).1 (copyClass_spec hv).2 hclass
    · exact (hfield.writes hv hw₂ hselected).congr (hkept₃ r.field (Ne.symm hne))
  · intro x
    simp [h.copies, or_comm]
  · intro r' hr'
    rcases List.mem_append.1 hr' with hr' | hr'
    · have hother : r'.field ≠ r.field := fun he => hnew (he ▸ List.mem_map_of_mem hr')
      rw [ListenerStore.on_install_of_ne _ hother]
      exact h.heard r' hr'
    · rw [List.mem_singleton.1 hr', ListenerStore.on_install_self, h.unheard r.field hnew]
      rfl
  · intro x hx
    rw [List.map_append, List.mem_append, not_or, List.map_singleton, List.mem_singleton] at hx
    rw [ListenerStore.on_install_of_ne _ hx.2]
    exact h.unheard x hx.1
  · exact (value_congr (hkept₃ r.field (Ne.symm hne))).trans hvalue
  · rw [View.makeCopies, exec_bind_ok hinsert, ← hscope, exec_bind_ok hbind, exec_bind_ok (exec_edit_ok hclass),
      exec_bind_ok (exec_modify _ _)]
    rfl

/-- The rows that the items from `index` on are shown in. -/
structure Shown (key : String) (v : View) (h : Heap) (items : List Value) (index : Nat) (rows : List Row) (t : Tree) :
    Prop where
  scopes : rows.map (·.scope) = items.mapIdx fun i item => .within v.scope item (index + i)
  texts : rows.map (fun r => t.value r.field) = items.map fun item => .ok (shown h key item)

/-- All items make their rows, one behind the other. -/
theorem Lists.makeRows (h : Lists key v f rows p) (hv : Sees v f) (hk : Expr.isName key.toList = true)
    (items : List Value) (index : Nat) (nested : NodeId → Scope → Render Unit) :
    ∃ made q, (v.makeCopies nested f.template v.scope (v.copyClass listPath) items index (f.last rows)).exec p =
        (.ok (), q) ∧
      Lists key v f (rows ++ made) q ∧ q.heap = p.heap ∧ Shown key v p.heap items index made q.tree ∧
      ∀ x, p.tree.InUse x → q.tree.element? x = p.tree.element? x := by
  induction items generalizing rows p index with
  | nil => exact ⟨[], p, rfl, by simpa using h, rfl, ⟨rfl, rfl⟩, fun _ _ => rfl⟩
  | cons item items ih =>
    obtain ⟨r, p', hscope, hp', hheap, hvalue, hkept, hstep⟩ := h.makeRow hv hk item index nested
    obtain ⟨made, q, hrest, hq, hheap', hshown, hkept'⟩ := ih hp' (index + 1)
    have huse : ∀ x, p.tree.InUse x → p'.tree.InUse x := fun x hx =>
      hp'.page.inUse_iff_mem.2 (Frame.handles_subset (List.subset_append_left ..) (h.page.inUse_iff_mem.1 hx))
    rw [Frame.last_append] at hrest
    refine ⟨r :: made, q, (hstep items).trans hrest, by simpa using hq, hheap'.trans hheap, ⟨?_, ?_⟩, fun x hx => ?_⟩
    · rw [List.map_cons, hscope, hshown.scopes, List.mapIdx_cons]
      simp [Nat.add_assoc, Nat.add_comm 1]
    · have hfield : q.tree.value r.field = .ok (shown p.heap key item) := by
        rw [value_congr (hkept' r.field (hp'.page.inUse_iff_mem.2 (field_mem_handles (by simp)))), hvalue]
      rw [List.map_cons, List.map_cons, hfield, hshown.texts, hheap]
    · rw [hkept' x (huse x hx), hkept x hx]

theorem listExpression?_template (h : Page key v f rows p.tree) : v.listExpression? p.tree f.template = some listPath := by
  have hentries : View.entries .foreach listPath = [⟨.foreach, none, listPath, none⟩] := by decide +kernel
  rw [View.listExpression?, h.template.entriesAt, repeated, if_pos rfl, Option.map_some, Option.getD_some, hentries]
  rfl

theorem foldr_append_empty {scans : List Scan} (h : ∀ found ∈ scans, found = .empty) :
    scans.foldr Scan.append .empty = .empty := by
  induction scans with
  | nil => rfl
  | cons found scans ih =>
    rw [List.foldr_cons, h found (by simp), ih fun found' hf => h found' (by simp [hf])]
    rfl

/-- A scan of the list finds the list itself and its template. -/
theorem Lists.scan_list (h : Lists key v f rows p) : v.scan p.tree p.copies f.list = ⟨[f.list], [f.template]⟩ := by
  obtain ⟨n, hn⟩ : ∃ n, p.tree.slots.size = n + 2 :=
    ⟨p.tree.slots.size - 2, by have := Frame.four_le_size h.page.layout; omega⟩
  have hforeach : ∀ {x tag raw}, v.Marked p.tree x tag raw →
      p.tree.hasAttr x (v.attributeName .foreach) = (raw .foreach).isSome := fun hx => by
    rw [Tree.hasAttr, hx.bindings]
  have hlist : f.list ∉ p.copies := fun hc => by
    obtain ⟨r, hr, he⟩ := List.mem_map.1 ((h.copies _).1 hc)
    have htag := (h.page.rows r hr).node.hasTag_of_ne (show "li" ≠ "ul" by decide)
    rw [he, h.page.list.tag] at htag
    cases htag
  have htemplate : v.scanWithin p.tree p.copies (n + 1) f.template = ⟨[], [f.template]⟩ := by
    simp [View.scanWithin, h.page.template.isElement, hforeach h.page.template, repeated]
  have hrows : ((rows.map (·.node)).map (v.scanWithin p.tree p.copies (n + 1))).foldr Scan.append .empty = .empty := by
    refine foldr_append_empty fun found hfound => ?_
    obtain ⟨x, hx, rfl⟩ := List.mem_map.1 hfound
    obtain ⟨r, hr, rfl⟩ := List.mem_map.1 hx
    have hmade := (h.page.rows r hr).node
    simp [View.scanWithin, hmade.isElement, hforeach hmade, plain, (h.copies r.node).2 hx]
  rw [View.scan, hn, View.scanWithin, if_neg (by simp [h.page.list.isElement]), hforeach h.page.list,
    if_neg (by simp [plain]), if_neg (by simpa using hlist), h.page.children_list, List.map_cons]
  simp only [List.foldr_cons, htemplate, hrows]
  rfl

/-- The template is hidden once the rows are there. -/
theorem Lists.hide (h : Lists key v f rows p) (hv : Sees v f) : ∃ t,
    p.tree.setAttr f.template v.options.hiddenAttribute "" = .ok t ∧ Lists key v f rows (p.withTree t) ∧
      ∀ r ∈ rows, t.value r.field = p.tree.value r.field := by
  obtain ⟨t, ht, hkept⟩ := Tree.exists_setAttr h.page.wellFormed h.page.template.isElement
    (h.page.template.hasTag_of_ne (by decide)) v.options.hiddenAttribute ""
  have hhidden : Text.asciiLower v.options.hiddenAttribute = "hidden" := by
    rw [hv.options]
    decide +kernel
  have hw := Tree.writes_setAttr h.page.wellFormed ht
  rw [hhidden] at hw
  refine ⟨t, ht, ⟨h.page.writes hv hw ?_ ?_, h.copies, h.heard, h.unheard⟩, fun r hr => value_congr (hkept _ ?_)⟩
  · rintro x name ⟨-, rfl⟩
    decide
  · rintro r hr ⟨-, hname⟩
    exact absurd hname (by decide)
  · intro he
    have htag := (h.page.rows r hr).field.hasTag_of_ne (show "input" ≠ "li" by decide)
    rw [he, h.page.template.tag] at htag
    cases htag

/-- What a pass makes of the list: without items nothing happens, else there is one row for each. -/
structure Rendered (key : String) (v : View) (f : Frame) (rows rows' : List Row) (p q : Pass) : Prop where
  lists : Lists key v f rows' q
  heap : q.heap = p.heap
  kept : items? v p.heap = none → rows' = rows ∧ q.document = p.document
  shown : ∀ items, items? v p.heap = some items → Shown key v p.heap items 0 rows' q.tree

theorem Lists.renderList (h : Lists key v f rows p) (hv : Sees v f) (hk : Expr.isName key.toList = true) :
    ∃ rows' q, (v.renderList f.template v.scope).exec p = (.ok (), q) ∧ Rendered key v f rows rows' p q := by
  obtain ⟨n, hn⟩ : ∃ n, p.tree.slots.size = n + 1 :=
    ⟨p.tree.slots.size - 1, by have := Frame.four_le_size h.page.layout; omega⟩
  obtain ⟨hyields, hheap⟩ := evaluate_listPath hv p.heap
  have hiterate : (View.iterate listPath v.scope).exec p = (.ok (items? v p.heap), p.evaluated listPath v.scope) := by
    rw [View.exec_iterate, hyields]
  have hp : Lists key v f rows (p.evaluated listPath v.scope) := ⟨h.page, h.copies, h.heard, h.unheard⟩
  have hwithin : (v.renderList f.template v.scope).exec p = (v.renderListWithin (n + 1) f.template v.scope).exec p := by
    rw [View.renderList, exec_bind_ok (exec_tree p), hn]
  rw [hwithin, View.renderListWithin, exec_bind_ok (exec_tree p), if_neg (by simp [h.page.isConnected_template]),
    listExpression?_template h.page]
  simp only
  rw [exec_bind_ok hiterate]
  cases hitems : items? v p.heap with
  | none =>
    refine ⟨rows, p.evaluated listPath v.scope, rfl, hp, hheap, fun _ => ⟨rfl, rfl⟩, fun items hsome => ?_⟩
    rw [hitems] at hsome
    cases hsome
  | some items =>
    obtain ⟨p₁, htear, hp₁, hheap₁⟩ := hp.tearDown
    obtain ⟨made, p₂, hmake, hp₂, hheap₂, hshown, -⟩ := hp₁.makeRows hv hk items 0 (v.renderListWithin n)
    rw [show f.last [] = f.template from rfl] at hmake
    rw [List.nil_append] at hp₂
    obtain ⟨t, hhide, hp₃, hvalues⟩ := hp₂.hide hv
    refine ⟨made, p₂.withTree t, ?_, hp₃, hheap₂.trans (hheap₁.trans hheap), fun hnone => ?_, fun items' hsome => ?_⟩
    · simp only
      rw [exec_bind_ok htear, exec_bind_ok hmake]
      exact exec_edit_ok hhide
    · rw [hitems] at hnone
      cases hnone
    · obtain rfl := Option.some.inj (hitems.symm.trans hsome)
      rw [hheap₁, show (p.evaluated listPath v.scope).heap = p.heap from hheap] at hshown
      refine ⟨hshown.scopes, ?_⟩
      rw [← hshown.texts]
      exact List.map_congr_left hvalues

/-- A pass over the page succeeds. -/
theorem Lists.render (h : Lists key v f rows p) (hv : Sees v f) (hk : Expr.isName key.toList = true) :
    ∃ rows' q, v.render.exec p = (.ok (), q) ∧ Rendered key v f rows rows' p q := by
  obtain ⟨rows', q, hlist, hrendered⟩ := h.renderList hv hk
  refine ⟨rows', q, ?_, hrendered⟩
  have hsync : (v.sync v.scope [f.list]).exec p = (.ok (), p) := by
    have hplain : ∀ x ∈ [f.list], ∀ kind, v.entriesAt kind p.tree x = [] := by
      simpa using entriesAt_plain h.page.list
    rw [exec_sync fun x hx => ⟨hplain x hx .attr, hplain x hx .content⟩]
    exact exec_forM_of_forall fun x hx => exec_bindProperties_of_nil (hplain x hx .value)
  have hroot : (v.renderRoot f.list).exec p = (.ok (), q) := by
    rw [View.renderRoot, exec_bind_ok (exec_tree p), if_pos h.page.isConnected_list, exec_bind_ok (exec_view _ p)]
    show Render.exec (v.sync v.scope (v.scan p.tree p.copies f.list).elements >>= _) p = _
    rw [h.scan_list, exec_bind_ok hsync]
    exact exec_forM_cons hlist []
  rw [View.render, hv.roots]
  exact exec_forM_cons hroot []

end ViewBinding.FieldList
