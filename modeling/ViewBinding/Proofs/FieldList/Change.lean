import ViewBinding.Proofs.FieldList.Start

/-! Editing a field of a list. What a user types into the field of a row is written to the item of the row, and the pass
that follows shows all items anew. -/
namespace ViewBinding.FieldList

open Render

variable {σ : Type} {key : String} {s s' : Session σ} {f : Frame} {rows : List Row} {r : Row} {items : List Value}

/-- The elements behind the template of the list. -/
def clones (s : Session σ) : List NodeId := (s.model.view.roots.flatMap s.tree.children).tail

/-- What is in the elements behind the template: a field in each of them. -/
def fields (s : Session σ) : List NodeId := (clones s).flatMap s.tree.children

/-- A page with one element on record for each item, in the order of the items, and a field in it that shows the item. -/
structure ShowsItems (key : String) (items : List Value) (s : Session σ) : Prop where
  record : ∀ x, x ∈ s.model.copies ↔ x ∈ clones s
  length : (clones s).length = items.length
  within : (clones s).map s.tree.children = (fields s).map fun x => [x]
  texts : (fields s).map s.tree.value = items.map fun item => .ok (s.page.heap.display (s.page.heap.get item key))

namespace Lists

theorem clones_eq (h : Lists key s.model.view f rows s.pass) (hv : Sees s.model.view f) : clones s = rows.map (·.node) := by
  rw [clones, hv.roots, List.flatMap_singleton, show s.tree.children f.list = _ from h.page.children_list]
  rfl

theorem map_children (h : Lists key s.model.view f rows s.pass) :
    (rows.map (·.node)).map s.tree.children = rows.map fun r => [r.field] := by
  rw [List.map_map]
  exact List.map_congr_left fun r hr => Frame.children_row h.page.layout hr

theorem fields_eq (h : Lists key s.model.view f rows s.pass) (hv : Sees s.model.view f) : fields s = rows.map (·.field) := by
  rw [fields, h.clones_eq hv, List.flatMap_def, h.map_children, ← List.flatMap_def, ← List.map_eq_flatMap]

end Lists

theorem showsItems (h : Lists key s.model.view f rows s.pass) (hv : Sees s.model.view f)
    (hobjects : ∀ item ∈ items, ∃ r, item = .object r) (hshown : Shown key s.model.view s.page.heap items 0 rows s.tree) :
    ShowsItems key items s where
  record x := by rw [h.clones_eq hv]; exact h.copies x
  length := by
    have hlength := congrArg List.length hshown.scopes
    rw [List.length_map, List.length_mapIdx] at hlength
    rw [h.clones_eq hv, List.length_map, hlength]
  within := by
    rw [h.clones_eq hv, h.fields_eq hv, h.map_children, List.map_map]
    rfl
  texts := by
    rw [h.fields_eq hv, List.map_map]
    refine hshown.texts.trans (List.map_congr_left fun item hitem => ?_)
    obtain ⟨r, rfl⟩ := hobjects item hitem
    rfl

/-- A pass shows the items, whatever rows there are before it. -/
theorem Lists.showsItems_render (h : Lists key s.model.view f rows s.pass) (hv : Sees s.model.view f)
    (hk : Expr.isName key.toList = true) (hitems : items? s.model.view s.page.heap = some items)
    (hobjects : ∀ item ∈ items, ∃ r, item = .object r) :
    ∃ rows' s', s.render = (.ok (), s') ∧ s'.model.view = s.model.view ∧ s'.page.heap = s.page.heap ∧
      Lists key s'.model.view f rows' s'.pass ∧ rows'.map (·.scope) = items.mapIdx (fun i item => .within s.model.view.scope item i) ∧
      ShowsItems key items s' := by
  obtain ⟨rows', q, hrender, hrendered⟩ := h.render hv hk
  have hs : s.render = (.ok (), s.withPass q) := by rw [s.render_eq, hrender]
  have hshown := hrendered.shown items hitems
  refine ⟨rows', s.withPass q, hs, rfl, hrendered.heap, hrendered.lists, by simpa using hshown.scopes, ?_⟩
  refine showsItems (s := s.withPass q) hrendered.lists hv hobjects ?_
  rw [show (s.withPass q).page.heap = s.page.heap from hrendered.heap]
  exact hshown

theorem Page.setValue {v : View} {t t' : Tree} {input : NodeId} {text : String} (h : Page key v f rows t) (hv : Sees v f)
    (ht : t.setValue input text = .ok t') : Page key v f rows t' := by
  refine h.writes hv (Tree.writes_setValue h.wellFormed ht) (fun _ name hn => ?_) fun _ _ => by decide
  rw [hn]
  decide

/-- Passes without items leave the rows as they are, so there is a list of rows in every state of the page. -/
theorem Lists.of_step (h : Lists key s.model.view f rows s.pass) (hv : Sees s.model.view f)
    (hk : Expr.isName key.toList = true) (hstep : Session.Step s s') : ∃ rows', Lists key s'.model.view f rows' s'.pass := by
  cases hstep with
  | compute heap user cache => exact ⟨rows, h.page, h.copies, h.heard, h.unheard⟩
  | @control t ht =>
    refine ⟨rows, ?_, h.copies, h.heard, h.unheard⟩
    rcases ht with ⟨id, value, ht⟩ | ⟨id, flag, on, ht⟩
    · exact h.page.setValue hv ht
    · refine h.page.writes hv (Tree.writes_setFlag h.page.wellFormed ht) (fun _ name hn => ?_) fun _ _ hn => ?_
      · rw [hn.2]
        cases flag <;> decide
      · revert hn
        cases flag <;> simp [Markup.Flag.attribute]
  | render =>
    obtain ⟨rows', q, hrender, hrendered⟩ := h.render hv hk
    refine ⟨rows', ?_⟩
    rw [s.render_eq, hrender]
    exact hrendered.lists

theorem Lists.of_steps (h : Lists key s.model.view f rows s.pass) (hv : Sees s.model.view f)
    (hk : Expr.isName key.toList = true) (hsteps : Relation.ReflTransGen Session.Step s s') :
    Sees s'.model.view f ∧ ∃ rows', Lists key s'.model.view f rows' s'.pass := by
  induction hsteps with
  | refl => exact ⟨hv, rows, h⟩
  | tail _ hstep ih =>
    obtain ⟨hv', rows', h'⟩ := ih
    exact ⟨hstep.view_eq ▸ hv', h'.of_step hv' hk hstep⟩

/-- Typing in the field of a row leaves the rows as they are. -/
theorem Lists.exists_typed (h : Lists key s.model.view f rows s.pass) (hv : Sees s.model.view f) {input : NodeId}
    {text : String} {t : Tree} (ht : s.tree.setValue input text = .ok t) :
    ∃ typed, s.edit (·.setValue input text) = (.ok (), typed) ∧ typed.tree = t ∧ typed.model.view = s.model.view ∧
      typed.page.heap = s.page.heap ∧ Lists key typed.model.view f rows typed.pass := by
  refine ⟨{ s with page := { s.page with document := { s.page.document with tree := t } } }, ?_, rfl, rfl, rfl,
    h.page.setValue hv ht, h.copies, h.heard, h.unheard⟩
  rw [Session.edit, Document.edit, show s.page.document.tree.setValue input text = .ok t from ht]
  rfl

/-- Nothing is listened to around a field. -/
theorem Lists.met_field (h : Lists key s.model.view f rows s.pass) (hr : r ∈ rows) :
    s.met r.field "change" = [(r.field, r.listener s.model.view key)] := by
  have hancestors : s.tree.ancestors r.field = [r.node, f.list, Tree.root] := by
    obtain ⟨n, hn⟩ : ∃ n, s.tree.slots.size = n + 4 :=
      ⟨s.tree.slots.size - 4, by have : 4 ≤ s.tree.slots.size := Frame.four_le_size h.page.layout; omega⟩
    have hroot : s.tree.parent? Tree.root = none := h.page.wellFormed.parent?_root
    have hfield : s.tree.parent? r.field = some r.node := h.page.parent?_field hr
    have hnode : s.tree.parent? r.node = some f.list := h.page.parent?_row hr
    have hlist : s.tree.parent? f.list = some Tree.root := h.page.parent?_list
    simp [Tree.ancestors, hn, Tree.ancestorsWithin, hfield, hnode, hlist, hroot]
  have hother : ∀ x, s.tree.hasTag x "input" = false → s.page.document.listeners.on x = [] := fun x hx => by
    refine h.unheard x fun hmem => ?_
    obtain ⟨r', hr', rfl⟩ := List.mem_map.1 hmem
    rw [show s.tree.hasTag r'.field "input" = true from (h.page.rows r' hr').field.tag] at hx
    cases hx
  have hroot : s.tree.hasTag Tree.root "input" = false := by
    rw [Tree.hasTag, show s.tree.element? Tree.root = none from h.page.wellFormed.element?_root]
    rfl
  have hnode := hother r.node ((h.page.rows r hr).node.hasTag_of_ne (by decide))
  have hlist := hother f.list (h.page.list.hasTag_of_ne (by decide))
  have hfield : s.page.document.listeners.on r.field = [r.listener s.model.view key] := h.heard r hr
  have hname : s.model.name = s.model.view.name := rfl
  simp [Session.met, show s.page.document.tree.ancestors r.field = _ from hancestors, ListenerStore.matching, hfield, hnode,
    hlist, hother Tree.root hroot, Row.listener, hname]

/-- The field of a row is written to the item of the row. -/
theorem Lists.responses_field (h : Lists key s.model.view f rows s.pass) (hk : Expr.isName key.toList = true) (hr : r ∈ rows)
    {o : ObjectRef} (hitem : r.scope.item = .object o) {text : String} (hvalue : s.tree.value r.field = .ok text) :
    s.responses r.field "change" =
      ([⟨true, none⟩], s.computed (s.page.heap.setField o key (.string text)) s.page.user s.model.cache) := by
  have hread : Property.value.read s.page.document.tree r.field = .ok (.string text) := by
    simp only [Property.read]
    rw [show s.page.document.tree.value r.field = _ from hvalue]
    rfl
  have hne : key ≠ "" := by
    rintro rfl
    cases hk
  have hpath : s.model.view.writePath? s.page.heap (fieldPath key) (some r.scope) (.string text) =
      some (s.page.heap.setField o key (.string text)) := by
    simp [View.writePath?, pathParts_fieldPath hk, View.pathStart, hitem, hne, View.follow?, Heap.set, Except.toOption]
  have hwrite : s.writeBack r.field .value (fieldPath key) (some r.scope) =
      (.ok true, s.computed (s.page.heap.setField o key (.string text)) s.page.user s.model.cache) := by
    simp only [Session.writeBack, hread, hpath]
    rfl
  simp [Session.responses, h.met_field hr, Session.fire, Session.respond, Session.asks, Session.runListener, Row.listener,
    hwrite, Except.toOption, failure?]

/-- A text that is typed in the field of a row and announced is written to the item of the row, and a pass follows. -/
theorem Lists.exists_written (h : Lists key s.model.view f rows s.pass) (hv : Sees s.model.view f)
    (hk : Expr.isName key.toList = true) (hr : r ∈ rows) {o : ObjectRef} (hitem : r.scope.item = .object o) (text : String) :
    ∃ typed written : Session σ, s.edit (·.setValue r.field text) = (.ok (), typed) ∧
      typed.dispatch r.field "change" = written.render ∧
      written.model.view = s.model.view ∧ written.page.heap = s.page.heap.setField o key (.string text) ∧
      written.page.document = typed.page.document ∧ Lists key written.model.view f rows written.pass := by
  have hmarked := (h.page.rows r hr).field
  obtain ⟨t, hset, hvalue, -⟩ := Tree.exists_setValue hmarked.isElement (hmarked.hasTag_of_ne (by decide)) text
  obtain ⟨typed, hedit, htyped, hview, hheap, hlists⟩ := h.exists_typed hv hset
  have hresponses := hlists.responses_field hk hr hitem (htyped ▸ hvalue)
  generalize hwritten : typed.computed _ _ _ = written at hresponses
  have hlive : typed.tree.isLive r.field = true :=
    (hlists.page.inUse_iff_mem.2 (field_mem_handles (List.mem_map_of_mem hr))).1
  have hlists' : Lists key written.model.view f rows written.pass := by
    subst hwritten
    exact ⟨hlists.page, hlists.copies, hlists.heard, hlists.unheard⟩
  obtain ⟨_, q, hpass, -⟩ := hlists'.render (hwritten ▸ hview ▸ hv) hk
  have hrender : written.render = (.ok (), written.withPass q) := by rw [written.render_eq, hpass]
  refine ⟨typed, written, hedit, ?_, ?_, ?_, ?_, hlists'⟩
  · rw [Session.dispatch_eq hlive hresponses, hrender]
    simp [Session.pass?, Session.Response.counts, hrender, Session.andThen]
  · rw [← hwritten]
    exact hview
  · rw [← hwritten, ← hheap]
    rfl
  · rw [← hwritten]
    rfl

/-- The list is read through two entries: the model of the view model, and the items of the model. -/
def ReadThrough (v : View) (h : Heap) (item : Value) (key : String) : Prop :=
  item = v.object ∧ key = "model" ∨ item = h.get v.object "model" ∧ key = "items"

theorem get_setField_of_not {h : Heap} {o : ObjectRef} {w : Value} {name : String} (hne : ¬ (.object o = w ∧ key = name))
    (value : Value) : (h.setField o key value).get w name = h.get w name := by
  have hset : h.set (.object o) key value = .ok (h.setField o key value) := rfl
  by_cases he : Value.object o = w
  · subst he
    exact Heap.get_set_object_of_ne hset fun hn => hne ⟨rfl, hn.symm⟩
  · exact Heap.get_set_of_ne hset (Ne.symm he) name

theorem items?_setField {v : View} {h : Heap} {o : ObjectRef} (hnot : ¬ ReadThrough v h (.object o) key) (value : Value) :
    items? v (h.setField o key value) = items? v h := by
  rw [ReadThrough, not_or] at hnot
  rw [items?, get_setField_of_not hnot.1, get_setField_of_not hnot.2, items?]
  cases h.get (h.get v.object "model") "items" <;> rfl

/-- Without the array that it is read from the list has no items. -/
theorem items?_setField_readThrough {v : View} {h : Heap} {o : ObjectRef} (hread : ReadThrough v h (.object o) key)
    (text : String) : items? v (h.setField o key (.string text)) = none := by
  have hset : h.set (.object o) key (.string text) = .ok (h.setField o key (.string text)) := rfl
  have hself := Heap.get_set_self hset
  by_cases hmodel : .object o = v.object ∧ key = "model"
  · obtain ⟨ho, rfl⟩ := hmodel
    rw [items?, ← ho, hself]
    rfl
  · obtain ⟨ho, rfl⟩ := hread.resolve_left hmodel
    rw [items?, get_setField_of_not hmodel, ← ho, hself]
    rfl

/--
A list of fields, one for each of the objects in an array. Once it has been shown, a text that is set in a field and
announced as a change becomes the entry of the item, and nothing else of the values changes. Then all items are shown
anew, unless the entry is one that the list itself is read through: without its items the list stays as it is.
-/
theorem change_field (hk : Expr.isName key.toList = true) {d : Document} {heap : Heap} {user : σ} {model : Value}
    {pipes : PipeRegistry} {handler : Handler σ} {s₀ : Session σ} (hd : Document.parse (html key) = .ok d)
    (hs : ViewModel.create ⟨d, heap, user⟩ "vm" model .standard pipes handler = .ok s₀)
    (hsteps : Relation.ReflTransGen Session.Step s₀ s) (hitems : items? s.model.view s.page.heap = some items)
    (hobjects : ∀ item ∈ items, ∃ r, item = .object r) :
    ∃ shown, s.render = (.ok (), shown) ∧ shown.page.heap = s.page.heap ∧ ShowsItems key items shown ∧
      ∀ (i : Nat) (input : NodeId) (item : Value), (fields shown)[i]? = some input → items[i]? = some item → ∀ text,
        ∃ typed changed, shown.edit (·.setValue input text) = (.ok (), typed) ∧
          typed.dispatch input "change" = (.ok (), changed) ∧
          changed.page.heap.get item key = .string text ∧
          (∀ other name, (other = item → name ≠ key) → changed.page.heap.get other name = s.page.heap.get other name) ∧
          (¬ ReadThrough s.model.view s.page.heap item key → ShowsItems key items changed) ∧
          (ReadThrough s.model.view s.page.heap item key → changed.page.document = typed.page.document) := by
  obtain ⟨f, hv₀, h₀⟩ := exists_frame hk hd hs
  obtain ⟨hv, rows₀, h⟩ := h₀.of_steps hv₀ hk hsteps
  obtain ⟨rows, shown, hrender, hview, hheap, hlists, hscopes, hshows⟩ := h.showsItems_render hv hk hitems hobjects
  refine ⟨shown, hrender, hheap, hshows, fun i input item hinput hitem text => ?_⟩
  have hv₁ : Sees shown.model.view f := hview ▸ hv
  -- the row of the item
  rw [hlists.fields_eq hv₁, List.getElem?_map, Option.map_eq_some_iff] at hinput
  obtain ⟨r, hri, rfl⟩ := hinput
  have hr := List.mem_of_getElem? hri
  obtain ⟨o, rfl⟩ := hobjects item (List.mem_of_getElem? hitem)
  have hscope : r.scope.item = .object o := by
    have hi := congrArg (·[i]?) hscopes
    simp only [List.getElem?_map, hri, List.getElem?_mapIdx, hitem, Option.map_some, Option.some.injEq] at hi
    rw [hi]
    rfl
  obtain ⟨typed, written, hedit, hdispatch, hview', hheap', hdocument, hlists'⟩ := hlists.exists_written hv₁ hk hr hscope text
  rw [hview] at hview'
  rw [hheap] at hheap'
  have hv' : Sees written.model.view f := hview' ▸ hv
  obtain ⟨_, q, hpass, hrendered⟩ := hlists'.render hv' hk
  have hrender' : written.render = (.ok (), written.withPass q) := by rw [written.render_eq, hpass]
  have hheap'' : (written.withPass q).page.heap = s.page.heap.setField o key (.string text) := hrendered.heap.trans hheap'
  have hwrite : s.page.heap.set (.object o) key (.string text) = .ok (s.page.heap.setField o key (.string text)) := rfl
  refine ⟨typed, written.withPass q, hedit, hdispatch.trans hrender', ?_, fun other name hne => ?_, fun hnot => ?_,
    fun hread => ?_⟩
  · rw [hheap'']
    exact Heap.get_set_self hwrite
  · rw [hheap'']
    by_cases he : other = .object o
    · rw [he]
      exact Heap.get_set_object_of_ne hwrite (hne he)
    · exact Heap.get_set_of_ne hwrite he name
  · have hitems' : items? written.model.view written.page.heap = some items := by
      rw [hview', hheap', items?_setField hnot, hitems]
    obtain ⟨_, _, hrender'', -, -, -, -, hshows'⟩ := hlists'.showsItems_render hv' hk hitems' hobjects
    rw [hrender', Prod.mk.injEq] at hrender''
    rw [hrender''.2]
    exact hshows'
  · have hnone : items? written.model.view written.page.heap = none := by
      rw [hview', hheap', items?_setField_readThrough hread]
    exact (hrendered.kept hnone).2.trans hdocument

/-- A model with three items, the first two of which are the same object. -/
def sharedItem : List Value × Value × Heap :=
  let (first, h) := Heap.empty.newObject [("name", .string "a")]
  let (last, h) := h.newObject [("name", .string "b")]
  let (items, h) := h.newArray [first, first, last]
  let (model, h) := h.newObject [("items", items)]
  ([first, first, last], model, h)

/-- Typing in the field of an item that is shown twice. -/
theorem change_field_shared : ∃ (d : Document) (s shown typed changed : Session Unit) (input : NodeId),
    Document.parse (html "name") = .ok d ∧
      ViewModel.create ⟨d, sharedItem.2.2, ()⟩ "vm" sharedItem.2.1 .standard .empty (.none Unit) = .ok s ∧
      s.render = (.ok (), shown) ∧ (fields shown)[0]? = some input ∧
      shown.edit (·.setValue input "c") = (.ok (), typed) ∧ typed.dispatch input "change" = (.ok (), changed) ∧
      ShowsItems "name" sharedItem.1 changed := by
  have hk : Expr.isName "name".toList = true := by decide +kernel
  have hd : Document.parse (html "name") = .ok ⟨.ofMarkup (content "name"), .empty⟩ := by rw [Document.parse, parse_html hk]
  obtain ⟨s, hs⟩ : ∃ s, ViewModel.create ⟨⟨.ofMarkup (content "name"), .empty⟩, sharedItem.2.2, ()⟩ "vm" sharedItem.2.1
    .standard .empty (.none Unit) = .ok s := ⟨_, rfl⟩
  have hitems : items? s.model.view s.page.heap = some sharedItem.1 := by
    cases hs
    rfl
  obtain ⟨shown, hrender, -, hshows, hchange⟩ := change_field hk hd hs .refl hitems
    (by simp [sharedItem, Heap.newObject])
  obtain ⟨input, hinput⟩ : ∃ input, (fields shown)[0]? = some input := by
    have hlength := congrArg List.length hshows.texts
    rw [List.length_map, List.length_map] at hlength
    have hpos : 0 < (fields shown).length := by
      rw [hlength]
      decide
    exact ⟨_, List.getElem?_eq_getElem hpos⟩
  obtain ⟨typed, changed, hedit, hdispatch, -, -, hshown, -⟩ := hchange 0 input _ hinput rfl "c"
  refine ⟨_, s, shown, typed, changed, input, hd, hs, hrender, hinput, hedit, hdispatch, hshown ?_⟩
  rintro (⟨-, h⟩ | ⟨-, h⟩) <;> exact absurd h (by decide)

/-- The view model itself becomes the items of its model, twice. -/
def itself (s : Session σ) : Session σ :=
  s.computed (evaluate "$vm.model.items = [$vm, $vm]" s.model.view.scope s.page.heap).2 s.page.user s.model.cache

def isObject : Value → Bool
  | .object _ => true
  | _ => false

/-- Types into the first field: the field, the page before, and the page afterwards. -/
def typeInFirst? (s : Session Unit) (text : String) : Option (NodeId × Session Unit × Session Unit) :=
  match s.render with
  | (.ok (), shown) => (fields shown)[0]?.bind fun input =>
    match shown.edit (·.setValue input text) with
    | (.ok (), typed) => some (input, shown, typed)
    | _ => none
  | _ => none

/-- Whether the fields show other texts than the entries of the items, once the first field has changed. -/
def showsOthers (key : String) (s : Session Unit) : Bool :=
  (items? s.model.view s.page.heap).any fun items => items.all isObject &&
    (typeInFirst? s "a").any fun (input, _, typed) =>
      match typed.dispatch input "change" with
      | (.ok (), changed) => (fields changed).map (fun x => (changed.tree.value x).toOption) !=
          items.map fun item => some (changed.page.heap.display (changed.page.heap.get item key))
      | _ => false

theorem typeInFirst?_eq_some {s shown typed : Session Unit} {text : String} {input : NodeId}
    (h : typeInFirst? s text = some (input, shown, typed)) :
    s.render = (.ok (), shown) ∧ (fields shown)[0]? = some input ∧ shown.edit (·.setValue input text) = (.ok (), typed) := by
  unfold typeInFirst? at h
  split at h
  · next shown' hrender =>
    obtain ⟨input', hinput, h⟩ := Option.bind_eq_some_iff.1 h
    split at h
    · next typed' hedit =>
      cases h
      exact ⟨hrender, hinput, hedit⟩
    · cases h
  · cases h

set_option maxRecDepth 10000 in
/-- The view model shows itself twice, and its model is overwritten: the second field does not follow. -/
theorem change_field_unshown : ∃ (d : Document) (s : Session Unit) (items : List Value) (shown typed changed : Session Unit)
    (input : NodeId), Document.parse (html "model") = .ok d ∧
      ViewModel.create ⟨d, (Heap.empty.newObject []).2, ()⟩ "vm" (Heap.empty.newObject []).1 .standard .empty (.none Unit) =
        .ok s ∧
      items? (itself s).model.view (itself s).page.heap = some items ∧ (∀ item ∈ items, ∃ r, item = .object r) ∧
      (itself s).render = (.ok (), shown) ∧ (fields shown)[0]? = some input ∧
      shown.edit (·.setValue input "a") = (.ok (), typed) ∧ typed.dispatch input "change" = (.ok (), changed) ∧
      ¬ ShowsItems "model" items changed := by
  have hd : Document.parse (html "model") = .ok ⟨.ofMarkup (content "model"), .empty⟩ := by
    rw [Document.parse, parse_html (by decide +kernel)]
  obtain ⟨s, hs⟩ : ∃ s, ViewModel.create ⟨⟨.ofMarkup (content "model"), .empty⟩, (Heap.empty.newObject []).2, ()⟩ "vm"
    (Heap.empty.newObject []).1 .standard .empty (.none Unit) = .ok s := ⟨_, rfl⟩
  have hcheck : showsOthers "model" (itself s) = true := by
    cases hs
    decide +kernel
  obtain ⟨items, hitems, hcheck⟩ := (Option.any_eq_true _ _).1 hcheck
  obtain ⟨hobjects, hcheck⟩ := Bool.and_eq_true_iff.1 hcheck
  obtain ⟨⟨input, shown, typed⟩, htyped, hcheck⟩ := (Option.any_eq_true _ _).1 hcheck
  obtain ⟨hrender, hinput, hedit⟩ := typeInFirst?_eq_some htyped
  simp only at hcheck
  split at hcheck
  · next changed hdispatch =>
    refine ⟨_, s, items, shown, typed, changed, input, hd, hs, hitems, fun item hitem => ?_, hrender, hinput, hedit,
      hdispatch, fun hshows => bne_iff_ne.1 hcheck ?_⟩
    · cases item with
      | object r => exact ⟨r, rfl⟩
      | _ => exact absurd (List.all_eq_true.1 hobjects _ hitem) Bool.false_ne_true
    · have htexts := congrArg (List.map Except.toOption) hshows.texts
      simpa only [List.map_map, Function.comp_def, Except.toOption] using htexts
  · cases hcheck

end ViewBinding.FieldList
