import ViewBinding.Proofs.FieldList.Pass
import ViewBinding.Proofs.Markup.Read

namespace ViewBinding.FieldList

open Markup

def html (key : String) : String :=
  "<ul ft-view-model='vm'><li vm-foreach='$vm.model.items'><input vm-js-bind='value::" ++ fieldPath key ++
    "'></li></ul>"

/-- The element of a tag with one attribute. -/
def element (tag name value : String) : Element := .new tag (.ofList [(name, value)])

def content (key : String) : List Markup :=
  [.element (element "ul" "ft-view-model" "vm")
    [.element (element "li" "vm-foreach" listPath)
      [.element (element "input" "vm-js-bind" ("value::" ++ fieldPath key)) []]]]

/-- The text in front of the key is that of three start tags, the last of which is still open. -/
theorem html_front : "<ul ft-view-model='vm'><li vm-foreach='$vm.model.items'><input vm-js-bind='value::" =
    startText "ul" "ft-view-model" "vm" ++ (startText "li" "vm-foreach" listPath ++
      ("<" ++ "input" ++ " " ++ "vm-js-bind" ++ "='" ++ "value::")) := by
  decide +kernel

theorem html_back : "'></li></ul>" = "'>" ++ (stopText "li" ++ (stopText "ul" ++ "")) := by decide +kernel

theorem html_eq (key : String) : html key = startText "ul" "ft-view-model" "vm" ++ (startText "li" "vm-foreach" listPath ++
    (startText "input" "vm-js-bind" ("value::" ++ fieldPath key) ++ (stopText "li" ++ (stopText "ul" ++ "")))) := by
  unfold html
  rw [html_front, html_back, startText.eq_1 "input"]
  simp only [String.append_assoc]

theorem parse_html {key : String} (hk : Expr.isName key.toList = true) : Markup.parse (html key) = .ok (content key) := by
  have hplain : ∀ c, Expr.isIdentContinue c = false → c ∉ ("value::$item.".toList) →
      c ∉ ("value::" ++ fieldPath key).toList := by
    intro c hc hfront hmem
    rw [fieldPath, ← String.append_assoc, String.toList_append, List.mem_append] at hmem
    rcases hmem with hmem | hmem
    · exact hfront hmem
    · rw [Expr.isIdentContinue_of_isName hk hmem] at hc
      cases hc
  have hstop : pieces (stopText "li" ++ (stopText "ul" ++ "")).toList = .ok [.stop "li", .stop "ul"] :=
    pieces_stop (by decide +kernel) (pieces_stop (by decide +kernel) (by rw [pieces.eq_def]; rfl))
  have hpieces : pieces (html key).toList = .ok
      [.start (plainTag "ul" "ft-view-model" "vm"), .start (plainTag "li" "vm-foreach" listPath),
        .start (plainTag "input" "vm-js-bind" ("value::" ++ fieldPath key)), .stop "li", .stop "ul"] := by
    rw [html_eq]
    refine pieces_start (by decide +kernel) (by decide +kernel) (by decide +kernel) (by decide +kernel) ?_
    refine pieces_start (by decide +kernel) (by decide +kernel) (by decide +kernel) (by decide +kernel) ?_
    exact pieces_start (by decide +kernel) (by decide +kernel) (hplain _ (by decide +kernel) (by decide +kernel))
      (hplain _ (by decide +kernel) (by decide +kernel)) hstop
  rw [Markup.parse, hpieces]
  rfl

theorem attrs_element (tag name value other : String) :
    (element tag name value).attrs.get? other = if other = name then some value else none := by
  show (Attributes.empty.insert name value).get? other = _
  split
  · next h => rw [h, Attributes.get?_insert_self]
  · next h => rw [Attributes.get?_insert_of_ne _ h, Attributes.get?_empty]

/-- The element of a tag with one attribute that binds, or with the marker of a root. -/
theorem marked_of_element {v : View} (hv : v.name = "vm") {t : Tree} {x : NodeId} {tag name value : String}
    {raw : BindingKind → Option String} (hx : t.element? x = some (element tag name value))
    (hname : ∀ kind, (if Text.asciiLower ("vm" ++ "-" ++ kind.suffix) = name then some value else none) = raw kind)
    (htime : Text.asciiLower ("vm" ++ "-real-time-bind") ≠ name) : v.Marked t x tag raw where
  tag := by simp [Tree.hasTag, hx, element, Element.new]
  bindings kind := by
    rw [Tree.attr?, hx, Option.bind_some, attrs_element, View.attributeName, BindingKind.attributeName, hv]
    exact hname kind
  unhurried := by
    rw [Tree.hasAttr, Tree.attr?, hx, Option.bind_some, attrs_element, View.realTimeAttribute, hv, if_neg htime]
    rfl

/-- The parsed page as a tree: the list, its template and the field in the template. -/
structure Blank (key : String) (f : Frame) (t : Tree) : Prop where
  layout : t.LaidOut [f.layout []]
  list : t.element? f.list = some (element "ul" "ft-view-model" "vm")
  template : t.element? f.template = some (element "li" "vm-foreach" listPath)
  sample : t.element? f.sample = some (element "input" "vm-js-bind" ("value::" ++ fieldPath key))

theorem exists_blank (key : String) : ∃ f, Blank key f (.ofMarkup (content key)) := by
  obtain ⟨cs, hspells, hr, -⟩ := Tree.represents_ofMarkup (content key)
  obtain ⟨_, _, rfl, ⟨list, _, rfl, ⟨_, _, rfl, ⟨template, _, rfl, ⟨_, _, rfl, ⟨sample, _, rfl, rfl⟩, rfl⟩⟩, rfl⟩⟩, rfl⟩ :=
    hspells
  obtain ⟨hroot, hbelow⟩ := Tree.holds_node.1 (hr.holds _ (List.mem_singleton_self _))
  have hlist := hbelow _ (List.mem_singleton_self _)
  have htemplate := hlist.child (List.mem_singleton_self _)
  have hsample := htemplate.child (List.mem_singleton_self _)
  exact ⟨⟨list, template, sample⟩, hr.laidOut.congr fun g => by simp [Frame.layout, Frame.templateBranch, Tree.listing],
    hlist.element?, htemplate.element?, hsample.element?⟩

theorem Blank.page {key : String} {f : Frame} {t : Tree} (h : Blank key f t) {v : View} (hv : v.name = "vm") :
    Page key v f [] t where
  layout := h.layout
  list := marked_of_element hv h.list (by intro kind; cases kind <;> decide +kernel) (by decide +kernel)
  template := marked_of_element hv h.template
    (by intro kind; cases kind <;> simp only [repeated] <;> decide +kernel) (by decide +kernel)
  sample := marked_of_element hv h.sample
    (fun kind => if_congr (by cases kind <;> decide +kernel) rfl rfl) (by decide +kernel)
  rows := by simp

theorem Blank.rootsIn {key : String} {f : Frame} {t : Tree} (h : Blank key f t) : View.rootsIn t .standard "vm" = [f.list] := by
  have hmarker : ∀ {x tag name value}, t.element? x = some (element tag name value) →
      t.attr? x BindingOptions.standard.rootMarker = if "ft-view-model" = name then some value else none := by
    intro x tag name value hx
    rw [Tree.attr?, hx, Option.bind_some, attrs_element]
    exact if_congr (by rw [show Text.asciiLower BindingOptions.standard.rootMarker = "ft-view-model" by decide +kernel]) rfl rfl
  have hbelow : (t.children Tree.root).flatMap t.preorder = [f.list, f.template, f.sample] := by
    have hall := h.layout.preorder (b := f.layout []) (by simp [Branch.self_mem_parts])
    have hcons := h.layout.wellFormed.preorder_eq_cons h.layout.wellFormed.inUse_root
    rw [show (f.layout []).handle = Tree.root from rfl, hcons, Frame.handles_layout] at hall
    simpa using hall
  rw [View.rootsIn, Tree.elements, Tree.elementsBelow, hbelow]
  have hlist := hmarker h.list
  have htemplate := hmarker h.template
  have hsample := hmarker h.sample
  rw [if_pos rfl] at hlist
  rw [if_neg (by decide)] at htemplate hsample
  simp [Tree.isElement, h.list, h.template, h.sample, hlist, htemplate, hsample, -beq_iff_eq]

variable {σ : Type} {key name : String} {d : Document} {heap : Heap} {user : σ} {model : Value} {pipes : PipeRegistry}
  {handler : Handler σ} {s : Session σ}

/-- A view model on the parsed page knows the list, and there are no rows yet. -/
theorem exists_frame (hk : Expr.isName key.toList = true) (hd : Document.parse (html key) = .ok d)
    (hs : ViewModel.create ⟨d, heap, user⟩ "vm" model .standard pipes handler = .ok s) :
    ∃ f, Sees s.model.view f ∧ Lists key s.model.view f [] s.pass := by
  obtain ⟨f, hblank⟩ := exists_blank key
  obtain rfl : d = ⟨.ofMarkup (content key), .empty⟩ := by
    rw [Document.parse, parse_html hk] at hd
    exact (Except.ok.inj hd).symm
  have hc := ViewModel.created_of_create hs
  have hsees : Sees s.model.view f := ⟨hc.name_eq, hc.options_eq, hc.roots_eq.trans hblank.rootsIn, by rw [hc.object_eq]; rfl⟩
  have hpage := hblank.page hc.name_eq
  -- the list is all that is found, and it binds nothing
  have hbare : Lists key s.model.view f [] ⟨⟨.ofMarkup (content key), .empty⟩, s.page.heap, [], s.model.cache⟩ :=
    ⟨hpage, by simp, by simp, fun x _ => ListenerStore.on_empty x⟩
  have hscan : s.model.view.scan (.ofMarkup (content key)) [] f.list = ⟨[f.list], [f.template]⟩ := hbare.scan_list
  have hplain : ∀ kind, s.model.view.entriesAt kind (.ofMarkup (content key)) f.list = [] := entriesAt_plain hpage.list
  have hlisten : s.page.document = ⟨.ofMarkup (content key), .empty⟩ := by
    rw [hc.document_eq, View.listenAll, hsees.roots]
    simp [hscan, View.listen, View.writeBackListeners, View.handlerListeners, hplain]
  refine ⟨f, hsees, ?_⟩
  rw [Session.pass, hlisten, hc.copies_eq]
  exact hbare

end ViewBinding.FieldList
