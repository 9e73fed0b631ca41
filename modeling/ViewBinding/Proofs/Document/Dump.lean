import ViewBinding.Proofs.Markup.Joined
import ViewBinding.Proofs.Markup.Verbatim
import ViewBinding.Proofs.Session.Reached

/-! Dumps of documents. A document that has been read is dumped as a text that is read as the same elements again, with
the same attributes, the same live state and the same texts. -/
namespace ViewBinding

open ViewBinding.Markup

namespace Branch

/-- The elements of a branch in document order, each with its text. -/
def elementTexts (b : Branch) : List (Element × String) :=
  b.parts.filterMap fun c => c.data.element?.map fun e => (e, textOf c.content)

theorem elementTexts_node (id : NodeId) (data : NodeData) (cs : List Branch) :
    (node id data cs).elementTexts =
      (data.element?.map fun e => (e, textOf (node id data cs).content)).toList ++ cs.flatMap elementTexts := by
  rw [elementTexts, parts_node, List.filterMap_cons, List.filterMap_flatMap, data_node]
  cases data.element? <;> rfl

mutual

theorem Spells.elementTexts {m : Markup} {b : Branch} (h : Spells m b) :
    b.elementTexts = m.elements.map fun x => (x.1, textOf x.2) := by
  cases m with
  | text s =>
    obtain ⟨id, rfl⟩ := h
    rfl
  | element e children =>
    obtain ⟨id, cs, rfl, hcs⟩ := h
    rw [elementTexts_node, hcs.elementTexts, Branch.content, contentAll_eq, hcs.content, Markup.elements, List.map_cons,
      Markup.elementTexts]
    simp [NodeData.element?, textOf, textContent]

theorem SpellsAll.elementTexts {ms : List Markup} {bs : List Branch} (h : SpellsAll ms bs) :
    bs.flatMap Branch.elementTexts = Markup.elementTexts ms := by
  cases ms with
  | nil =>
    obtain rfl : bs = [] := h
    rfl
  | cons m ms =>
    obtain ⟨c, cs, rfl, hc, hcs⟩ := h
    rw [List.flatMap_cons, hc.elementTexts, hcs.elementTexts, Markup.elementTexts, Markup.elementTexts, elementsOf,
      List.map_append]

end

end Branch

namespace Tree

open Branch

variable {t : Tree} {cs : List Branch}

theorem Represents.mem_parts_document :
    Branch.node root .document cs ∈ [Branch.node root .document cs].flatMap parts := by
  simp

theorem Represents.mem_parts (b : Branch) (hb : b ∈ cs.flatMap parts) :
    b ∈ [Branch.node root .document cs].flatMap parts := by
  rw [List.flatMap_singleton, parts_node]
  exact List.mem_cons_of_mem _ hb

/-- The elements of a document are the parts of its branches that hold one. -/
theorem Represents.elements (h : t.Represents [.node root .document cs]) :
    t.elements = ((cs.flatMap parts).filter fun b => b.data.element?.isSome).map handle := by
  obtain ⟨p, hp⟩ := h.part mem_parts_document
  have hpreorder : (cs.map handle).flatMap t.preorder = (cs.flatMap parts).map handle := by
    rw [List.flatMap_map, List.map_flatMap]
    refine List.flatMap_congr fun c hc => h.preorder (mem_parts c ?_)
    exact List.mem_flatMap.2 ⟨c, hc, c.self_mem_parts⟩
  have hchildren : t.children root = cs.map handle := hp.children
  rw [Tree.elements, elementsBelow, hchildren, hpreorder, List.filter_map]
  refine congrArg _ (List.filter_congr fun b hb => ?_)
  obtain ⟨q, hq⟩ := h.part (mem_parts b hb)
  rw [Function.comp_apply, isElement, hq.element?]

/-- What a tree shows of some of its nodes is what its branches hold. -/
theorem Represents.map_parts (h : t.Represents [.node root .document cs]) {bs : List Branch}
    (hbs : ∀ b ∈ bs, b ∈ cs.flatMap parts) :
    (((bs.filter fun b => b.data.element?.isSome).map handle).map fun x => (t.element? x, t.textContent x)) =
      (bs.filterMap fun b => b.data.element?.map fun e => (e, textOf b.content)).map fun x => (some x.1, x.2) := by
  induction bs with
  | nil => rfl
  | cons b bs ih =>
    obtain ⟨hb, hbs⟩ := List.forall_mem_cons.1 hbs
    obtain ⟨q, hq⟩ := h.part (mem_parts b hb)
    have htext : t.textContent b.handle = textOf b.content := by rw [textContent, h.content (mem_parts b hb)]
    cases hdata : b.data.element? with
    | none => simpa [hdata] using ih hbs
    | some e => simpa [hdata, hq.element?, htext] using ih hbs

theorem Represents.map_elements (h : t.Represents [.node root .document cs]) :
    (t.elements.map fun x => (t.element? x, t.textContent x)) =
      (cs.flatMap Branch.elementTexts).map fun x => (some x.1, x.2) := by
  have htexts : cs.flatMap Branch.elementTexts =
      (cs.flatMap parts).filterMap fun b => b.data.element?.map fun e => (e, textOf b.content) := by
    rw [List.filterMap_flatMap]
    rfl
  rw [h.elements, h.map_parts fun _ hb => hb, htexts]

/-- The elements of a tree of markup are those of the markup, and so are their texts. -/
theorem map_elements_ofMarkup (content : List Markup) :
    ((ofMarkup content).elements.map fun x => ((ofMarkup content).element? x, (ofMarkup content).textContent x)) =
      (Markup.elementTexts content).map fun x => (some x.1, x.2) := by
  obtain ⟨cs, hspells, h, -⟩ := represents_ofMarkup content
  rw [h.map_elements, hspells.elementTexts]

/-- Every element of the markup is one of the tree, so a tree without scripts and styles is made of markup without them. -/
theorem escapable_of_elements {content : List Markup}
    (hplain : ∀ x ∈ (ofMarkup content).elements, ∀ e, (ofMarkup content).element? x = some e →
      e.tag ≠ "script" ∧ e.tag ≠ "style") : Escapable (elementsOf content) := by
  intro x hx
  have hshown : (some x.1, textOf x.2) ∈ (Markup.elementTexts content).map fun x => (some x.1, x.2) := by
    rw [Markup.elementTexts, List.map_map]
    exact List.mem_map_of_mem (f := fun x => (some x.1, textOf x.2)) hx
  rw [← map_elements_ofMarkup] at hshown
  obtain ⟨y, hy, heq⟩ := List.mem_map.1 hshown
  obtain ⟨hscript, hstyle⟩ := hplain y hy x.1 (Prod.mk.inj heq).1
  simp [isVerbatim, hscript, hstyle]

/-- A tree of markup is written as the markup. -/
theorem dump_ofMarkup (content : List Markup) : (ofMarkup content).dump root = writeAll content := by
  obtain ⟨cs, hspells, h, -⟩ := represents_ofMarkup content
  have hcontent : (ofMarkup content).content root = (Branch.node root .document cs).content :=
    h.content Represents.mem_parts_document
  rw [dump, hcontent, Branch.content, contentAll_eq, hspells.content]

end Tree

namespace Document

/-- A dump is a text that is read as the same document, up to where text nodes end: it has the same dump, and in document
order the same elements with the same attributes, live values and states, and the same texts. -/
theorem parse_dump {html : String} {d : Document} (h : parse html = .ok d)
    (hplain : ∀ x ∈ d.tree.elements, ∀ e, d.tree.element? x = some e → e.tag ≠ "script" ∧ e.tag ≠ "style") :
    ∃ d', parse d.dump = .ok d' ∧ d'.dump = d.dump ∧
      (d'.tree.elements.map fun x => (d'.tree.element? x, d'.tree.textContent x)) =
        d.tree.elements.map fun x => (d.tree.element? x, d.tree.textContent x) := by
  unfold parse at h
  split at h
  · next content hcontent =>
    cases h
    have hread := parse_writeAll hcontent (Tree.escapable_of_elements hplain)
    refine ⟨⟨.ofMarkup (joinedAll content), .empty⟩, ?_, ?_, ?_⟩
    · rw [dump, Tree.dump_ofMarkup, parse, hread]
    · rw [dump, dump, Tree.dump_ofMarkup, Tree.dump_ofMarkup, writeAll_joinedAll]
    · rw [Tree.map_elements_ofMarkup, Tree.map_elements_ofMarkup, elementTexts_joinedAll]
  · cases h

/-- A page with implied end tags, an end tag of no element between two texts, a lone bracket and a selected option. -/
def loosePage : String := "<ul><li>a &lt; b</x> < c<li title=''>d<select><option>1<option selected>2</select></ul>"

theorem parse_dump_loosePage :
    ∃ d, parse loosePage = .ok d ∧
      (∀ x ∈ d.tree.elements, ∀ e, d.tree.element? x = some e → e.tag ≠ "script" ∧ e.tag ≠ "style") ∧
      ∃ d', parse d.dump = .ok d' ∧ d'.dump = d.dump ∧
        (d'.tree.elements.map fun x => (d'.tree.element? x, d'.tree.textContent x)) =
          d.tree.elements.map fun x => (d.tree.element? x, d.tree.textContent x) := by
  have hcheck : (parse loosePage).toOption.any (fun d => d.tree.elements.all fun x =>
      (d.tree.element? x).all fun e => e.tag != "script" && e.tag != "style") = true := by decide +kernel
  cases hd : parse loosePage with
  | error e =>
    rw [hd] at hcheck
    cases hcheck
  | ok d =>
    rw [hd] at hcheck
    have hplain : ∀ x ∈ d.tree.elements, ∀ e, d.tree.element? x = some e → e.tag ≠ "script" ∧ e.tag ≠ "style" := by
      intro x hx e he
      have hx := List.all_eq_true.1 hcheck x hx
      rw [he] at hx
      simpa using hx
    exact ⟨d, rfl, hplain, parse_dump hd hplain⟩

end Document

end ViewBinding

/-! Dumps of scripts and styles. The dump of one is read as that element again, but where its text has an ampersand or
a bracket, the text that is read has a reference. -/
namespace ViewBinding

open ViewBinding.Markup

namespace Branch

mutual

/-- The part of an element stands for that element of the markup. -/
theorem Spells.exists_of_mem_parts {m : Markup} {b : Branch} (h : Spells m b) {c : Branch} (hc : c ∈ b.parts)
    {e : Element} (he : c.data = .element e) : ∃ children, c.content = [.element e children] ∧ (e, children) ∈ m.elements := by
  cases m with
  | text s =>
    obtain ⟨id, rfl⟩ := h
    obtain rfl : c = .node id (.text s) [] := by simpa using hc
    cases he
  | element e' children =>
    obtain ⟨id, cs, rfl, hcs⟩ := h
    rw [parts_node] at hc
    rw [Markup.elements]
    rcases List.mem_cons.1 hc with rfl | hc
    · obtain rfl : e' = e := by simpa using he
      exact ⟨children, by rw [content, contentAll_eq, hcs.content], List.mem_cons_self ..⟩
    · obtain ⟨inner, hcontent, hmem⟩ := SpellsAll.exists_of_mem_parts hcs hc he
      exact ⟨inner, hcontent, List.mem_cons_of_mem _ hmem⟩

theorem SpellsAll.exists_of_mem_parts {ms : List Markup} {bs : List Branch} (h : SpellsAll ms bs) {c : Branch}
    (hc : c ∈ bs.flatMap parts) {e : Element} (he : c.data = .element e) :
    ∃ children, c.content = [.element e children] ∧ (e, children) ∈ elementsOf ms := by
  cases ms with
  | nil =>
    obtain rfl : bs = [] := h
    simp at hc
  | cons m ms =>
    obtain ⟨d, ds, rfl, hd, hds⟩ := h
    rw [List.flatMap_cons] at hc
    rw [elementsOf]
    rcases List.mem_append.1 hc with hc | hc
    · obtain ⟨children, hcontent, hmem⟩ := Spells.exists_of_mem_parts hd hc he
      exact ⟨children, hcontent, List.mem_append_left _ hmem⟩
    · obtain ⟨children, hcontent, hmem⟩ := SpellsAll.exists_of_mem_parts hds hc he
      exact ⟨children, hcontent, List.mem_append_right _ hmem⟩

end

end Branch

/-- An element of a tree of markup is one of the markup. -/
theorem Tree.exists_content_ofMarkup {content : List Markup} {x : NodeId} {e : Element}
    (h : (ofMarkup content).element? x = some e) :
    ∃ children, (ofMarkup content).content x = [.element e children] ∧ (e, children) ∈ elementsOf content := by
  obtain ⟨cs, hspells, hrep, -⟩ := represents_ofMarkup content
  obtain ⟨part, hpart, rfl⟩ := hrep.exists_part ((wellFormed_ofMarkup content).inUse_of_element? h)
  obtain ⟨p, hp⟩ := hrep.part hpart
  rw [hp.element?] at h
  have hdata : part.data = .element e := by
    cases hdata : part.data <;> simp [hdata, NodeData.element?] at h
    rw [h]
  rw [hrep.content hpart]
  rw [List.flatMap_singleton, Branch.parts_node] at hpart
  rcases List.mem_cons.1 hpart with rfl | hpart
  · cases hdata
  · exact hspells.exists_of_mem_parts hpart hdata

namespace Document

/-- The dump of a script or a style is read as the same element, and its text as the escaped one. So the text is the same
again if and only if there is nothing to escape in it. -/
theorem parse_dump_verbatim {html : String} {d : Document} {x : NodeId} {e : Element} (h : parse html = .ok d)
    (hx : d.tree.element? x = some e) (htag : e.tag = "script" ∨ e.tag = "style") :
    ∃ d', parse (d.tree.dump x) = .ok d' ∧
      (d'.tree.elements.map fun y => (d'.tree.element? y, d'.tree.textContent y)) =
        [(some e, escapeText (d.tree.textContent x))] ∧
      (escapeText (d.tree.textContent x) = d.tree.textContent x ↔
        ∀ c ∈ (d.tree.textContent x).toList, c ≠ '&' ∧ c ≠ '<' ∧ c ≠ '>') := by
  unfold parse at h
  split at h
  · next content hcontent =>
    cases h
    obtain ⟨children, hshown, hmem⟩ := Tree.exists_content_ofMarkup hx
    have hverbatim : isVerbatim e.tag = true := by rcases htag with htag | htag <;> rw [htag] <;> rfl
    obtain ⟨names, hsound⟩ := exists_sound_of_parse hcontent hmem hverbatim
    have hread := parse_write_verbatim hsound hverbatim
    have htext : (Tree.ofMarkup content).textContent x = textOf children := by
      simp [Tree.textContent, hshown, textOf, textContent]
    refine ⟨⟨.ofMarkup [.element e (rawText (escapeText (textOf children)))], .empty⟩, ?_, ?_, escapeText_eq_self_iff⟩
    · rw [Tree.dump, hshown, parse, hread]
    · rw [Tree.map_elements_ofMarkup, htext]
      simp [Markup.elementTexts, elementsOf, elements, elementsOf_rawText]
  · cases h

/-- A script that takes an ampersand as it stands. -/
def ampersandPage : String := "<p>x</p><script src=m.js>a&b</script>"

theorem parse_dump_verbatim_ampersand :
    ∃ d x e, parse ampersandPage = .ok d ∧ d.tree.element? x = some e ∧ (e.tag = "script" ∨ e.tag = "style") ∧
      d.tree.textContent x = "a&b" ∧ ∃ d', parse (d.tree.dump x) = .ok d' ∧
        (d'.tree.elements.map fun y => (d'.tree.element? y, d'.tree.textContent y)) = [(some e, "a&amp;b")] := by
  have hcheck : (parse ampersandPage).toOption.any (fun d => d.tree.elements.any fun x =>
      (d.tree.element? x).any (·.tag == "script") && d.tree.textContent x == "a&b") = true := by decide +kernel
  cases hd : parse ampersandPage with
  | error e =>
    rw [hd] at hcheck
    cases hcheck
  | ok d =>
    rw [hd] at hcheck
    obtain ⟨x, -, hx⟩ := List.any_eq_true.1 hcheck
    obtain ⟨htag, htext⟩ := Bool.and_eq_true_iff.1 hx
    obtain ⟨e, he, htag⟩ := (Option.any_eq_true ..).1 htag
    have hname : e.tag = "script" ∨ e.tag = "style" := .inl (by simpa using htag)
    have htext : d.tree.textContent x = "a&b" := by simpa using htext
    obtain ⟨d', hread, hshown, -⟩ := parse_dump_verbatim hd he hname
    rw [htext] at hshown
    exact ⟨d, x, e, rfl, he, hname, htext, d', hread, hshown⟩

end Document

end ViewBinding
