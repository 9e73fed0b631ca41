import ViewBinding.Proofs.Page.Counter
import ViewBinding.Proofs.Tree.Stable

/-! States that show as attributes. Whether a control is disabled, read-only or required is known in two places, and both are
written together wherever one is: when an element is made, bound, hidden or copied. -/
namespace ViewBinding

open Markup (Flag)

theorem Markup.Element.Agrees.disabled {e : Markup.Element} (h : e.Agrees) : e.disabled = e.attrs.contains "disabled" :=
  h .disabled (by decide)

namespace Selector

variable {t : Tree} {x : NodeId} {e : Markup.Element}

/-- The test of an attribute without a value asks for nothing but the attribute. -/
theorem holds_carries (e : Markup.Element) (name : String) : AttributeTest.holds ⟨name, none⟩ e = e.attrs.contains name := by
  rw [AttributeTest.holds, Markup.Attributes.contains]
  cases e.attrs.get? name <;> rfl

/-- A selector of one compound without a tag, an id and classes. -/
def ofTests (attributes : List AttributeTest) (states : List State) : Selector :=
  ⟨[⟨⟨none, none, [], attributes, states⟩, []⟩]⟩

theorem holds_ofTests (he : t.element? x = some e) (attributes : List AttributeTest) (states : List State) :
    (ofTests attributes states).holds t x = (attributes.all (·.holds e) && states.all (State.holds t x e)) := by
  simp [ofTests, holds, Complex.holds, Compound.holds, chainHolds, he]

end Selector

namespace Tree

variable {t : Tree} {x : NodeId} {name : String}

theorem hasAttr_of_element? {e : Markup.Element} (he : t.element? x = some e) (name : String) :
    t.hasAttr x name = e.attrs.contains (Text.asciiLower name) := by
  rw [hasAttr, attr?, he]
  rfl

namespace EveryElement

variable (ha : t.EveryElement Markup.Element.Agrees)
include ha

theorem flag_eq (hx : t.isElement x = true) {flag : Flag} (hflag : flag ≠ .checked)
    (hname : Text.asciiLower name = flag.attribute) : t.flag x flag = .ok (t.hasAttr x name) := by
  obtain ⟨e, he⟩ := Option.isSome_iff_exists.1 hx
  rw [Tree.flag, element_eq_ok he, hasAttr_of_element? he, hname, ← ha x e he flag hflag]
  rfl

/-- What a selector of tests selects, if the tests come to a test of the elements. -/
theorem query_ofTests {text : String} {attributes : List Selector.AttributeTest} {states : List Selector.State}
    {keep : NodeId → Bool} (hp : Selector.parse? text = some (.ofTests attributes states))
    (hkeep : ∀ x e, t.element? x = some e → e.Agrees →
      (attributes.all (·.holds e) && states.all (Selector.State.holds t x e)) = keep x) :
    t.query text = .ok (t.elements.filter keep) := by
  have hfilter : t.elements.filter ((Selector.ofTests attributes states).holds t) = t.elements.filter keep := by
    refine List.filter_congr fun x hx => ?_
    obtain ⟨e, he⟩ := Option.isSome_iff_exists.1 (List.mem_filter.1 hx).2
    rw [Selector.holds_ofTests he, hkeep x e he (ha x e he)]
  rw [query, hp]
  exact congrArg _ hfilter

end EveryElement

end Tree

namespace Page

variable {σ : Type} {page : Page σ}

/--
On every page that is reached, in parsed, copied and bound elements alike: an element is disabled, read-only or required
exactly if it carries the attribute, however its name is spelled. So the state and the attribute select the same elements,
and the state of an enabled one selects all others.
-/
theorem Reached.flags_shown (h : page.Reached) :
    (∀ x, page.tree.isElement x = true → ∀ flag : Flag, flag ≠ .checked → ∀ name,
      Text.asciiLower name = flag.attribute → page.tree.flag x flag = .ok (page.tree.hasAttr x name)) ∧
    page.document.selectAll ":disabled" = .ok (page.tree.elements.filter (page.tree.hasAttr · "disabled")) ∧
    page.document.selectAll "[disabled]" = .ok (page.tree.elements.filter (page.tree.hasAttr · "disabled")) ∧
    page.document.selectAll ":enabled" = .ok (page.tree.elements.filter (!page.tree.hasAttr · "disabled")) := by
  have ha : page.tree.EveryElement Markup.Element.Agrees := h.everyElement Markup.lasting_agrees
  have hstate : Selector.parse? ":disabled" = some (.ofTests [] [.disabled]) := by decide +kernel
  have hattribute : Selector.parse? "[disabled]" = some (.ofTests [⟨"disabled", none⟩] []) := by decide +kernel
  have henabled : Selector.parse? ":enabled" = some (.ofTests [] [.enabled]) := by decide +kernel
  have hcarries : ∀ x e, page.tree.element? x = some e →
      page.tree.hasAttr x "disabled" = e.attrs.contains "disabled" := fun x e he => by
    rw [Tree.hasAttr_of_element? he, show Text.asciiLower "disabled" = "disabled" by decide +kernel]
  refine ⟨fun x hx flag hflag name hname => ha.flag_eq hx hflag hname, ha.query_ofTests hstate fun x e he hagrees => ?_,
    ha.query_ofTests hattribute fun x e he hagrees => ?_, ha.query_ofTests henabled fun x e he hagrees => ?_⟩
  · simp [hcarries x e he, Selector.State.holds, hagrees.disabled]
  · simp [hcarries x e he, Selector.holds_carries]
  · simp [hcarries x e he, Selector.State.holds, hagrees.disabled]

/-- Whether `x` is an element that carries `name`, on a page where `count` elements carry the attribute of disabled ones. -/
def carries (page : Page Unit) (name : String) (count : Nat) (x : NodeId) : Bool :=
  page.tree.isElement x && page.tree.hasAttr x name &&
    (page.tree.elements.filter (page.tree.hasAttr · "disabled")).length == count

set_option maxRecDepth 10000 in
/-- Of the copies of a disabled control only the second one stays disabled, and a parsed fragment has another one. -/
theorem flags_shown_copies : ∃ (page : Page Unit) (x : NodeId) (xs : List NodeId), page.Reached ∧
    page.tree.isElement x = true ∧ page.tree.flag x .required = .ok true ∧ page.document.selectAll ":disabled" = .ok xs ∧
    page.document.selectAll "[disabled]" = .ok xs ∧ xs.length = 3 ∧
    page.document.selectAll ":enabled" = .ok (page.tree.elements.filter (!page.tree.hasAttr · "disabled")) := by
  have h : (Session.ofHtml ("<div ft-view-model='vm'>" ++
      "<p vm-foreach='$vm.model.items'><input DISABLED vm-js-bind='disabled::$i === 1'></p>" ++
      "<b vm-js-bind='innerHTML::`<i disabled></i>`' vm-attr-bind='Required::1'></b></div>") Session.twoItems).toOption.any
      (fun s => s.render.2.tree.elements.any (carries s.render.2.page "Required" 3)) = true := by
    decide +kernel
  obtain ⟨s, hs, hany⟩ := Session.exists_of_toOption_any h
  obtain ⟨x, -, hcheck⟩ := List.any_eq_true.1 hany
  simp only [carries, Bool.and_eq_true, beq_iff_eq] at hcheck
  obtain ⟨⟨hx, hname⟩, hcount⟩ := hcheck
  have hpage : s.render.2.page.Reached := (reached_ofHtml hs).step (.act s.page s.model .render)
  obtain ⟨hflags, hstate, hattribute, henabled⟩ := hpage.flags_shown
  have hrequired := hflags x hx .required (by decide) "Required" (by decide +kernel)
  rw [hname] at hrequired
  exact ⟨_, x, _, hpage, hx, hrequired, hstate, hattribute, hcount, henabled⟩

end Page

end ViewBinding
