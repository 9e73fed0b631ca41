import ViewBinding.Proofs.Page.Group
import ViewBinding.Proofs.Selector.Spelled

/-! Selecting elements of a page. What a selector selects is what its text means, in document order. -/
namespace ViewBinding

namespace Tree

variable {t : Tree} {text : String}

/-- The elements that a selector text selects, in document order. -/
structure Selected (t : Tree) (groups : List Selector.Group) (xs : List NodeId) : Prop where
  nodup : xs.Nodup
  ordered : xs.Pairwise t.Before
  mem_iff : ∀ x, x ∈ xs ↔ ∃ g ∈ groups, g.Selects t x

/-- A query finds what each group of the text selects, and nothing else. -/
theorem Whole.selected_of_parse? (ht : t.Whole) {selector : Selector} (hp : Selector.parse? text = some selector) :
    ∃ groups xs, Selector.Spelled text.toList groups ∧ t.query text = .ok xs ∧ t.Selected groups xs := by
  obtain ⟨groups, hspelled, hgroups⟩ := Selector.exists_of_parse? hp
  have hw := ht.wellFormed
  have hsub : (t.elements.filter (selector.holds t)).Sublist t.elements := List.filter_sublist
  have hholds : ∀ x, selector.holds t x = true ↔ ∃ g ∈ groups, g.Selects t x := fun x => by
    rw [Selector.holds, hgroups, List.any_map, List.any_eq_true]
    exact exists_congr fun g => and_congr_right fun _ => g.holds_complex_iff ht
  refine ⟨groups, t.elements.filter (selector.holds t), hspelled, by rw [query, hp], ?_⟩
  refine ⟨hw.nodup_elements.sublist hsub, hw.pairwise_before_elements.sublist hsub, fun x => ?_⟩
  rw [List.mem_filter, hholds, ht.mem_elements, and_iff_right_iff_imp]
  rintro ⟨g, -, hg⟩
  exact hg.isElement

end Tree

namespace Page

variable {σ : Type} {page : Page σ}

/--
On every page that is reached, and for every text that is read as a selector: a query finds an element once, in document order,
and exactly if a group of the text has elements for all its compounds, with that one for the last.
-/
theorem Reached.query_selected (h : page.Reached) {text : String} (hp : (Selector.parse? text).isSome = true) :
    ∃ groups xs, Selector.Spelled text.toList groups ∧ page.tree.query text = .ok xs ∧ page.tree.Selected groups xs := by
  obtain ⟨selector, hp⟩ := Option.isSome_iff_exists.1 hp
  exact h.whole.selected_of_parse? hp

set_option maxRecDepth 10000 in
/-- The way to an element leads over an ancestor that is not the nearest one, and over the sibling next to it. -/
theorem query_selected_backtracking : ∃ page : Page Unit, page.Reached ∧
    (Selector.parse? ".a > div p + b, em").isSome = true ∧ ∃ groups xs, Selector.Spelled ".a > div p + b, em".toList groups ∧
      page.tree.query ".a > div p + b, em" = .ok xs ∧ page.tree.Selected groups xs ∧ xs.length = 2 := by
  have h : (Document.parse "<em></em><div class='a'><div><div><p></p><b></b><b></b></div></div></div>").toOption.any (fun d =>
      (d.tree.query ".a > div p + b, em").toOption.any (·.length == 2)) = true := by
    decide +kernel
  obtain ⟨d, hd, hany⟩ := Session.exists_of_toOption_any h
  obtain ⟨found, hfound, hlength⟩ := Session.exists_of_toOption_any hany
  have hpage : Reached (⟨d, .empty, ()⟩ : Page Unit) := .parse hd _ _
  have hp : (Selector.parse? ".a > div p + b, em").isSome = true := by decide +kernel
  obtain ⟨groups, xs, hspelled, hquery, hselected⟩ := hpage.query_selected hp
  obtain rfl : found = xs := by
    have := hfound.symm.trans hquery
    exact Except.ok.inj this
  exact ⟨_, hpage, hp, groups, found, hspelled, hquery, hselected, beq_iff_eq.1 hlength⟩

end Page

end ViewBinding
