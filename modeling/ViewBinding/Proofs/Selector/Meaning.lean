import ViewBinding.Proofs.Text.Search
import ViewBinding.Proofs.Tree.Order
import ViewBinding.Selector.Match

/-! What a selector means. A group of compounds in the order of the text means that there is an element for each of them, the
selected one for the last, with neighbours standing to each other as the combinator between their compounds says. -/
namespace ViewBinding.Selector

variable {t : Tree} {x y : NodeId} {e : Markup.Element}

/-- How a value has to stand to the value of an attribute. -/
def AttributeOp.Meets (op : AttributeOp) (actual value : List Char) : Prop :=
  match op with
  | .equals => actual = value
  | .word => value ≠ [] ∧ Text.IsPiece Text.isAsciiBlank actual value
  | .startsWith => value ≠ [] ∧ value <+: actual
  | .endsWith => value ≠ [] ∧ value <:+ actual
  | .contains => value ≠ [] ∧ value <:+: actual

/-- The attribute is there, with a value as expected. -/
def AttributeTest.Meets (test : AttributeTest) (e : Markup.Element) : Prop :=
  ∃ actual, e.attrs.get? test.name = some actual ∧
    ∀ op value, test.expected = some (op, value) → op.Meets actual.toList value.toList

def State.Meets (state : State) (t : Tree) (x : NodeId) (e : Markup.Element) : Prop :=
  match state with
  | .firstChild => ∃ p, (t.elementChildren p).head? = some x
  | .lastChild => ∃ p, (t.elementChildren p).getLast? = some x
  | .checked => e.checked = true
  | .disabled => e.disabled = true
  | .enabled => e.disabled = false

/-- All tests of a compound hold of an element. -/
structure Compound.Holds (compound : Compound) (t : Tree) (x : NodeId) (e : Markup.Element) : Prop where
  tag : ∀ tag ∈ compound.tag, e.tag = tag
  id : ∀ id ∈ compound.id, e.attrs.get? "id" = some id
  classes : ∀ cls ∈ compound.classes,
    cls.toList ≠ [] ∧ Text.IsPiece Text.isBlank ((e.attrs.get? "class").getD "").toList cls.toList
  attributes : ∀ test ∈ compound.attributes, test.Meets e
  states : ∀ state ∈ compound.states, state.Meets t x e

/-- A node is an element that meets a compound. -/
def Compound.Meets (compound : Compound) (t : Tree) (x : NodeId) : Prop := ∃ e, t.element? x = some e ∧ compound.Holds t x e

/-- The relation of a combinator: the first node may be met to its left where the second one is met to its right. -/
def Combinator.Relates (combinator : Combinator) (t : Tree) (y x : NodeId) : Prop :=
  match combinator with
  | .descendant => t.Inside x y ∧ x ≠ y
  | .child => t.parent? x = some y
  | .adjacent => ∃ p, [y, x] <:+: t.elementChildren p
  | .sibling => ∃ p, [y, x].Sublist (t.elementChildren p)

/-- A group in the order of the text: its first compound and the others, each behind the combinator in front of it. -/
structure Group where
  first : Compound
  links : List (Combinator × Compound)

namespace Group

def compounds (g : Group) : List Compound := g.first :: g.links.map (·.2)

/-- Elements for the compounds of a group, with the combinators between them. -/
structure Assigns (g : Group) (t : Tree) (xs : List NodeId) : Prop where
  compounds : List.Forall₂ (fun compound x => compound.Meets t x) g.compounds xs
  combinators : ∀ i link y x, g.links[i]? = some link → xs[i]? = some y → xs[i + 1]? = some x → link.1.Relates t y x

/-- A node can be assigned to the last compound. -/
def Selects (g : Group) (t : Tree) (x : NodeId) : Prop := ∃ xs, g.Assigns t xs ∧ xs.getLast? = some x

/-- The group as it is matched, from the selected element to the left. -/
def complex (g : Group) : Complex :=
  g.links.foldl (fun complex link => ⟨link.2, (link.1, complex.subject) :: complex.chain⟩) ⟨g.first, []⟩

end Group

theorem AttributeOp.holds_iff (op : AttributeOp) (actual value : String) :
    op.holds actual value = true ↔ op.Meets actual.toList value.toList := by
  cases op with
  | equals => simp [holds, Meets, String.toList_inj]
  | word => simp [holds, Meets, Text.mem_words_iff]
  | startsWith => simp [holds, Meets]
  | endsWith => simp [holds, Meets]
  | contains => simp [holds, Meets, Text.isSome_find?]

theorem AttributeTest.holds_iff (test : AttributeTest) : test.holds e = true ↔ test.Meets e := by
  unfold holds Meets
  cases e.attrs.get? test.name with
  | none => simp
  | some actual =>
    cases test.expected with
    | none => simp
    | some expected => simp [AttributeOp.holds_iff, Prod.ext_iff]

theorem State.holds_iff (ht : t.Whole) (hx : t.isElement x = true) (state : State) :
    state.holds t x e = true ↔ state.Meets t x e := by
  cases state with
  | firstChild => rw [holds, List.isEmpty_iff, ht.elementsBefore_eq_nil_iff hx, Meets]
  | lastChild =>
    obtain ⟨p, l, r, hp, hlr, -⟩ := ht.exists_elementChildren hx
    rw [holds, Meets, ht.exists_elementChildren_iff (P := fun xs => xs.getLast? = some x) hp fun _ h => List.mem_of_mem_getLast? h]
    simp [hp]
  | checked => exact .rfl
  | disabled => exact .rfl
  | enabled => simp [holds, Meets]

theorem mem_classes_iff {cls : String} : cls ∈ e.classes ↔
    cls.toList ≠ [] ∧ Text.IsPiece Text.isBlank ((e.attrs.get? "class").getD "").toList cls.toList := by
  rw [Markup.Element.classes, ← Text.mem_words_iff, List.mem_map]
  constructor
  · rintro ⟨word, hword, rfl⟩
    rwa [String.toList_ofList]
  · exact fun h => ⟨_, h, String.ofList_toList⟩

theorem Compound.holds_iff (ht : t.Whole) (compound : Compound) : compound.holds t x = true ↔ compound.Meets t x := by
  unfold holds Meets
  cases he : t.element? x with
  | none => simp
  | some e =>
    have hx : t.isElement x = true := by rw [Tree.isElement, he]; rfl
    simp only [Bool.and_eq_true, List.all_eq_true, Option.all_eq_true, beq_iff_eq, AttributeTest.holds_iff, State.holds_iff ht hx,
      List.contains_iff_mem, mem_classes_iff, Option.some.injEq, exists_eq_left']
    constructor
    · rintro ⟨⟨⟨⟨htag, hid⟩, hclasses⟩, hattributes⟩, hstates⟩
      exact ⟨fun tag ht => (htag tag ht).symm, hid, hclasses, hattributes, hstates⟩
    · intro h
      exact ⟨⟨⟨⟨fun tag ht => (h.tag tag ht).symm, h.id⟩, h.classes⟩, h.attributes⟩, h.states⟩

/-- The candidates for a compound are the nodes in the relation of the combinator behind it. -/
theorem Combinator.mem_candidates_iff (ht : t.Whole) (hx : t.isElement x = true) (combinator : Combinator) :
    y ∈ combinator.candidates t x ↔ combinator.Relates t y x := by
  cases combinator with
  | descendant => exact ht.wellFormed.mem_ancestors_iff (ht.wellFormed.inUse_of_isElement hx)
  | child => rw [candidates, Option.mem_toList, Relates]
  | adjacent => rw [candidates, Relates, ← ht.head?_elementsBefore_iff hx, List.take_one, Option.mem_toList]
  | sibling => exact ht.mem_elementsBefore_iff hx

namespace Group

variable {first compound : Compound} {links : List (Combinator × Compound)} {combinator : Combinator} {xs : List NodeId}

theorem complex_concat : (Group.mk first (links ++ [(combinator, compound)])).complex =
    ⟨compound, (combinator, (Group.mk first links).complex.subject) :: (Group.mk first links).complex.chain⟩ := by
  rw [complex, List.foldl_append]
  rfl

theorem compounds_concat :
    (Group.mk first (links ++ [(combinator, compound)])).compounds = (Group.mk first links).compounds ++ [compound] := by
  simp [compounds]

theorem Assigns.length (h : (Group.mk first links).Assigns t xs) : xs.length = links.length + 1 := by
  simpa [Group.compounds] using h.compounds.length_eq.symm

theorem forall₂_concat_iff {α β : Type} {R : α → β → Prop} {as : List α} {bs : List β} {a : α} {b : β} :
    List.Forall₂ R (as ++ [a]) (bs ++ [b]) ↔ R a b ∧ List.Forall₂ R as bs := by
  rw [← List.forall₂_reverse_iff, List.reverse_concat, List.reverse_concat, List.forall₂_cons, List.forall₂_reverse_iff]

/-- What is selected is an element. -/
theorem Selects.isElement {g : Group} (h : g.Selects t x) : t.isElement x = true := by
  obtain ⟨xs, hxs, hlast⟩ := h
  obtain ⟨front, rfl⟩ := List.getLast?_eq_some_iff.1 hlast
  obtain ⟨compounds, compound, hcompounds⟩ : ∃ compounds compound, g.compounds = compounds ++ [compound] :=
    ⟨_, _, (List.dropLast_append_getLast (List.cons_ne_nil _ _)).symm⟩
  have hparts := hxs.compounds
  rw [hcompounds, forall₂_concat_iff] at hparts
  obtain ⟨e, he, -⟩ := hparts.1
  rw [Tree.isElement, he]
  rfl

/-- One more compound takes one more element, in the relation of its combinator to the last one. -/
theorem assigns_concat_iff : (Group.mk first (links ++ [(combinator, compound)])).Assigns t (xs ++ [x]) ↔
    compound.Meets t x ∧ (Group.mk first links).Assigns t xs ∧ ∃ y, xs.getLast? = some y ∧ combinator.Relates t y x := by
  constructor
  · intro h
    have hcompounds := h.compounds
    rw [compounds_concat, forall₂_concat_iff] at hcompounds
    have hlen : xs.length = links.length + 1 := by simpa using h.length
    obtain ⟨y, hy⟩ : ∃ y, xs[links.length]? = some y := ⟨_, List.getElem?_eq_getElem (by omega)⟩
    refine ⟨hcompounds.1, ⟨hcompounds.2, fun i link y z hlink hy hz => ?_⟩, y, ?_, ?_⟩
    · have hi : i < links.length := (List.getElem?_eq_some_iff.1 hlink).1
      refine h.combinators i link y z ?_ ?_ ?_
      · rwa [List.getElem?_append_left hi]
      · rwa [List.getElem?_append_left (by omega)]
      · rwa [List.getElem?_append_left (by omega)]
    · rw [List.getLast?_eq_getElem?, hlen, Nat.add_sub_cancel, hy]
    · refine h.combinators links.length (combinator, compound) _ _ (by simp) ?_ ?_
      · rw [List.getElem?_append_left (by omega), hy]
      · rw [← hlen, List.getElem?_concat_length]
  · rintro ⟨hx, h, y, hy, hyx⟩
    have hlen : xs.length = links.length + 1 := h.length
    rw [List.getLast?_eq_getElem?, hlen, Nat.add_sub_cancel] at hy
    refine ⟨by rw [compounds_concat]; exact forall₂_concat_iff.2 ⟨hx, h.compounds⟩, fun i link y' z hlink hy' hz => ?_⟩
    have hi : i < links.length + 1 := by simpa using (List.getElem?_eq_some_iff.1 hlink).1
    rw [List.getElem?_append_left (by omega)] at hy'
    -- the last link leads to the new element, and the others do not reach it
    rcases Nat.lt_succ_iff_lt_or_eq.1 hi with hi | rfl
    · rw [List.getElem?_append_left hi] at hlink
      rw [List.getElem?_append_left (by omega)] at hz
      exact h.combinators i link y' z hlink hy' hz
    · rw [List.getElem?_concat_length] at hlink
      rw [← hlen, List.getElem?_concat_length] at hz
      obtain rfl := Option.some.inj hlink
      obtain rfl := Option.some.inj hz
      obtain rfl := Option.some.inj (hy.symm.trans hy')
      exact hyx

/-- The matching from the right to the left finds elements for all compounds if there are some. -/
theorem holds_complex_iff (ht : t.Whole) (g : Group) : g.complex.holds t x = true ↔ g.Selects t x := by
  obtain ⟨first, links⟩ := g
  induction links using List.reverseRecOn generalizing x with
  | nil =>
    have hone : ∀ {xs}, (Group.mk first []).Assigns t xs → xs.length = 1 := fun h => h.length
    rw [complex, List.foldl_nil, Complex.holds, chainHolds, Bool.and_true, first.holds_iff ht]
    constructor
    · intro hx
      exact ⟨[x], ⟨.cons hx .nil, fun i link y z hlink => by cases hlink⟩, rfl⟩
    · rintro ⟨xs, h, hlast⟩
      obtain ⟨z, rfl⟩ := List.length_eq_one_iff.1 (hone h)
      obtain rfl := Option.some.inj hlast
      exact (List.forall₂_cons.1 h.compounds).1
  | append_singleton links link ih =>
    obtain ⟨combinator, compound⟩ := link
    have hstep : ∀ y, ((Group.mk first links).complex.subject.holds t y &&
        chainHolds t (Group.mk first links).complex.chain y) = true ↔ (Group.mk first links).Selects t y := fun y => ih
    rw [complex_concat, Complex.holds, chainHolds, Bool.and_eq_true, compound.holds_iff ht, List.any_eq_true]
    simp only [hstep]
    have hcandidates : compound.Meets t x → ∀ y, y ∈ combinator.candidates t x ↔ combinator.Relates t y x := by
      rintro ⟨e, he, -⟩ y
      exact combinator.mem_candidates_iff ht (by rw [Tree.isElement, he]; rfl)
    constructor
    · rintro ⟨hx, y, hy, xs, hxs, hlast⟩
      have hrel := (hcandidates hx y).1 hy
      exact ⟨xs ++ [x], assigns_concat_iff.2 ⟨hx, hxs, y, hlast, hrel⟩, by simp⟩
    · rintro ⟨ws, hws, hlast⟩
      obtain ⟨xs, rfl⟩ := List.getLast?_eq_some_iff.1 hlast
      obtain ⟨hx, hxs, y, hy, hrel⟩ := assigns_concat_iff.1 hws
      exact ⟨hx, y, (hcandidates hx y).2 hrel, xs, hxs, hy⟩

end Group

end ViewBinding.Selector
