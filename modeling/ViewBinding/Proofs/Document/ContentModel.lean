import ViewBinding.Proofs.Markup.Joined
import ViewBinding.Proofs.Session.Reached
import ViewBinding.Proofs.Tree.Order

/-! What start tags end by implication. In the tree of a page that has been read, no element is where its own start tag would have
ended an element around it. -/
namespace ViewBinding

open Branch
open Markup (ImpliedEnd impliedEnds SoundAll seedAll)

namespace Tree

variable {t : Tree} {p x y : NodeId} {names : List String} {rule : ImpliedEnd}

/-- An element with one of these names. -/
def Tagged (t : Tree) (names : List String) (x : NodeId) : Prop := ∃ e, t.element? x = some e ∧ e.tag ∈ names

/-- Around `x`, but inside `y`, there is an element with one of these names. -/
def Between (t : Tree) (names : List String) (x y : NodeId) : Prop :=
  ∃ z ∈ t.ancestors x, y ∈ t.ancestors z ∧ t.Tagged names z

/-- From `x` on outwards the elements have these names. -/
inductive Named (t : Tree) : NodeId → List String → Prop
  | document {x : NodeId} (he : t.element? x = none) (hp : t.parent? x = none) : Named t x []
  | element {x p : NodeId} {e : Markup.Element} {names : List String} (he : t.element? x = some e)
      (hp : t.parent? x = some p) (h : Named t p names) : Named t x (e.tag :: names)

/-- A rule that finds no element to end meets a barrier before it meets such an element. -/
theorem Named.exists_barrier (h : t.Named x names) (hfinds : rule.finds names = false) (hxy : t.Inside x y)
    (hy : t.Tagged [rule.ends] y) : ∃ z, t.Inside x z ∧ t.Inside z y ∧ z ≠ y ∧ t.Tagged rule.barriers z := by
  obtain ⟨ey, hey, hends⟩ := hy
  rw [List.mem_singleton] at hends
  induction h with
  | document he hp =>
    rcases hxy.eq_or_up with rfl | ⟨q, hq, -⟩
    · rw [he] at hey
      cases hey
    · rw [hp] at hq
      cases hq
  | @element x p e names he hp _ ih =>
    simp only [ImpliedEnd.finds, Bool.or_eq_false_iff, beq_eq_false_iff_ne, Bool.and_eq_false_iff, Bool.not_eq_false',
      List.contains_iff_mem] at hfinds
    obtain ⟨htag, hrest⟩ := hfinds
    have hne : x ≠ y := by
      rintro rfl
      rw [he] at hey
      exact htag (Option.some.inj hey ▸ hends)
    obtain ⟨q, hq, hqy⟩ := hxy.eq_or_up.resolve_left hne
    obtain rfl := Option.some.inj (hp.symm.trans hq)
    -- `x` is a barrier itself, or the rule has looked further out
    rcases hrest with hbarrier | hfinds
    · exact ⟨x, .refl t x, hxy, hne, e, he, hbarrier⟩
    · obtain ⟨z, hpz, hzy⟩ := ih hfinds hqy
      exact ⟨z, .up hp hpz, hzy⟩

/-- The start tag of an element ends none of the elements around it. -/
def Settled (t : Tree) (x : NodeId) : Prop :=
  ∀ e, t.element? x = some e → ∃ p names, t.parent? x = some p ∧ t.Named p names ∧
    ∀ rule ∈ impliedEnds, e.tag ∈ rule.triggers → rule.finds names = false

theorem Settled.between (ht : t.WellFormed) (h : t.Settled x) (hrule : rule ∈ impliedEnds) (hx : t.Tagged rule.triggers x)
    (hxy : y ∈ t.ancestors x) (hy : t.Tagged [rule.ends] y) : t.Between rule.barriers x y := by
  obtain ⟨e, he, htriggers⟩ := hx
  obtain ⟨p, names, hp, hnamed, hfinds⟩ := h e he
  have hu : t.InUse x := ht.inUse_of_parent? hp
  obtain ⟨hinside, hne⟩ := (ht.mem_ancestors_iff hu).1 hxy
  obtain ⟨q, hq, hqy⟩ := hinside.eq_or_up.resolve_left hne
  obtain rfl := Option.some.inj (hp.symm.trans hq)
  obtain ⟨z, hpz, hzy, hzne, hz⟩ := hnamed.exists_barrier (hfinds rule hrule htriggers) hqy hy
  have hxz : x ≠ z := by
    rintro rfl
    exact ht.not_inside_of_parent? hp hpz
  exact ⟨z, (ht.mem_ancestors_iff hu).2 ⟨.up hp hpz, hxz⟩,
    (ht.mem_ancestors_iff (ht.inUse_of_inside hu (.up hp hpz))).2 ⟨hzy, hzne⟩, hz⟩

end Tree

namespace Markup

variable {t : Tree}

mutual

/-- Where sound markup is spelled out below elements of the names that it is sound for, every element is settled. -/
theorem Sound.settled {p : NodeId} {names : List String} {m : Markup} {b : Branch} (hm : m.Sound names) (hs : Spells m.seed b)
    (hb : t.Holds (some p) b) (hp : t.Named p names) : ∀ x ∈ b.handles, t.Settled x := by
  cases m with
  | text s =>
    obtain ⟨id, rfl⟩ := hs
    intro x hx e he
    obtain rfl : x = id := by simpa using hx
    cases hb.element?.symm.trans he
  | element e children =>
    obtain ⟨id, cs, rfl, hcs⟩ := hs
    have he : t.element? id = some (seeded e children) := hb.element?
    have hid : t.Named id (e.tag :: names) := seeded_tag e children ▸ .element he hb.parent? hp
    rw [handles_node, List.forall_mem_cons]
    refine ⟨fun e' he' => ?_, SoundAll.settled hm.2.2 hcs (Tree.holds_node.1 hb).2 hid⟩
    obtain rfl := Option.some.inj (he.symm.trans he')
    exact ⟨p, names, hb.parent?, hp, fun rule hrule htriggers => hm.1.alone rule hrule (seeded_tag e children ▸ htriggers)⟩

theorem SoundAll.settled {p : NodeId} {names : List String} {ms : List Markup} {bs : List Branch} (hms : SoundAll names ms)
    (hs : SpellsAll (seedAll ms) bs) (hbs : ∀ b ∈ bs, t.Holds (some p) b) (hp : t.Named p names) :
    ∀ x ∈ bs.flatMap handles, t.Settled x := by
  cases ms with
  | nil =>
    obtain rfl : bs = [] := hs
    simp
  | cons m ms =>
    obtain ⟨b, bs, rfl, hb, hrest⟩ := hs
    rw [List.flatMap_cons, List.forall_mem_append]
    rw [List.forall_mem_cons] at hbs
    exact ⟨Sound.settled hms.1 hb hbs.1 hp, SoundAll.settled hms.2 hrest hbs.2 hp⟩

end

end Markup

namespace Document

/-- The names of the elements whose start tags end a paragraph. -/
def paragraphEnding : List String :=
  ["address", "article", "aside", "blockquote", "details", "div", "dl", "fieldset", "figcaption", "figure", "footer", "form",
   "h1", "h2", "h3", "h4", "h5", "h6", "header", "hr", "main", "nav", "ol", "p", "pre", "section", "table", "ul"]

/-- Paragraphs hold no blocks, and items and options hold each other only across a list or a group of their own. -/
structure ContentModel (t : Tree) : Prop where
  paragraph : ∀ x, t.Tagged paragraphEnding x → ∀ y ∈ t.ancestors x, ¬t.Tagged ["p"] y
  item : ∀ x, t.Tagged ["li"] x → ∀ y ∈ t.ancestors x, t.Tagged ["li"] y → t.Between ["ol", "ul", "menu"] x y
  option : ∀ x, t.Tagged ["option", "optgroup"] x → ∀ y ∈ t.ancestors x, t.Tagged ["option"] y →
    t.Between ["optgroup", "select", "datalist"] x y

/-- The tree of a page is that of sound markup. -/
theorem exists_soundAll_of_parse {html : String} {d : Document} (h : parse html = .ok d) :
    ∃ ms, SoundAll [] ms ∧ d.tree = .ofMarkup (seedAll ms) := by
  unfold parse at h
  split at h
  · next content hcontent =>
    cases h
    obtain ⟨ps, hps, hread⟩ := Markup.exists_of_bind_eq_ok hcontent
    obtain rfl := Except.ok.inj hread
    exact ⟨Markup.forest ps, Markup.soundAll_forest (Markup.regular_of_pieces hps), rfl⟩
  · cases h

end Document

theorem Tree.settled_ofMarkup {ms : List Markup} (hms : SoundAll [] ms) (x : NodeId) : (ofMarkup (seedAll ms)).Settled x := by
  obtain ⟨cs, hspells, hr, -⟩ := represents_ofMarkup (seedAll ms)
  have hroot := hr.holds _ (List.mem_singleton_self _)
  intro e he
  have hx := hr.mem_handles_iff.2 ((wellFormed_ofMarkup _).inUse_of_element? he)
  rw [List.flatMap_singleton, handles_node, List.mem_cons] at hx
  rcases hx with rfl | hx
  · cases hroot.element?.symm.trans he
  · exact hms.settled hspells (holds_node.1 hroot).2 (.document hroot.element? hroot.parent?) x hx e he

/-- Whatever the markup is, and however its tags are nested and left open: if it can be read, its tree keeps the content model. -/
theorem Document.contentModel_of_parse {html : String} {d : Document} (h : parse html = .ok d) : ContentModel d.tree := by
  obtain ⟨ms, hms, htree⟩ := exists_soundAll_of_parse h
  rw [htree]
  generalize ht : Tree.ofMarkup (seedAll ms) = t
  have hbetween : ∀ rule ∈ impliedEnds, ∀ x, t.Tagged rule.triggers x → ∀ y ∈ t.ancestors x,
      t.Tagged [rule.ends] y → t.Between rule.barriers x y := fun rule hrule x hx y hxy hy =>
    (ht ▸ Tree.settled_ofMarkup hms x).between (ht ▸ Tree.wellFormed_ofMarkup _) hrule hx hxy hy
  simp only [impliedEnds, List.forall_mem_cons] at hbetween
  obtain ⟨hitem, hoption, hparagraph, -⟩ := hbetween
  refine ⟨fun x hx y hxy hy => ?_, hitem, hoption⟩
  obtain ⟨z, -, -, e, -, hnone⟩ := hparagraph x hx y hxy hy
  cases hnone

namespace Document

/-- Items in items, a block in a paragraph and options in an option, with end tags that are missing or match nothing. -/
def loosePageOfLists : String :=
  "<ul><li><b>a<ol><li>b<li>c</ol>d</i><li><p>e<div>f</p>g</ul><select><option>h<option><datalist><option>i<optgroup><option>j"

theorem contentModel_of_parse_lists : ∃ d, parse loosePageOfLists = .ok d ∧
    d.dump = "<ul><li><b>a<ol><li>b</li><li>c</li></ol>d</b></li><li><p>e</p><div>fg</div></li></ul>" ++
      "<select><option>h</option><option><datalist><option>i</option><optgroup><option>j</option></optgroup></datalist>" ++
        "</option></select>" ∧ ContentModel d.tree := by
  have hdump : (parse loosePageOfLists).toOption.map (·.dump) = some
      ("<ul><li><b>a<ol><li>b</li><li>c</li></ol>d</b></li><li><p>e</p><div>fg</div></li></ul>" ++
        "<select><option>h</option><option><datalist><option>i</option><optgroup><option>j</option></optgroup></datalist>" ++
          "</option></select>") := by decide +kernel
  cases hd : parse loosePageOfLists with
  | error e =>
    rw [hd] at hdump
    cases hdump
  | ok d =>
    rw [hd] at hdump
    exact ⟨d, rfl, Option.some.inj hdump, contentModel_of_parse hd⟩

end Document

end ViewBinding
