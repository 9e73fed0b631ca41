import ViewBinding.Proofs.Markup.Regular

/-! What markup that has been read is like. A start tag ends the open elements that it cannot stand in before its own
element opens, so no start tag in a finished tree would end one of the elements around it. -/
namespace ViewBinding.Markup

/-- Whether a rule ends one of the open elements, whose names come the innermost first. -/
def ImpliedEnd.finds (rule : ImpliedEnd) : List String → Bool
  | [] => false
  | tag :: above => tag == rule.ends || (!rule.barriers.contains tag && rule.finds above)

/-- An element below others, whose names come the innermost first. Its start tag ends none of them. -/
structure Fits (above : List String) (e : Element) : Prop where
  name : ElementName e.tag
  attrs : ∀ a ∈ e.attrs.entries, AttributeName a.1
  state : e = .new e.tag e.attrs
  alone : ∀ rule ∈ impliedEnds, e.tag ∈ rule.triggers → rule.finds above = false

/-- What may be in an element of a name: nothing, no more than one text, or anything. -/
structure Suits (tag : String) (children : List Markup) : Prop where
  void : isVoid tag = true → children = []
  raw : isRawText tag = true → children = [] ∨ ∃ s, children = [.text s]

mutual

/-- Markup that a text can be read as, below elements of the given names. -/
def Sound (above : List String) : Markup → Prop
  | .text s => s ≠ ""
  | .element e children => Fits above e ∧ Suits e.tag children ∧ SoundAll (e.tag :: above) children

def SoundAll (above : List String) : List Markup → Prop
  | [] => True
  | m :: rest => Sound above m ∧ SoundAll above rest

end

theorem soundAll_iff {above : List String} {ms : List Markup} :
    SoundAll above ms ↔ ∀ m ∈ ms, Sound above m := by
  induction ms with
  | nil => simp [SoundAll]
  | cons m ms ih => rw [SoundAll, ih, List.forall_mem_cons]

theorem SoundAll.reverse {above : List String} {ms : List Markup} (h : SoundAll above ms) :
    SoundAll above ms.reverse :=
  soundAll_iff.2 fun m hm => soundAll_iff.1 h m (List.mem_reverse.1 hm)

theorem isVoid_of_isRawText {tag : String} (h : isRawText tag = true) : isVoid tag = false := by
  have hraw : tag ∈ ["script", "style", "title", "textarea"] := List.contains_iff_mem.1 h
  have hall : ["script", "style", "title", "textarea"].all (fun t => !isVoid t) = true := by decide +kernel
  exact Bool.not_eq_true' _ ▸ List.all_eq_true.1 hall tag hraw

namespace Growth

/-- The names of open elements. -/
def names (stack : List OpenElement) : List String := stack.map (·.element.tag)

/-- Open elements that fit into each other and hold sound markup. -/
def SoundStack : List OpenElement → Prop
  | [] => True
  | top :: rest =>
    Fits (names rest) top.element ∧ (isVoid top.element.tag = false ∧ isRawText top.element.tag = false) ∧
      SoundAll (top.element.tag :: names rest) top.children ∧ SoundStack rest

structure Sound (g : Growth) : Prop where
  stack : SoundStack g.stack
  done : SoundAll [] g.done

variable {g : Growth} {m : Markup}

theorem sound_start : start.Sound := ⟨trivial, trivial⟩

theorem names_add (g : Growth) (m : Markup) : names (g.add m).stack = names g.stack := by
  obtain ⟨_ | ⟨top, rest⟩, done⟩ := g <;> rfl

theorem sound_add (hg : g.Sound) (hm : m.Sound (names g.stack)) : (g.add m).Sound := by
  obtain ⟨_ | ⟨top, rest⟩, done⟩ := g
  · exact ⟨trivial, hm, hg.done⟩
  · obtain ⟨hfits, hplain, hchildren, hrest⟩ := hg.stack
    exact ⟨⟨hfits, hplain, ⟨hm, hchildren⟩, hrest⟩, hg.done⟩

/-- An open element that ends is sound markup below the others. -/
theorem sound_element {top : OpenElement} {rest : List OpenElement} (h : SoundStack (top :: rest)) :
    Markup.Sound (names rest) (.element top.element top.children.reverse) := by
  obtain ⟨hfits, ⟨hvoid, hraw⟩, hchildren, -⟩ := h
  refine ⟨hfits, ⟨fun hv => ?_, fun hr => ?_⟩, hchildren.reverse⟩
  · rw [hvoid] at hv
    cases hv
  · rw [hraw] at hr
    cases hr

theorem close_spec (n : Nat) (hg : g.Sound) :
    (close n g).Sound ∧ names (close n g).stack = (names g.stack).drop n := by
  induction n generalizing g with
  | zero => exact ⟨hg, rfl⟩
  | succ n ih =>
    obtain ⟨_ | ⟨top, rest⟩, done⟩ := g
    · exact ⟨hg, rfl⟩
    · have hrest : Growth.Sound ⟨rest, done⟩ := ⟨hg.stack.2.2.2, hg.done⟩
      obtain ⟨hsound, hnames⟩ := ih (sound_add hrest (sound_element hg.stack))
      refine ⟨hsound, hnames.trans ?_⟩
      rw [names_add]
      rfl

/-- A rule finds an element if it ends one. -/
theorem depthOf?_eq_none_iff (rule : ImpliedEnd) (stack : List OpenElement) :
    depthOf? rule.ends rule.barriers stack = none ↔ rule.finds (names stack) = false := by
  induction stack with
  | nil => simp [depthOf?, names, ImpliedEnd.finds]
  | cons top rest ih =>
    rw [depthOf?, names, List.map_cons, ImpliedEnd.finds]
    by_cases hends : top.element.tag = rule.ends
    · simp [hends]
    · by_cases hbarrier : rule.barriers.contains top.element.tag = true
      · rw [if_neg hends, if_pos hbarrier, hbarrier, beq_eq_false_iff_ne.2 hends]
        simp
      · rw [if_neg hends, if_neg hbarrier, Option.map_eq_none_iff, ih, Bool.eq_false_iff.2 hbarrier,
          beq_eq_false_iff_ne.2 hends, Bool.false_or, Bool.not_false, Bool.true_and]
        rfl

theorem ends_mem_triggers {rule : ImpliedEnd} (h : rule ∈ impliedEnds) : rule.ends ∈ rule.triggers := by
  have hall : impliedEnds.all (fun rule => rule.triggers.contains rule.ends) = true := by decide +kernel
  exact List.contains_iff_mem.1 (List.all_eq_true.1 hall rule h)

/-- The element that a rule ends had been subject to the rule itself: the rule finds no other one around it. -/
theorem finds_drop {rule : ImpliedEnd} (hrule : rule ∈ impliedEnds) {stack : List OpenElement} (hs : SoundStack stack)
    {n : Nat} (h : depthOf? rule.ends rule.barriers stack = some n) : rule.finds ((names stack).drop n) = false := by
  induction stack generalizing n with
  | nil => cases h
  | cons top rest ih =>
    rw [depthOf?] at h
    split at h
    · next heq =>
      obtain rfl := Option.some.inj h
      exact hs.1.alone rule hrule (heq ▸ ends_mem_triggers hrule)
    · split at h
      · cases h
      · obtain ⟨n, hn, rfl⟩ := Option.map_eq_some_iff.1 h
        exact ih hs.2.2.2 hn

theorem sound_closeNearest (hg : g.Sound) (name : String) (barriers : List String) : (g.closeNearest name barriers).Sound := by
  unfold closeNearest
  split
  · exact (close_spec _ hg).1
  · exact hg

/-- After a rule has ended an element it finds none any more. -/
theorem finds_closeNearest {rule : ImpliedEnd} (hrule : rule ∈ impliedEnds) (hg : g.Sound) :
    rule.finds (names (g.closeNearest rule.ends rule.barriers).stack) = false := by
  unfold closeNearest
  split
  · next n h =>
    rw [(close_spec n hg).2]
    exact finds_drop hrule hg.stack h
  · next h => exact (depthOf?_eq_none_iff rule g.stack).1 h

theorem applyRule_of_notMem {name : String} {rule : ImpliedEnd} (h : name ∉ rule.triggers) (g : Growth) :
    applyRule name g rule = g := by
  rw [applyRule, if_neg]
  rwa [List.contains_iff_mem]

/-- Rules that change nothing one by one change nothing together. -/
theorem foldl_applyRule_eq_self {name : String} {rules : List ImpliedEnd}
    (h : ∀ rule ∈ rules, applyRule name g rule = g) : rules.foldl (applyRule name) g = g := by
  induction rules with
  | nil => rfl
  | cons rule rules ih =>
    obtain ⟨hrule, hrules⟩ := List.forall_mem_cons.1 h
    rw [List.foldl_cons, hrule, ih hrules]

/-- A start tag is subject to one rule at most. -/
theorem pairwise_impliedEnds :
    impliedEnds.Pairwise fun first second => ∀ name ∈ first.triggers, name ∉ second.triggers := by
  decide +kernel

/-- The start tag that follows ends none of the open elements any more. -/
theorem foldl_applyRule_spec {name : String} {rules : List ImpliedEnd} (hsub : rules ⊆ impliedEnds)
    (hpair : rules.Pairwise fun first second => ∀ name ∈ first.triggers, name ∉ second.triggers) (hg : g.Sound) :
    (rules.foldl (applyRule name) g).Sound ∧
      ∀ rule ∈ rules, name ∈ rule.triggers → rule.finds (names (rules.foldl (applyRule name) g).stack) = false := by
  induction rules with
  | nil => exact ⟨hg, by simp⟩
  | cons rule rules ih =>
    obtain ⟨hrule, hrules⟩ := List.cons_subset.1 hsub
    obtain ⟨hlater, hpair⟩ := List.pairwise_cons.1 hpair
    -- the first rule that the name triggers is the only one, so what it leaves is what the fold leaves
    by_cases hname : name ∈ rule.triggers
    · have hrest : ∀ r ∈ rules, name ∉ r.triggers := fun r hr => hlater r hr name hname
      have hfold : (rule :: rules).foldl (applyRule name) g = g.closeNearest rule.ends rule.barriers := by
        rw [List.foldl_cons, foldl_applyRule_eq_self fun r hr => applyRule_of_notMem (hrest r hr) _, applyRule,
          if_pos (List.contains_iff_mem.2 hname)]
      rw [hfold]
      refine ⟨sound_closeNearest hg _ _, fun r hr hn => ?_⟩
      rcases List.mem_cons.1 hr with rfl | hr
      · exact finds_closeNearest hrule hg
      · exact absurd hn (hrest r hr)
    · obtain ⟨hsound, hfinds⟩ := ih hrules hpair
      rw [List.foldl_cons, applyRule_of_notMem hname]
      refine ⟨hsound, fun r hr hn => ?_⟩
      rcases List.mem_cons.1 hr with rfl | hr
      · exact absurd hn hname
      · exact hfinds r hr hn

theorem sound_applyImpliedEnds (hg : g.Sound) (name : String) : (g.applyImpliedEnds name).Sound :=
  (foldl_applyRule_spec (List.Subset.refl _) pairwise_impliedEnds hg).1

/-- The element of a start tag fits where its tag has made room. -/
theorem fits_applyImpliedEnds (hg : g.Sound) {tag : StartTag} (htag : tag.Regular) :
    Fits (names (g.applyImpliedEnds tag.name).stack) (.new tag.name tag.attrs) where
  name := htag.name
  attrs := htag.attrs
  state := rfl
  alone := (foldl_applyRule_spec (List.Subset.refl _) pairwise_impliedEnds hg).2

/-- What a piece adds leaves the markup sound. -/
theorem sound_step (hg : g.Sound) {p : Piece} (hp : p.Regular) : (g.step p).Sound := by
  cases hp with
  | text hs => exact sound_add hg hs
  | stop name => exact sound_closeNearest hg name []
  | @start tag htag hraw =>
    have hends := sound_applyImpliedEnds hg tag.name
    have hfits := fits_applyImpliedEnds hg htag
    simp only [step]
    split
    · exact sound_add hends ⟨hfits, ⟨fun _ => rfl, fun _ => .inl rfl⟩, trivial⟩
    · next hopen =>
      obtain ⟨hself, hvoid⟩ := Bool.or_eq_false_iff.1 (Bool.eq_false_iff.2 hopen)
      have hplain : isRawText tag.name = false := by
        refine Bool.eq_false_iff.2 fun h => ?_
        rw [hraw h] at hself
        cases hself
      exact ⟨⟨hfits, ⟨hvoid, hplain⟩, trivial, hends.stack⟩, hends.done⟩
  | @raw tag body htag hraw =>
    have hends := sound_applyImpliedEnds hg tag.name
    have hfits := fits_applyImpliedEnds hg htag
    have hvoid : isVoid tag.name ≠ true := Bool.eq_false_iff.1 (isVoid_of_isRawText hraw)
    simp only [step]
    split
    · exact sound_add hends ⟨hfits, ⟨fun hv => absurd hv hvoid, fun _ => .inl rfl⟩, trivial⟩
    · next hbody =>
      have hne : body ≠ "" := fun h => hbody (h ▸ rfl)
      exact sound_add hends ⟨hfits, ⟨fun hv => absurd hv hvoid, fun _ => .inr ⟨body, rfl⟩⟩, hne, trivial⟩

theorem sound_foldl_step (hg : g.Sound) {ps : List Piece} (hps : ∀ p ∈ ps, p.Regular) : (ps.foldl step g).Sound := by
  induction ps generalizing g with
  | nil => exact hg
  | cons p ps ih =>
    obtain ⟨hp, hps⟩ := List.forall_mem_cons.1 hps
    exact ih (sound_step hg hp) hps

end Growth

/-- Every forest of regular pieces is sound. -/
theorem soundAll_forest {ps : List Piece} (hps : ∀ p ∈ ps, p.Regular) : SoundAll [] (forest ps) :=
  (Growth.close_spec _ (Growth.sound_foldl_step Growth.sound_start hps)).1.done.reverse

end ViewBinding.Markup
