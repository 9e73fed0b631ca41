import ViewBinding.Proofs.Selector.Meaning

/-! The texts of selectors. A text that is read as a selector is one of its groups after the other with commas in between, a
group its compounds in order with the mark of a combinator or blanks in between, and a compound a tag with tests behind it. -/
namespace ViewBinding.Selector

def Blanks (text : List Char) : Prop := ∀ c ∈ text, Text.isAsciiBlank c = true

/-- One or more characters of a class. -/
structure Name (p : Char → Bool) (text : List Char) : Prop where
  ne_nil : text ≠ []
  all : ∀ c ∈ text, p c = true

/-- The text of a value. One without quotes has no blank and no closing bracket in it, and no quote in front. -/
inductive ValueText : List Char → String → Prop
  | quoted {quote : Char} {value : List Char} (hquote : quote = '"' ∨ quote = '\'') (h : quote ∉ value) :
    ValueText (quote :: (value ++ [quote])) (String.ofList value)
  | plain {value : List Char} (h : Name (fun c => !Text.isAsciiBlank c && c != ']') value)
    (hhead : ∀ c ∈ value.head?, c ≠ '"' ∧ c ≠ '\'') : ValueText value (String.ofList value)

def AttributeOp.mark : AttributeOp → List Char
  | .equals => ['=']
  | .startsWith => ['^', '=']
  | .endsWith => ['$', '=']
  | .contains => ['*', '=']
  | .word => ['~', '=']

/-- The text of a test of an attribute between its brackets. -/
inductive AttributeText : List Char → AttributeTest → Prop
  | present {a name b : List Char} (ha : Blanks a) (hname : Name isAttributeNameChar name) (hb : Blanks b) :
    AttributeText (a ++ name ++ b) ⟨Text.asciiLower (String.ofList name), none⟩
  | compared {a name b c text d : List Char} {op : AttributeOp} {value : String} (ha : Blanks a)
    (hname : Name isAttributeNameChar name) (hb : Blanks b) (hc : Blanks c) (hvalue : ValueText text value) (hd : Blanks d) :
    AttributeText (a ++ name ++ b ++ op.mark ++ c ++ text ++ d) ⟨Text.asciiLower (String.ofList name), some (op, value)⟩

def State.name : State → String
  | .firstChild => "first-child"
  | .lastChild => "last-child"
  | .checked => "checked"
  | .disabled => "disabled"
  | .enabled => "enabled"

/-- The text of a compound, which may be empty here: a star, a tag or neither, and its tests in order. -/
inductive CompoundText : List Char → Compound → Prop
  | bare : CompoundText [] ⟨none, none, [], [], []⟩
  | star : CompoundText ['*'] ⟨none, none, [], [], []⟩
  | tag {name : List Char} (h : Name isIdentChar name) :
    CompoundText name ⟨some (Text.asciiLower (String.ofList name)), none, [], [], []⟩
  | id {text name : List Char} {c : Compound} (hc : CompoundText text c) (hnone : c.id = none) (h : Name isIdentChar name) :
    CompoundText (text ++ '#' :: name) { c with id := some (String.ofList name) }
  | cls {text name : List Char} {c : Compound} (hc : CompoundText text c) (h : Name isIdentChar name) :
    CompoundText (text ++ '.' :: name) { c with classes := c.classes ++ [String.ofList name] }
  | attribute {text inner : List Char} {c : Compound} {test : AttributeTest} (hc : CompoundText text c)
    (h : AttributeText inner test) :
    CompoundText (text ++ '[' :: (inner ++ [']'])) { c with attributes := c.attributes ++ [test] }
  | state {text : List Char} {c : Compound} (hc : CompoundText text c) (state : State) :
    CompoundText (text ++ ':' :: state.name.toList) { c with states := c.states ++ [state] }

/-- What stands between two compounds. -/
inductive LinkText : List Char → Combinator → Prop
  | descendant {a : List Char} (ha : Blanks a) (hne : a ≠ []) : LinkText a .descendant
  | child {a b : List Char} (ha : Blanks a) (hb : Blanks b) : LinkText (a ++ '>' :: b) .child
  | adjacent {a b : List Char} (ha : Blanks a) (hb : Blanks b) : LinkText (a ++ '+' :: b) .adjacent
  | sibling {a b : List Char} (ha : Blanks a) (hb : Blanks b) : LinkText (a ++ '~' :: b) .sibling

/-- The text of a group up to its last compound. -/
inductive GroupText : List Char → Group → Prop
  | first {a text : List Char} {c : Compound} (ha : Blanks a) (h : CompoundText text c) (hne : text ≠ []) :
    GroupText (a ++ text) ⟨c, []⟩
  | link {front between text : List Char} {g : Group} {k : Combinator} {c : Compound} (hg : GroupText front g)
    (hk : LinkText between k) (h : CompoundText text c) (hne : text ≠ []) :
    GroupText (front ++ between ++ text) ⟨g.first, g.links ++ [(k, c)]⟩

/-- The text of a list of groups. -/
inductive Spelled : List Char → List Group → Prop
  | last {text a : List Char} {g : Group} (hg : GroupText text g) (ha : Blanks a) : Spelled (text ++ a) [g]
  | more {text a rest : List Char} {g : Group} {gs : List Group} (hg : GroupText text g) (ha : Blanks a)
    (h : Spelled rest gs) : Spelled (text ++ a ++ ',' :: rest) (g :: gs)

variable {s rest text : List Char}

theorem exists_of_takeSome? {p : Char → Bool} {w : String} (h : takeSome? p s = some (w, rest)) :
    ∃ name, Name p name ∧ w = String.ofList name ∧ s = name ++ rest := by
  rw [takeSome?, Option.ite_none_left_eq_some] at h
  obtain ⟨hne, h⟩ := h
  obtain ⟨rfl, rfl⟩ := Prod.mk.inj (Option.some.inj h)
  exact ⟨s.takeWhile p, ⟨by simpa using hne, fun c hc => List.mem_takeWhile_imp hc⟩, rfl,
    List.takeWhile_append_dropWhile.symm⟩

theorem exists_blanks (s : List Char) : ∃ a, Blanks a ∧ s = a ++ Text.skipBlank s :=
  ⟨s.takeWhile Text.isAsciiBlank, fun _ hc => List.mem_takeWhile_imp hc, List.takeWhile_append_dropWhile.symm⟩

theorem exists_of_closeBracket? (h : closeBracket? s = some rest) : ∃ a, Blanks a ∧ s = a ++ ']' :: rest := by
  obtain ⟨a, ha, hs⟩ := exists_blanks s
  unfold closeBracket? at h
  split at h
  · next heq =>
    obtain rfl := Option.some.inj h
    exact ⟨a, ha, heq ▸ hs⟩
  · cases h

theorem eq_of_attributeOp? {op : AttributeOp} (h : attributeOp? s = some (op, rest)) : s = op.mark ++ rest := by
  unfold attributeOp? at h
  split at h
  all_goals first
    | obtain ⟨rfl, rfl⟩ := Prod.mk.inj (Option.some.inj h)
      rfl
    | cases h

theorem exists_of_attributeValue? {w : String} (h : attributeValue? s = some (w, rest)) :
    ∃ text, ValueText text w ∧ s = text ++ rest := by
  unfold attributeValue? at h
  cases s with
  | nil => cases h
  | cons c s =>
    simp only at h
    split at h
    · next hquote =>
      have hs := List.takeWhile_append_dropWhile (p := (· != c)) (l := s)
      cases hdrop : s.dropWhile (· != c) with
      | nil => simp [hdrop] at h
      | cons d left =>
        have hd : d = c := by
          have := List.head?_dropWhile_not (· != c) s
          rw [hdrop] at this
          simpa using this
        simp only [hdrop, Option.some.injEq, Prod.mk.injEq] at h
        obtain ⟨rfl, rfl⟩ := h
        subst hd
        refine ⟨d :: (s.takeWhile (· != d) ++ [d]), .quoted hquote fun hmem => ?_, ?_⟩
        · simpa using List.mem_takeWhile_imp hmem
        · conv_lhs => rw [← hs, hdrop]
          simp
    · next hquote =>
      obtain ⟨name, hname, rfl, hs⟩ := exists_of_takeSome? h
      refine ⟨name, .plain hname fun d hd => ?_, hs⟩
      cases name with
      | nil => cases hd
      | cons d' name =>
        obtain ⟨rfl, -⟩ := List.cons.inj hs
        obtain rfl := Option.some.inj hd
        exact not_or.1 hquote

theorem exists_of_attributeTest? {test : AttributeTest} (h : attributeTest? s = some (test, rest)) :
    ∃ inner, AttributeText inner test ∧ s = inner ++ ']' :: rest := by
  obtain ⟨a, ha, hs⟩ := exists_blanks s
  unfold attributeTest? at h
  obtain ⟨⟨w, s₁⟩, hw, h⟩ := Option.bind_eq_some_iff.1 h
  obtain ⟨name, hname, rfl, hs₁⟩ := exists_of_takeSome? hw
  simp only at h
  split at h
  · next left hclose =>
    obtain ⟨b, hb, rfl⟩ := exists_of_closeBracket? hclose
    obtain ⟨rfl, rfl⟩ := Prod.mk.inj (Option.some.inj h)
    refine ⟨_, .present ha hname hb, ?_⟩
    rw [hs, hs₁]
    simp
  · obtain ⟨b, hb, hs₂⟩ := exists_blanks s₁
    obtain ⟨⟨op, s₃⟩, hop, h⟩ := Option.bind_eq_some_iff.1 h
    obtain ⟨c, hc, hs₄⟩ := exists_blanks s₃
    obtain ⟨⟨value, s₅⟩, hvalue, h⟩ := Option.bind_eq_some_iff.1 h
    obtain ⟨s₆, hclose, h⟩ := Option.bind_eq_some_iff.1 h
    obtain ⟨rfl, rfl⟩ := Prod.mk.inj (Option.some.inj h)
    obtain ⟨text, htext, hs₅⟩ := exists_of_attributeValue? hvalue
    obtain ⟨d, hd, rfl⟩ := exists_of_closeBracket? hclose
    refine ⟨_, .compared ha hname hb hc htext hd, ?_⟩
    rw [hs, hs₁, hs₂, eq_of_attributeOp? hop, hs₄, hs₅]
    simp

theorem eq_name_of_state? {w : String} {state : State} (h : state? w = some state) : w = state.name := by
  unfold state? at h
  split at h
  all_goals first
    | obtain rfl := Option.some.inj h
      rfl
    | cases h

/-- The tests behind a text of a compound continue it. -/
theorem exists_of_tests? {fuel : Nat} {c c' : Compound} (hc : CompoundText text c)
    (h : tests? fuel c s = some (c', rest)) : ∃ more, CompoundText (text ++ more) c' ∧ s = more ++ rest := by
  induction fuel generalizing text c s with
  | zero => cases h
  | succ fuel ih =>
    -- one test, and the tests behind it
    have hstep : ∀ {c₁ : Compound} {s₁ front : List Char}, CompoundText (text ++ front) c₁ → s = front ++ s₁ →
        tests? fuel c₁ s₁ = some (c', rest) → ∃ more, CompoundText (text ++ more) c' ∧ s = more ++ rest := by
      intro c₁ s₁ front hc₁ hs h
      obtain ⟨more, hmore, hs₁⟩ := ih hc₁ h
      refine ⟨front ++ more, by rwa [← List.append_assoc], ?_⟩
      rw [hs, hs₁, List.append_assoc]
    unfold tests? at h
    split at h
    · obtain ⟨⟨w, s₁⟩, hw, hrest⟩ := Option.bind_eq_some_iff.1 h
      obtain ⟨name, hname, rfl, rfl⟩ := exists_of_takeSome? hw
      obtain ⟨hid, hrest⟩ := Option.ite_none_left_eq_some.1 hrest
      exact hstep (.id hc (by simpa using hid) hname) (by simp) hrest
    · obtain ⟨⟨w, s₁⟩, hw, hrest⟩ := Option.bind_eq_some_iff.1 h
      obtain ⟨name, hname, rfl, rfl⟩ := exists_of_takeSome? hw
      exact hstep (.cls hc hname) (by simp) hrest
    · obtain ⟨⟨test, s₁⟩, htest, hrest⟩ := Option.bind_eq_some_iff.1 h
      obtain ⟨inner, hinner, rfl⟩ := exists_of_attributeTest? htest
      exact hstep (.attribute hc hinner) (by simp) hrest
    · obtain ⟨⟨w, s₁⟩, hw, hrest⟩ := Option.bind_eq_some_iff.1 h
      obtain ⟨name, hname, rfl, rfl⟩ := exists_of_takeSome? hw
      obtain ⟨state, hstate, htests⟩ := Option.bind_eq_some_iff.1 hrest
      obtain rfl : name = state.name.toList := by rw [← eq_name_of_state? hstate, String.toList_ofList]
      exact hstep (.state hc state) (by simp) htests
    · obtain ⟨rfl, rfl⟩ := Prod.mk.inj (Option.some.inj h)
      exact ⟨[], by simpa using hc, rfl⟩

/-- What is in front of the tests of a compound. -/
def leading (s : List Char) : Option String × List Char :=
  match s with
  | '*' :: rest => (none, rest)
  | _ =>
    match ident? s with
    | some (tag, rest) => (some (Text.asciiLower tag), rest)
    | none => (none, s)

theorem exists_of_leading (s : List Char) :
    ∃ text, CompoundText text ⟨(leading s).1, none, [], [], []⟩ ∧ s = text ++ (leading s).2 := by
  unfold leading
  split
  · exact ⟨['*'], .star, rfl⟩
  · split
    · next tag rest htag =>
      obtain ⟨name, hname, rfl, hs⟩ := exists_of_takeSome? htag
      exact ⟨name, .tag hname, hs⟩
    · exact ⟨[], .bare, rfl⟩

theorem compound?_eq (s : List Char) : compound? s =
    (tests? ((leading s).2.length + 1) ⟨(leading s).1, none, [], [], []⟩ (leading s).2).bind fun parsed =>
      if parsed.2.length = s.length then none else some parsed := by
  unfold compound?
  split
  next tag rest heq =>
    have hleading : leading s = (tag, rest) := heq
    rw [hleading]
    cases tests? (rest.length + 1) ⟨tag, none, [], [], []⟩ rest <;> rfl

theorem exists_of_compound? {c : Compound} (h : compound? s = some (c, rest)) :
    ∃ text, CompoundText text c ∧ text ≠ [] ∧ s = text ++ rest := by
  obtain ⟨front, hfront, hs⟩ := exists_of_leading s
  rw [compound?_eq] at h
  obtain ⟨parsed, htests, hparsed⟩ := Option.bind_eq_some_iff.1 h
  obtain ⟨hlen, heq⟩ := Option.ite_none_left_eq_some.1 hparsed
  obtain rfl := Option.some.inj heq
  obtain ⟨more, hmore, hrest⟩ := exists_of_tests? hfront htests
  refine ⟨front ++ more, hmore, ?_, ?_⟩
  · intro hnil
    apply hlen
    rw [hs, hrest, ← List.append_assoc, hnil, List.nil_append]
  · rw [List.append_assoc, ← hrest, ← hs]

theorem exists_of_combinator? {k : Combinator} (h : combinator? s = some (some k, rest)) :
    ∃ between, LinkText between k ∧ s = between ++ rest := by
  obtain ⟨a, ha, hs⟩ := exists_blanks s
  -- a mark between blanks
  have hmark : ∀ {c : Char} {left : List Char}, Text.skipBlank s = c :: left → Text.skipBlank left = rest →
      (∀ b, Blanks b → LinkText (a ++ c :: b) k) → ∃ between, LinkText between k ∧ s = between ++ rest := by
    rintro c left hskip rfl hlink
    obtain ⟨b, hb, hleft⟩ := exists_blanks left
    refine ⟨a ++ c :: b, hlink b hb, ?_⟩
    rw [hs, hskip, List.append_assoc, List.cons_append, ← hleft]
  unfold combinator? at h
  simp only at h
  split at h
  · cases h
  · cases h
  · next hskip =>
    obtain ⟨hk, hrest⟩ := Prod.mk.inj (Option.some.inj h)
    obtain rfl := Option.some.inj hk
    exact hmark hskip hrest fun b hb => .child ha hb
  · next hskip =>
    obtain ⟨hk, hrest⟩ := Prod.mk.inj (Option.some.inj h)
    obtain rfl := Option.some.inj hk
    exact hmark hskip hrest fun b hb => .adjacent ha hb
  · next hskip =>
    obtain ⟨hk, hrest⟩ := Prod.mk.inj (Option.some.inj h)
    obtain rfl := Option.some.inj hk
    exact hmark hskip hrest fun b hb => .sibling ha hb
  · obtain ⟨hlt, h⟩ := Option.ite_none_right_eq_some.1 h
    obtain ⟨hk, rfl⟩ := Prod.mk.inj (Option.some.inj h)
    obtain rfl := Option.some.inj hk
    refine ⟨a, .descendant ha ?_, hs⟩
    rintro rfl
    rw [List.nil_append] at hs
    rw [← hs] at hlt
    exact absurd hlt (lt_irrefl _)

theorem exists_of_combinator?_none (h : combinator? s = some (none, rest)) : ∃ a, Blanks a ∧ s = a ++ rest := by
  obtain ⟨a, ha, hs⟩ := exists_blanks s
  have hrest : rest = Text.skipBlank s := by
    unfold combinator? at h
    simp only at h
    split at h
    · exact (Prod.mk.inj (Option.some.inj h)).2.symm
    · exact (Prod.mk.inj (Option.some.inj h)).2.symm
    · cases h
    · cases h
    · cases h
    · cases (Option.ite_none_right_eq_some.1 h).2
  exact ⟨a, ha, hrest ▸ hs⟩

/-- The compounds behind a text of a group continue it. -/
theorem exists_of_complexFrom? {fuel : Nat} {g : Group} {complex : Complex} (hg : GroupText text g)
    (h : complexFrom? fuel g.complex s = some (complex, rest)) :
    ∃ g' more a, GroupText (text ++ more) g' ∧ Blanks a ∧ g'.complex = complex ∧ s = more ++ a ++ rest := by
  induction fuel generalizing text g s with
  | zero => cases h
  | succ fuel ih =>
    obtain ⟨⟨link, s₁⟩, hlink, hrest⟩ := Option.bind_eq_some_iff.1 h
    cases link with
    | none =>
      obtain ⟨a, ha, rfl⟩ := exists_of_combinator?_none hlink
      obtain ⟨rfl, rfl⟩ := Prod.mk.inj (Option.some.inj hrest)
      exact ⟨g, [], a, by simpa using hg, ha, rfl, rfl⟩
    | some k =>
      obtain ⟨between, hbetween, rfl⟩ := exists_of_combinator? hlink
      obtain ⟨⟨c, s₂⟩, hc, hmore⟩ := Option.bind_eq_some_iff.1 hrest
      obtain ⟨own, hown, hne, rfl⟩ := exists_of_compound? hc
      have hcomplex : (⟨c, (k, g.complex.subject) :: g.complex.chain⟩ : Complex) =
          (Group.mk g.first (g.links ++ [(k, c)])).complex := Group.complex_concat.symm
      simp only [hcomplex] at hmore
      obtain ⟨g', more, a, hg', ha, hcomplex', rfl⟩ := ih (.link hg hbetween hown hne) hmore
      exact ⟨g', between ++ own ++ more, a, by simpa using hg', ha, hcomplex', by simp⟩

theorem exists_of_complex? {complex : Complex} (h : complex? s = some (complex, rest)) :
    ∃ g text a, GroupText text g ∧ Blanks a ∧ g.complex = complex ∧ s = text ++ a ++ rest := by
  obtain ⟨front, hfront, hs⟩ := exists_blanks s
  obtain ⟨⟨c, s₁⟩, hc, hrest⟩ := Option.bind_eq_some_iff.1 h
  obtain ⟨own, hown, hne, hs₁⟩ := exists_of_compound? hc
  have hg : GroupText (front ++ own) ⟨c, []⟩ := .first hfront hown hne
  obtain ⟨g, more, a, hgt, ha, hcomplex, rfl⟩ := exists_of_complexFrom? hg hrest
  refine ⟨g, _, a, hgt, ha, hcomplex, ?_⟩
  rw [hs, hs₁]
  simp

theorem exists_of_groups? {fuel : Nat} {complexes : List Complex} (h : groups? fuel s = some complexes) :
    ∃ groups, Spelled s groups ∧ complexes = groups.map Group.complex := by
  induction fuel generalizing s complexes with
  | zero => cases h
  | succ fuel ih =>
    obtain ⟨⟨complex, s₁⟩, hcomplex, hrest⟩ := Option.bind_eq_some_iff.1 h
    obtain ⟨g, text, a, hg, ha, rfl, rfl⟩ := exists_of_complex? hcomplex
    simp only at hrest
    split at hrest
    · obtain ⟨rest, hgroups, heq⟩ := Option.bind_eq_some_iff.1 hrest
      obtain ⟨groups, hspelled, rfl⟩ := ih hgroups
      obtain rfl := Option.some.inj heq
      exact ⟨g :: groups, .more hg ha hspelled, rfl⟩
    · obtain rfl := Option.some.inj hrest
      exact ⟨[g], by simpa using Spelled.last hg ha, rfl⟩
    · cases hrest

/-- A text that is read as a selector spells out its groups. -/
theorem exists_of_parse? {text : String} {selector : Selector} (h : parse? text = some selector) :
    ∃ groups, Spelled text.toList groups ∧ selector.groups = groups.map Group.complex := by
  obtain ⟨complexes, hgroups, rfl⟩ := Option.map_eq_some_iff.1 h
  exact exists_of_groups? hgroups

end ViewBinding.Selector
