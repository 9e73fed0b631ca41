import ViewBinding.Proofs.Markup.Reread

/-! Markup whose texts in a row are made one. A text does not tell where a text node ends and the next one starts, so
this is what markup is read as from its own text; the elements, their state and the texts of their content stay. -/
namespace ViewBinding.Markup

/-- Puts a node in front; a text becomes one with a text that is there. -/
def prepend : Markup → List Markup → List Markup
  | .text s, .text t :: rest => .text (s ++ t) :: rest
  | m, rest => m :: rest

mutual

/-- Markup in which the texts that follow each other are one text. -/
def joined : Markup → Markup
  | .text s => .text s
  | .element e children => .element e (joinedAll children)

def joinedAll : List Markup → List Markup
  | [] => []
  | m :: rest => prepend m.joined (joinedAll rest)

end

/-- The elements in document order, each with the text of its content. -/
def elementTexts (ms : List Markup) : List (Element × String) := (elementsOf ms).map fun x => (x.1, textOf x.2)

/-- Two texts become one, or a node comes in front. -/
theorem prepend_cases (m : Markup) (ms : List Markup) :
    (∃ s t rest, m = .text s ∧ ms = .text t :: rest ∧ prepend m ms = .text (s ++ t) :: rest) ∨
      (prepend m ms = m :: ms ∧ (m.isText = true → ∀ n ∈ ms.head?, n.isText = false)) := by
  cases m with
  | element e children => exact .inr ⟨by simp [prepend], by simp [isText]⟩
  | text s =>
    rcases ms with _ | ⟨_ | _, rest⟩
    · exact .inr ⟨rfl, by simp⟩
    · exact .inl ⟨s, _, rest, rfl, rfl, rfl⟩
    · exact .inr ⟨rfl, by simp [isText]⟩

section
variable {above : List String} (m : Markup) (ms : List Markup)

theorem writeAll_prepend : writeAll (prepend m ms) = m.write ++ writeAll ms := by
  rcases prepend_cases m ms with ⟨s, t, rest, rfl, rfl, h⟩ | ⟨h, -⟩
  · rw [h, writeAll, writeAll, write, write, write, escapeText_append, String.append_assoc]
  · rw [h, writeAll]

theorem textOf_prepend : textOf (prepend m ms) = m.textContent ++ textOf ms := by
  rcases prepend_cases m ms with ⟨s, t, rest, rfl, rfl, h⟩ | ⟨h, -⟩
  · rw [h, textOf, textOf, textContent, textContent, textContent, String.append_assoc]
  · rw [h, textOf]

theorem elementsOf_prepend : elementsOf (prepend m ms) = m.elements ++ elementsOf ms := by
  rcases prepend_cases m ms with ⟨s, t, rest, rfl, rfl, h⟩ | ⟨h, -⟩
  · rw [h]
    rfl
  · rw [h, elementsOf]

theorem seedAll_prepend : seedAll (prepend m ms) = prepend m.seed (seedAll ms) := by
  rcases prepend_cases m ms with ⟨s, t, rest, rfl, rfl, h⟩ | ⟨h, hnext⟩
  · rw [h]
    rfl
  · rw [h, seedAll]
    cases m with
    | element e children => rfl
    | text s =>
      rcases ms with _ | ⟨_ | _, rest⟩
      · rfl
      · exact absurd (hnext rfl _ rfl) (by simp [isText])
      · rfl

variable {m ms}

theorem soundAll_prepend (hm : Sound above m) (hms : SoundAll above ms) : SoundAll above (prepend m ms) := by
  rcases prepend_cases m ms with ⟨s, t, rest, rfl, rfl, h⟩ | ⟨h, -⟩
  · rw [h]
    refine ⟨fun he => hm ?_, hms.2⟩
    exact (String.append_eq_empty_iff.1 he).1
  · rw [h]
    exact ⟨hm, hms⟩

theorem separateAll_prepend (hm : m.Separate) (hms : SeparateAll ms) : SeparateAll (prepend m ms) := by
  rcases prepend_cases m ms with ⟨s, t, rest, rfl, rfl, h⟩ | ⟨h, hnext⟩
  · rw [h]
    exact ⟨trivial, hms.2⟩
  · rw [h]
    exact ⟨hm, hnext, hms⟩

end

mutual

theorem textContent_joined (m : Markup) : m.joined.textContent = m.textContent := by
  cases m with
  | text s => rfl
  | element e children => exact textOf_joinedAll children

theorem textOf_joinedAll (ms : List Markup) : textOf (joinedAll ms) = textOf ms := by
  cases ms with
  | nil => rfl
  | cons m ms => rw [joinedAll, textOf_prepend, textContent_joined m, textOf_joinedAll ms, textOf]

end

mutual

theorem write_joined (m : Markup) : m.joined.write = m.write := by
  cases m with
  | text s => rfl
  | element e children => rw [joined, write, writeAll_joinedAll children, write]

/-- Markup is written as if its texts in a row were one. -/
theorem writeAll_joinedAll (ms : List Markup) : writeAll (joinedAll ms) = writeAll ms := by
  cases ms with
  | nil => rfl
  | cons m ms => rw [joinedAll, writeAll_prepend, write_joined m, writeAll_joinedAll ms, writeAll]

end

mutual

theorem elementTexts_joined (m : Markup) :
    (m.joined.elements.map fun x => (x.1, textOf x.2)) = m.elements.map fun x => (x.1, textOf x.2) := by
  cases m with
  | text s => rfl
  | element e children =>
    have hinner := elementTexts_joinedAll children
    rw [elementTexts, elementTexts] at hinner
    rw [joined, elements, elements, List.map_cons, List.map_cons, hinner, textOf_joinedAll]

/-- The elements and their texts do not depend on where text nodes end. -/
theorem elementTexts_joinedAll (ms : List Markup) : elementTexts (joinedAll ms) = elementTexts ms := by
  cases ms with
  | nil => rfl
  | cons m ms =>
    have hrest := elementTexts_joinedAll ms
    rw [elementTexts, elementTexts] at hrest
    rw [elementTexts, joinedAll, elementsOf_prepend, List.map_append, elementTexts_joined m, hrest, elementTexts,
      elementsOf, List.map_append]

end

/-- The first selected option among elements with their texts, or else the first option. -/
def chosen? (xs : List (Element × String)) : Option (Element × String) :=
  let options := xs.filter fun x => x.1.tag = "option"
  (options.find? fun x => x.1.attrs.contains "selected").or options.head?

/-- The value of a select depends on the elements in it and their texts. -/
theorem selectValue_eq (ms : List Markup) :
    selectValue ms = ((chosen? (elementTexts ms)).map fun x => (x.1.attrs.get? "value").getD x.2).getD "" := by
  have hchosen : chosen? (elementTexts ms) =
      (((options ms).find? fun x => x.1.attrs.contains "selected").or (options ms).head?).map fun x => (x.1, textOf x.2) := by
    rw [chosen?, elementTexts, List.filter_map, List.find?_map, List.head?_map, ← Option.map_or]
    rfl
  rw [hchosen]
  unfold selectValue
  simp only []
  generalize ((options ms).find? fun x => x.1.attrs.contains "selected").or (options ms).head? = o
  cases o <;> rfl

theorem seeded_joinedAll (e : Element) (children : List Markup) : seeded e (joinedAll children) = seeded e children := by
  rw [seeded, seeded, textOf_joinedAll, selectValue_eq, selectValue_eq, elementTexts_joinedAll]

mutual

theorem seed_joined (m : Markup) : m.joined.seed = m.seed.joined := by
  cases m with
  | text s => rfl
  | element e children => rw [joined, seed, seed, joined, seeded_joinedAll, seedAll_joinedAll children]

/-- Controls start with the same values if texts in a row are made one. -/
theorem seedAll_joinedAll (ms : List Markup) : seedAll (joinedAll ms) = joinedAll (seedAll ms) := by
  cases ms with
  | nil => rfl
  | cons m ms => rw [joinedAll, seedAll_prepend, seed_joined m, seedAll_joinedAll ms, seedAll, joinedAll]

end

theorem Suits.joinedAll {tag : String} {children : List Markup} (h : Suits tag children) : Suits tag (joinedAll children) where
  void hvoid := by
    rw [h.void hvoid]
    rfl
  raw hraw := by
    rcases h.raw hraw with rfl | ⟨s, rfl⟩
    · exact .inl rfl
    · exact .inr ⟨s, rfl⟩

mutual

theorem Sound.joined {above : List String} {m : Markup} (h : Sound above m) : Sound above m.joined := by
  cases m with
  | text s => exact h
  | element e children => exact ⟨h.1, h.2.1.joinedAll, SoundAll.joinedAll h.2.2⟩

theorem SoundAll.joinedAll {above : List String} {ms : List Markup} (h : SoundAll above ms) :
    SoundAll above (joinedAll ms) := by
  cases ms with
  | nil => trivial
  | cons m ms => exact soundAll_prepend (Sound.joined h.1) (SoundAll.joinedAll h.2)

end

mutual

theorem separate_joined (m : Markup) : m.joined.Separate := by
  cases m with
  | text s => trivial
  | element e children => exact separateAll_joinedAll children

theorem separateAll_joinedAll (ms : List Markup) : SeparateAll (joinedAll ms) := by
  cases ms with
  | nil => trivial
  | cons m ms => exact separateAll_prepend (separate_joined m) (separateAll_joinedAll ms)

end

@[simp] theorem seeded_tag (e : Element) (children : List Markup) : (seeded e children).tag = e.tag := by
  unfold seeded
  split
  · rfl
  · split <;> rfl

@[simp] theorem seeded_attrs (e : Element) (children : List Markup) : (seeded e children).attrs = e.attrs := by
  unfold seeded
  split
  · rfl
  · split <;> rfl

mutual

theorem write_seed (m : Markup) : m.seed.write = m.write := by
  cases m with
  | text s => rfl
  | element e children =>
    rw [seed, write, write, writeAll_seedAll children, startTag, startTag, seeded_tag, seeded_attrs]

/-- Live state is not written. -/
theorem writeAll_seedAll (ms : List Markup) : writeAll (seedAll ms) = writeAll ms := by
  cases ms with
  | nil => rfl
  | cons m ms => rw [seedAll, writeAll, writeAll, write_seed m, writeAll_seedAll ms]

end

mutual

theorem elements_seed (m : Markup) : m.seed.elements = m.elements.map fun x => (seeded x.1 x.2, seedAll x.2) := by
  cases m with
  | text s => rfl
  | element e children => rw [seed, elements, elements, List.map_cons, elementsOf_seedAll children]

theorem elementsOf_seedAll (ms : List Markup) :
    elementsOf (seedAll ms) = (elementsOf ms).map fun x => (seeded x.1 x.2, seedAll x.2) := by
  cases ms with
  | nil => rfl
  | cons m ms => rw [seedAll, elementsOf, elementsOf, List.map_append, elements_seed m, elementsOf_seedAll ms]

end

theorem tags_seedAll (ms : List Markup) : (elementsOf (seedAll ms)).map (·.1.tag) = (elementsOf ms).map (·.1.tag) := by
  rw [elementsOf_seedAll, List.map_map]
  exact List.map_congr_left fun x _ => seeded_tag x.1 x.2

theorem tags_joinedAll (ms : List Markup) :
    (elementsOf (joinedAll ms)).map (·.1.tag) = (elementsOf ms).map (·.1.tag) := by
  have htags : ∀ ms, (elementsOf ms).map (·.1.tag) = (elementTexts ms).map (·.1.tag) := fun ms => by
    rw [elementTexts, List.map_map]
    rfl
  rw [htags, htags, elementTexts_joinedAll]

/-- What can be escaped depends on the tags. -/
theorem Escapable.congr {xs ys : List (Element × List Markup)} (h : Escapable xs)
    (htags : ys.map (·.1.tag) = xs.map (·.1.tag)) : Escapable ys := by
  intro y hy
  have htag : y.1.tag ∈ xs.map (·.1.tag) := htags ▸ List.mem_map_of_mem hy
  obtain ⟨x, hx, heq⟩ := List.mem_map.1 htag
  rw [← heq]
  exact h x hx

/-- What has been read is read again from its own text, up to where text nodes end. -/
theorem parse_writeAll {s : String} {content : List Markup} (h : Markup.parse s = .ok content)
    (hplain : Escapable (elementsOf content)) : Markup.parse (writeAll content) = .ok (joinedAll content) := by
  obtain ⟨ps, hps, h⟩ := exists_of_bind_eq_ok h
  obtain rfl := Except.ok.inj h
  have hsound := soundAll_forest (regular_of_pieces hps)
  have hescape : Escapable (elementsOf (joinedAll (forest ps))) :=
    hplain.congr ((tags_joinedAll _).trans (tags_seedAll _).symm)
  rw [writeAll_seedAll, ← writeAll_joinedAll,
    parse_writeAll_of_separate hsound.joinedAll (separateAll_joinedAll _) hescape, seedAll_joinedAll]

end ViewBinding.Markup
