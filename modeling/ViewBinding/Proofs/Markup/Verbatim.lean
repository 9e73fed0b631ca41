import ViewBinding.Proofs.Markup.Joined

/-! Scripts and styles in writing. Their text is read as it stands but written with references, so that it is read
again as the text with the references in it. -/
namespace ViewBinding.Markup

variable {above : List String} {e : Element} {m : Markup} {ms children : List Markup}

theorem length_le_flatMap_escapeChar (text : List Char) : text.length ≤ (text.flatMap escapeChar).length := by
  induction text with
  | nil => simp
  | cons c text ih =>
    have hc : escapeChar c ≠ [] := by
      unfold escapeChar
      split <;> simp
    have hlength := List.length_pos_iff.2 hc
    rw [List.flatMap_cons, List.length_append, List.length_cons]
    omega

/-- Only characters that are written as themselves leave a text as it is. -/
theorem flatMap_escapeChar_eq_self_iff {text : List Char} :
    text.flatMap escapeChar = text ↔ ∀ c ∈ text, c ≠ '&' ∧ c ≠ '<' ∧ c ≠ '>' := by
  induction text with
  | nil => simp
  | cons c text ih =>
    rw [List.flatMap_cons, List.forall_mem_cons]
    by_cases hc : c ≠ '&' ∧ c ≠ '<' ∧ c ≠ '>'
    · rw [show escapeChar c = [c] by simp [escapeChar, hc], List.singleton_append, List.cons_inj_right, ih]
      exact (and_iff_right hc).symm
    · have hlong : 2 ≤ (escapeChar c).length := by
        simp only [not_and_or, not_not] at hc
        rcases hc with rfl | rfl | rfl <;> decide
      have hrest := length_le_flatMap_escapeChar text
      refine iff_of_false (fun heq => ?_) fun h => hc h.1
      have hlength := congrArg List.length heq
      rw [List.length_append, List.length_cons] at hlength
      omega

theorem escapeText_eq_self_iff {s : String} : escapeText s = s ↔ ∀ c ∈ s.toList, c ≠ '&' ∧ c ≠ '<' ∧ c ≠ '>' := by
  rw [← flatMap_escapeChar_eq_self_iff, ← toList_escapeText, String.toList_inj]

/-- Raw text as the content of an element. -/
def rawText (s : String) : List Markup := if s = "" then [] else [.text s]

@[simp] theorem textOf_rawText (s : String) : textOf (rawText s) = s := by
  unfold rawText
  split
  · next h => rw [h, textOf]
  · simp [textOf, textContent]

theorem rawText_cases (s : String) : rawText s = [] ∨ ∃ t, rawText s = [.text t] := by
  unfold rawText
  split
  · exact .inl rfl
  · exact .inr ⟨s, rfl⟩

theorem elementsOf_rawText (s : String) : elementsOf (rawText s) = [] := by
  unfold rawText
  split <;> rfl

theorem isRawText_of_isVerbatim {tag : String} (h : isVerbatim tag = true) : isRawText tag = true := by
  have hverbatim : tag ∈ ["script", "style"] := List.contains_iff_mem.1 h
  exact List.contains_iff_mem.2 (List.mem_append_left ["title", "textarea"] hverbatim)

theorem Fits.top (h : Fits above e) : Fits [] e := { h with alone := fun _ _ _ => rfl }

theorem sound_rawText (he : Fits above e) (hraw : isRawText e.tag = true) (s : String) :
    SoundAll [] [.element e (rawText s)] := by
  refine ⟨⟨he.top, ⟨fun hvoid => ?_, fun _ => rawText_cases s⟩, ?_⟩, trivial⟩
  · rw [isVoid_of_isRawText hraw] at hvoid
    cases hvoid
  · unfold rawText
    split
    · trivial
    · next hs => exact ⟨hs, trivial⟩

theorem piecesOf_rawText (hraw : isRawText e.tag = true) (s : String) :
    piecesOfAll [.element e (rawText s)] = [.raw (startOf e) s] := by
  rw [piecesOfAll, piecesOf, if_neg (by simp [isVoid_of_isRawText hraw]), if_pos hraw, textOf_rawText]
  rfl

theorem seeded_of_isVerbatim (h : isVerbatim e.tag = true) (children : List Markup) : seeded e children = e := by
  have hverbatim : e.tag ∈ ["script", "style"] := List.contains_iff_mem.1 h
  have hall : ∀ tag ∈ ["script", "style"], tag ≠ "textarea" ∧ tag ≠ "select" := by decide
  obtain ⟨htextarea, hselect⟩ := hall e.tag hverbatim
  rw [seeded, if_neg htextarea, if_neg hselect]

theorem seedAll_of_raw (h : children = [] ∨ ∃ s, children = [.text s]) : seedAll children = children := by
  rcases h with rfl | ⟨s, rfl⟩ <;> rfl

/-- A script is read from what it is written as, with references in the place of the characters that are escaped. -/
theorem parse_write_verbatim (hsound : Sound above (.element e children)) (hverbatim : isVerbatim e.tag = true) :
    Markup.parse (writeAll [.element e children]) = .ok [.element e (rawText (escapeText (textOf children)))] := by
  obtain ⟨he, hsuits, -⟩ := hsound
  have hraw := isRawText_of_isVerbatim hverbatim
  have hnil : pieces [] = .ok [] := by rw [pieces]
  have hpieces := pieces_rawBody he hraw (lt_notMem_escapeText (textOf children)) hnil
  rw [hverbatim, if_pos rfl, String.ofList_toList, ← piecesOf_rawText hraw] at hpieces
  have htext : (writeAll [.element e children]).toList = (startTag e).toList ++
      ((escapeText (textOf children)).toList ++ '<' :: '/' :: (e.tag.toList ++ '>' :: [])) := by
    rw [← writeAll_of_raw (hsuits.raw hraw)]
    simp [writeAll, write, isVoid_of_isRawText hraw]
  rw [Markup.parse, htext, hpieces]
  show Except.ok (seedAll (forest (piecesOfAll _))) = _
  rw [forest_piecesOfAll (sound_rawText he hraw _), seedAll, seed, seedAll_of_raw (rawText_cases _), seeded_of_isVerbatim hverbatim]
  rfl

mutual

/-- Every element of sound markup is sound where it stands. -/
theorem Sound.of_mem_elements {above : List String} {m : Markup} (h : Sound above m) {x : Element × List Markup}
    (hx : x ∈ m.elements) : ∃ names, Sound names (.element x.1 x.2) := by
  cases m with
  | text s => simp [elements] at hx
  | element e children =>
    rw [elements] at hx
    rcases List.mem_cons.1 hx with rfl | hx
    · exact ⟨above, h⟩
    · exact SoundAll.of_mem_elementsOf h.2.2 hx

theorem SoundAll.of_mem_elementsOf {above : List String} {ms : List Markup} (h : SoundAll above ms)
    {x : Element × List Markup} (hx : x ∈ elementsOf ms) : ∃ names, Sound names (.element x.1 x.2) := by
  cases ms with
  | nil => simp [elementsOf] at hx
  | cons m ms =>
    rw [elementsOf] at hx
    rcases List.mem_append.1 hx with hx | hx
    · exact Sound.of_mem_elements h.1 hx
    · exact SoundAll.of_mem_elementsOf h.2 hx

end

/-- The scripts of markup that has been read are sound where they stand. -/
theorem exists_sound_of_parse {s : String} {content : List Markup} (h : Markup.parse s = .ok content)
    {x : Element × List Markup} (hx : x ∈ elementsOf content) (hverbatim : isVerbatim x.1.tag = true) :
    ∃ names, Sound names (.element x.1 x.2) := by
  obtain ⟨ps, hps, h⟩ := exists_of_bind_eq_ok h
  obtain rfl := Except.ok.inj h
  rw [elementsOf_seedAll] at hx
  obtain ⟨y, hy, rfl⟩ := List.mem_map.1 hx
  obtain ⟨names, hsound⟩ := (soundAll_forest (regular_of_pieces hps)).of_mem_elementsOf hy
  have htag : isVerbatim y.1.tag = true := by simpa using hverbatim
  have hraw := hsound.2.1.raw (isRawText_of_isVerbatim htag)
  rw [seeded_of_isVerbatim htag, seedAll_of_raw hraw]
  exact ⟨names, hsound⟩

end ViewBinding.Markup
