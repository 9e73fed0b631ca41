import ViewBinding.Proofs.Markup.Written

/-! Sound markup is what its own text is read as, if no text in it follows another one. The text is cut into the
pieces that the markup is written as, and these pieces build it again. -/
namespace ViewBinding.Markup

mutual

/-- The pieces that markup is written as. -/
def piecesOf : Markup → List Piece
  | .text s => [.text s]
  | .element e children =>
    if isVoid e.tag then [.start (startOf e)]
    else if isRawText e.tag then [.raw (startOf e) (textOf children)]
    else .start (startOf e) :: (piecesOfAll children ++ [.stop e.tag])

def piecesOfAll : List Markup → List Piece
  | [] => []
  | m :: rest => m.piecesOf ++ piecesOfAll rest

end

def isText : Markup → Bool
  | .text _ => true
  | .element .. => false

mutual

/-- Markup in which no text follows another one. -/
def Separate : Markup → Prop
  | .text _ => True
  | .element _ children => SeparateAll children

def SeparateAll : List Markup → Prop
  | [] => True
  | m :: rest => m.Separate ∧ (m.isText = true → ∀ n ∈ rest.head?, n.isText = false) ∧ SeparateAll rest

end

/-- Elements whose content can be escaped. -/
def Escapable (elements : List (Element × List Markup)) : Prop := ∀ x ∈ elements, isVerbatim x.1.tag = false

section
variable {above : List String} {e : Element} {m : Markup} {ms children : List Markup}

/-- Raw text is written as a text. -/
theorem writeAll_of_raw (h : children = [] ∨ ∃ s, children = [.text s]) :
    writeAll children = escapeText (textOf children) := by
  rcases h with rfl | ⟨s, rfl⟩
  · rfl
  · simp [writeAll, write, textOf, textContent]

theorem head?_write_element (e : Element) (children : List Markup) (rest : List Char) :
    ((write (.element e children)).toList ++ rest).head? = some '<' := by
  rw [write]
  split <;> simp [toList_startTag]

/-- A bracket or nothing follows a text. -/
theorem head?_writeAll {rest : List Char} (hms : ∀ n ∈ ms.head?, n.isText = false) (hbound : ∀ c ∈ rest.head?, c = '<') :
    ∀ c ∈ ((writeAll ms).toList ++ rest).head?, c = '<' := by
  cases ms with
  | nil => simpa [writeAll] using hbound
  | cons n ms =>
    cases n with
    | text s => exact absurd (hms _ rfl) (by simp [isText])
    | element e children =>
      rw [writeAll, String.toList_append, List.append_assoc, head?_write_element]
      rintro c ⟨⟩
      rfl

end

mutual

/-- Markup is cut into its own pieces. -/
theorem pieces_write {above : List String} {m : Markup} (hm : Sound above m) (hsep : m.Separate)
    (hplain : Escapable m.elements) {rest : List Char} {more : List Piece}
    (hbound : m.isText = true → ∀ c ∈ rest.head?, c = '<') (hrest : pieces rest = .ok more) :
    pieces (m.write.toList ++ rest) = .ok (m.piecesOf ++ more) := by
  cases m with
  | text s => exact pieces_escapeText hm (hbound rfl) hrest
  | element e children =>
    obtain ⟨he, hsuits, hchildren⟩ := hm
    obtain ⟨hverbatim, hbelow⟩ := List.forall_mem_cons.1 hplain
    have hwrite : (startTag e ++ writeAll children ++ "</" ++ e.tag ++ ">").toList ++ rest =
        (startTag e).toList ++ ((writeAll children).toList ++ '<' :: '/' :: (e.tag.toList ++ '>' :: rest)) := by simp
    rw [write, piecesOf]
    by_cases hvoid : isVoid e.tag = true
    · have hraw : isRawText e.tag = false := by
        refine Bool.eq_false_iff.2 fun h => ?_
        rw [isVoid_of_isRawText h] at hvoid
        cases hvoid
      rw [if_pos hvoid, if_pos hvoid]
      exact pieces_startTag he hraw hrest
    · rw [if_neg hvoid, if_neg hvoid, hwrite]
      by_cases hraw : isRawText e.tag = true
      · rw [if_pos hraw, writeAll_of_raw (hsuits.raw hraw)]
        exact pieces_raw he hraw hverbatim _ hrest
      · -- from the end: the end tag and what follows, then the content, then the start tag
        have hend := pieces_endTag he.name hrest
        have hinner := pieces_writeAll hchildren hsep hbelow (by rintro c ⟨⟩; rfl) hend
        rw [if_neg hraw, pieces_startTag he (Bool.eq_false_iff.2 hraw) hinner]
        simp

theorem pieces_writeAll {above : List String} {ms : List Markup} (hms : SoundAll above ms) (hsep : SeparateAll ms)
    (hplain : Escapable (elementsOf ms)) {rest : List Char} {more : List Piece}
    (hbound : ∀ c ∈ rest.head?, c = '<') (hrest : pieces rest = .ok more) :
    pieces ((writeAll ms).toList ++ rest) = .ok (piecesOfAll ms ++ more) := by
  cases ms with
  | nil => simpa [writeAll, piecesOfAll] using hrest
  | cons m ms =>
    obtain ⟨hm, hms⟩ := hms
    obtain ⟨hsep, hnext, hseps⟩ := hsep
    obtain ⟨hfirst, hlater⟩ := List.forall_mem_append.1 hplain
    have hrest' := pieces_writeAll hms hseps hlater hbound hrest
    have hbound' : m.isText = true → ∀ c ∈ ((writeAll ms).toList ++ rest).head?, c = '<' := fun ht =>
      head?_writeAll (hnext ht) hbound
    rw [writeAll, String.toList_append, List.append_assoc, pieces_write hm hsep hfirst hbound' hrest', piecesOfAll,
      List.append_assoc]

end

namespace Growth

variable {g : Growth} {e : Element}

theorem applyRule_of_fits (he : Fits (names g.stack) e) {rule : ImpliedEnd} (hrule : rule ∈ impliedEnds) :
    applyRule e.tag g rule = g := by
  by_cases hname : e.tag ∈ rule.triggers
  · have hnone := (depthOf?_eq_none_iff rule g.stack).2 (he.alone rule hrule hname)
    rw [applyRule, if_pos (List.contains_iff_mem.2 hname), closeNearest, hnone]
  · exact applyRule_of_notMem hname g

/-- The start tag of an element that fits leaves the open elements as they are. -/
theorem applyImpliedEnds_of_fits (he : Fits (names g.stack) e) : g.applyImpliedEnds e.tag = g :=
  foldl_applyRule_eq_self fun _ hrule => applyRule_of_fits he hrule

theorem foldl_add_open (e : Element) (children ms : List Markup) (stack : List OpenElement) (done : List Markup) :
    ms.foldl add ⟨⟨e, children⟩ :: stack, done⟩ = ⟨⟨e, ms.reverse ++ children⟩ :: stack, done⟩ := by
  induction ms generalizing children with
  | nil => rfl
  | cons m ms ih =>
    rw [List.foldl_cons, List.reverse_cons, List.append_assoc]
    exact ih (m :: children)

theorem foldl_add_start (ms done : List Markup) : ms.foldl add ⟨[], done⟩ = ⟨[], ms.reverse ++ done⟩ := by
  induction ms generalizing done with
  | nil => rfl
  | cons m ms ih =>
    rw [List.foldl_cons, List.reverse_cons, List.append_assoc]
    exact ih (m :: done)

/-- The end tag of the innermost open element ends it. -/
theorem step_stop (e : Element) (children : List Markup) (stack : List OpenElement) (done : List Markup) :
    step ⟨⟨e, children⟩ :: stack, done⟩ (.stop e.tag) = add ⟨stack, done⟩ (.element e children.reverse) := by
  simp only [step, closeNearest, depthOf?, if_true]
  rfl

/-- Raw text is no content or one text. -/
theorem raw_content {above : List String} {children : List Markup} (hms : SoundAll above children)
    (h : children = [] ∨ ∃ s, children = [.text s]) :
    (if (textOf children).isEmpty then [] else [Markup.text (textOf children)]) = children := by
  rcases h with rfl | ⟨s, rfl⟩
  · rfl
  · have hs : s ≠ "" := hms.1
    simp [textOf, textContent, hs]

mutual

/-- The pieces of markup build it in the innermost open element. -/
theorem foldl_step_piecesOf {m : Markup} {g : Growth} (hm : Markup.Sound (names g.stack) m) :
    m.piecesOf.foldl step g = g.add m := by
  cases m with
  | text s => rfl
  | element e children =>
    obtain ⟨he, hsuits, hchildren⟩ := hm
    have hends : g.applyImpliedEnds (startOf e).name = g := applyImpliedEnds_of_fits he
    have hnew : Element.new (startOf e).name (startOf e).attrs = e := he.state.symm
    rw [piecesOf]
    by_cases hvoid : isVoid e.tag = true
    · have hself : ((startOf e).selfClosing || isVoid (startOf e).name) = true := hvoid
      rw [if_pos hvoid, List.foldl_cons, List.foldl_nil, step, hends, hnew, if_pos hself, hsuits.void hvoid]
    · rw [if_neg hvoid]
      by_cases hraw : isRawText e.tag = true
      · rw [if_pos hraw, List.foldl_cons, List.foldl_nil, step, hends, hnew, raw_content hchildren (hsuits.raw hraw)]
      · have hself : ¬((startOf e).selfClosing || isVoid (startOf e).name) = true := hvoid
        have hinner : SoundAll (names (⟨e, []⟩ :: g.stack)) children := hchildren
        have hfold := foldl_step_piecesOfAll (g := ⟨⟨e, []⟩ :: g.stack, g.done⟩) hinner
        rw [if_neg hraw, List.foldl_cons, step, hends, hnew, if_neg hself, List.foldl_append, hfold, foldl_add_open,
          List.foldl_cons, List.foldl_nil, step_stop]
        simp

theorem foldl_step_piecesOfAll {ms : List Markup} {g : Growth} (hms : SoundAll (names g.stack) ms) :
    (piecesOfAll ms).foldl step g = ms.foldl add g := by
  cases ms with
  | nil => rfl
  | cons m ms =>
    obtain ⟨hm, hms⟩ := hms
    rw [← names_add g m] at hms
    rw [piecesOfAll, List.foldl_append, foldl_step_piecesOf hm, foldl_step_piecesOfAll hms, List.foldl_cons]

end

end Growth

theorem forest_piecesOfAll {ms : List Markup} (hms : SoundAll [] ms) : forest (piecesOfAll ms) = ms := by
  have hfold : (piecesOfAll ms).foldl Growth.step .start = ⟨[], ms.reverse ++ []⟩ :=
    (Growth.foldl_step_piecesOfAll (g := .start) hms).trans (Growth.foldl_add_start ms [])
  rw [forest, hfold]
  simp [Growth.finish, Growth.close]

/-- Sound markup without texts in a row is read from its own text. -/
theorem parse_writeAll_of_separate {ms : List Markup} (hms : SoundAll [] ms) (hsep : SeparateAll ms)
    (hplain : Escapable (elementsOf ms)) : Markup.parse (writeAll ms) = .ok (seedAll ms) := by
  have hnil : pieces [] = .ok [] := by rw [pieces]
  have hpieces := pieces_writeAll hms hsep hplain (by simp) hnil
  rw [List.append_nil, List.append_nil] at hpieces
  rw [Markup.parse, hpieces]
  show Except.ok (seedAll (forest (piecesOfAll ms))) = _
  rw [forest_piecesOfAll hms]

end ViewBinding.Markup
