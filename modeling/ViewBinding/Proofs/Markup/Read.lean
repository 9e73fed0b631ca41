import Mathlib.Tactic
import ViewBinding.Markup.Forest

/-! Reading markup whose tags are written plainly: one blank before each attribute, and values in single quotes. -/
namespace ViewBinding.Markup

variable {name value rest : List Char}

/-- Without an ampersand there are no references. -/
theorem decode_of_notMem {text : List Char} (h : '&' ∉ text) : decode text = text := by
  rw [decode]
  induction text with
  | nil => rfl
  | cons c text ih =>
    rw [List.mem_cons, not_or] at h
    rw [decodeAfter, if_neg (Ne.symm h.1), ih h.2]

/-- A run of characters of a class ends before a character of another one. -/
theorem span_of_forall {p : Char → Bool} {c : Char} (hname : ∀ d ∈ name, p d = true) (hc : p c = false)
    (rest : List Char) : (name ++ c :: rest).takeWhile p = name ∧ (name ++ c :: rest).dropWhile p = c :: rest := by
  rw [List.takeWhile_append_of_pos hname, List.dropWhile_append_of_pos hname]
  simp [hc]

theorem skipBlank_of_not {c : Char} (hc : Text.isAsciiBlank c = false) : Text.skipBlank (c :: rest) = c :: rest := by
  simp [Text.skipBlank, Text.trimStart, hc]

/-- A value between two quotes. -/
theorem attributeValue_quoted {q : Char} (hq : q = '"' ∨ q = '\'') (hvalue : q ∉ value) :
    attributeValue (q :: (value ++ q :: rest)) = .ok (decode value, rest) := by
  have hquote : ∀ d ∈ value, (d != q) = true := fun d hd => bne_iff_ne.2 fun he => hvalue (he ▸ hd)
  obtain ⟨htake, hdrop⟩ := span_of_forall hquote (show (q != q) = false by simp) rest
  simp only [attributeValue, if_pos hq, htake, hdrop]

theorem attributeAt_quoted {q : Char} (hq : q = '"' ∨ q = '\'') (hname : name ≠ [])
    (hchars : ∀ c ∈ name, isAttributeChar c = true) (hvalue : q ∉ value) :
    attributeAt (name ++ '=' :: q :: (value ++ q :: rest)) =
      .ok (some (lowered name, String.ofList (decode value)), rest) := by
  obtain ⟨htake, hdrop⟩ := span_of_forall hchars (show isAttributeChar '=' = false by decide)
    (q :: (value ++ q :: rest))
  have hblank : Text.isAsciiBlank q = false := by
    rcases hq with rfl | rfl <;> decide
  simp only [attributeAt, htake, hdrop]
  rw [if_neg (by simpa using hname), skipBlank_of_not (by decide)]
  simp only [skipBlank_of_not hblank, attributeValue_quoted hq hvalue]
  rfl

/-- A start tag ends at its bracket. -/
theorem attributesAt_end {s : List Char} (tag : String) (hs : Text.skipBlank s = '>' :: rest) :
    attributesAt tag s = .ok ([], false, rest) := by
  rw [attributesAt]
  split
  · next hs' => cases hs.symm.trans hs'
  · next c left hs' =>
    obtain ⟨rfl, rfl⟩ := List.cons.inj (hs.symm.trans hs')
    rfl

/-- A character of an attribute is none of those that stand between attributes. -/
theorem ne_of_isAttributeChar {c d : Char} (hc : isAttributeChar c = true) (hd : isAttributeChar d = false) : c ≠ d := by
  rintro rfl
  rw [hc] at hd
  cases hd

theorem isAsciiBlank_of_isAttributeChar {c : Char} (hc : isAttributeChar c = true) : Text.isAsciiBlank c = false := by
  have hne : ∀ d, isAttributeChar d = false → c ≠ d := fun d => ne_of_isAttributeChar hc
  simp [Text.isAsciiBlank, hne ' ' (by decide), hne '\t' (by decide), hne '\n' (by decide), hne '\x0c' (by decide),
    hne '\r' (by decide)]

theorem endsTag_of_isAttributeChar {c : Char} (hc : isAttributeChar c = true) (s : List Char) :
    endsTag (c :: s) = false := by
  rw [endsTag.eq_def]
  split
  · next he => exact absurd (List.cons.inj he).1 (ne_of_isAttributeChar hc (by decide))
  · next he => exact absurd (List.cons.inj he).1 (ne_of_isAttributeChar hc (by decide))
  · rfl

/-- An attribute is read, and then what follows it. -/
theorem attributesAt_of_attributeAt {tag : String} {s : List Char} {c : Char} {found : Option (String × String)}
    {more : List (String × String)} {selfClosing : Bool} {behind left : List Char} (hs : Text.skipBlank s = c :: rest)
    (hc : isAttributeChar c = true) (hfound : attributeAt (c :: rest) = .ok (found, behind))
    (hbehind : attributesAt tag behind = .ok (more, selfClosing, left)) :
    attributesAt tag s = .ok (found.toList ++ more, selfClosing, left) := by
  rw [attributesAt]
  split
  · next hs' => cases hs.symm.trans hs'
  · next d tail hs' =>
    obtain ⟨rfl, rfl⟩ := List.cons.inj (hs.symm.trans hs')
    rw [dif_neg (by simp [endsTag_of_isAttributeChar hc])]
    split
    · next e he => cases hfound.symm.trans he
    · next found' behind' hfound' =>
      obtain ⟨rfl, rfl⟩ := Prod.mk.inj (Except.ok.inj (hfound.symm.trans hfound'))
      rw [hbehind]
      rfl

/-- One blank stands before a written attribute. -/
theorem skipBlank_space {c : Char} (hc : isAttributeChar c = true) (rest : List Char) :
    Text.skipBlank (' ' :: c :: rest) = c :: rest :=
  (List.dropWhile_cons_of_pos (show Text.isAsciiBlank ' ' = true by decide)).trans
    (skipBlank_of_not (isAsciiBlank_of_isAttributeChar hc))

/-- An attribute with its value in quotes is read, and then what follows it. -/
theorem attributesAt_quoted {tag : String} {more : List (String × String)} {selfClosing : Bool} {left : List Char}
    {q : Char} (hq : q = '"' ∨ q = '\'') (hname : name ≠ []) (hchars : ∀ c ∈ name, isAttributeChar c = true)
    (hvalue : q ∉ value) (hrest : attributesAt tag rest = .ok (more, selfClosing, left)) :
    attributesAt tag (' ' :: (name ++ '=' :: q :: (value ++ q :: rest))) =
      .ok ((lowered name, String.ofList (decode value)) :: more, selfClosing, left) := by
  obtain ⟨c, name, rfl⟩ := List.exists_cons_of_ne_nil hname
  have hc := hchars c (List.mem_cons_self ..)
  exact attributesAt_of_attributeAt (skipBlank_space hc _) hc (attributeAt_quoted hq hname hchars hvalue) hrest

theorem isAttributeChar_of_isNameChar {c : Char} (h : isNameChar c = true) : isAttributeChar c = true := by
  simp [isAttributeChar, h]

/-- An end tag behind its slash. -/
theorem endTagAt_name (hname : name ≠ []) (hchars : ∀ c ∈ name, isNameChar c = true) (rest : List Char) :
    endTagAt (name ++ '>' :: rest) = .ok (lowered name, rest) := by
  obtain ⟨htake, hdrop⟩ := span_of_forall hchars (show isNameChar '>' = false by decide) rest
  have hskip : Text.skipBlank (name ++ '>' :: rest) = name ++ '>' :: rest := by
    obtain ⟨c, name, rfl⟩ := List.exists_cons_of_ne_nil hname
    have hc := hchars c (List.mem_cons_self ..)
    exact skipBlank_of_not (isAsciiBlank_of_isAttributeChar (isAttributeChar_of_isNameChar hc))
  rw [endTagAt, hskip, htake, hdrop]
  rfl

/-- A start tag with one attribute. -/
theorem startTagAt_quoted {tag : List Char} (htag : ∀ c ∈ tag, isNameChar c = true) (hname : name ≠ [])
    (hchars : ∀ c ∈ name, isAttributeChar c = true) (hvalue : '\'' ∉ value) (hplain : '&' ∉ value) :
    startTagAt (tag ++ ' ' :: (name ++ '=' :: '\'' :: (value ++ '\'' :: '>' :: rest))) =
      .ok (⟨lowered tag, .ofList [(lowered name, String.ofList value)], false⟩, rest) := by
  obtain ⟨htake, hdrop⟩ := span_of_forall htag (show isNameChar ' ' = false by decide)
    (name ++ '=' :: '\'' :: (value ++ '\'' :: '>' :: rest))
  have hskip : Text.skipBlank ('>' :: rest) = '>' :: rest := skipBlank_of_not (by decide)
  have hend := attributesAt_end (lowered tag) hskip
  rw [startTagAt, htake, hdrop, attributesAt_quoted (.inr rfl) hname hchars hvalue hend, decode_of_notMem hplain]
  rfl

theorem pieces_of_next {c : Char} {piece : Piece} {left : List Char} {more : List Piece}
    (hnext : next (c :: rest) = .ok (some piece, left)) (hleft : pieces left = .ok more) :
    pieces (c :: rest) = .ok (piece :: more) := by
  rw [pieces]
  split
  · next e he => cases hnext.symm.trans he
  · next found behind hfound =>
    obtain ⟨rfl, rfl⟩ := Prod.mk.inj (Except.ok.inj (hnext.symm.trans hfound))
    rw [hleft]
    rfl

theorem next_element {c : Char} {piece : Piece} {left : List Char} (hc : Text.isAsciiLetter c = true)
    (helement : elementAt (c :: rest) = .ok (piece, left)) : next ('<' :: c :: rest) = .ok (some piece, left) := by
  have hne : ∀ d, Text.isAsciiLetter d = false → c ≠ d := fun d hd he => by
    rw [he, hd] at hc
    cases hc
  rw [next.eq_def]
  split
  · next hs => cases hs
  · next hs => exact absurd (List.cons.inj (List.cons.inj hs).2).1 (hne '!' (by decide))
  · next hs => exact absurd (List.cons.inj (List.cons.inj hs).2).1 (hne '/' (by decide))
  · next hs => exact absurd (List.cons.inj (List.cons.inj hs).2).1 (hne '!' (by decide))
  · next d tail _ _ _ hs =>
    obtain ⟨rfl, rfl⟩ := List.cons.inj (List.cons.inj hs).2
    rw [if_pos hc, helement]
    rfl
  · next d tail _ _ _ hnot hs =>
    obtain ⟨rfl, rfl⟩ := List.cons.inj hs
    exact absurd rfl (hnot c rest rfl)

theorem elementAt_of_startTag {s : List Char} {tag : StartTag} (h : startTagAt s = .ok (tag, rest))
    (hraw : isRawText tag.name = false) : elementAt s = .ok (.start tag, rest) := by
  rw [elementAt, h]
  simp [bind, Except.bind, hraw, pure, Except.pure]

/-- A start tag with one attribute. -/
def startText (tag name value : String) : String := "<" ++ tag ++ " " ++ name ++ "='" ++ value ++ "'>"

def plainTag (tag name value : String) : StartTag :=
  ⟨lowered tag.toList, .ofList [(lowered name.toList, value)], false⟩

def stopText (tag : String) : String := "</" ++ tag ++ ">"

/-- Whether a text is the name of an element. -/
def isTagName (tag : String) : Bool :=
  tag.toList.head?.any Text.isAsciiLetter && tag.toList.all isNameChar && !isRawText (lowered tag.toList)

/-- Whether a text is the name of an attribute. -/
def isAttributeName (name : String) : Bool := name ≠ "" && name.toList.all isAttributeChar

theorem exists_cons_of_isTagName {tag : String} (h : isTagName tag = true) :
    ∃ c rest, tag.toList = c :: rest ∧ Text.isAsciiLetter c = true ∧ (∀ d ∈ c :: rest, isNameChar d = true) ∧
      isRawText (lowered (c :: rest)) = false := by
  simp only [isTagName, Bool.and_eq_true, Bool.not_eq_true', List.all_eq_true] at h
  cases htag : tag.toList with
  | nil => simp [htag] at h
  | cons c rest => exact ⟨c, rest, rfl, by simpa [htag] using h.1.1, by simpa [htag] using h.1.2, htag ▸ h.2⟩

section
variable {tag name value rest : String} {more : List Piece}

/-- The piece of a start tag with one attribute. -/
theorem pieces_start (htag : isTagName tag = true) (hname : isAttributeName name = true) (hvalue : '\'' ∉ value.toList)
    (hplain : '&' ∉ value.toList) (hrest : pieces rest.toList = .ok more) :
    pieces (startText tag name value ++ rest).toList = .ok (.start (plainTag tag name value) :: more) := by
  obtain ⟨c, behind, htag, hc, hnames, hraw⟩ := exists_cons_of_isTagName htag
  simp only [isAttributeName, Bool.and_eq_true, decide_eq_true_eq, List.all_eq_true] at hname
  have htext : (startText tag name value ++ rest).toList =
      '<' :: c :: (behind ++ ' ' :: (name.toList ++ '=' :: '\'' :: (value.toList ++ '\'' :: '>' :: rest.toList))) := by
    simp [startText, htag]
  have hstart : startTagAt
      (c :: (behind ++ ' ' :: (name.toList ++ '=' :: '\'' :: (value.toList ++ '\'' :: '>' :: rest.toList)))) =
      .ok (⟨lowered (c :: behind), .ofList [(lowered name.toList, String.ofList value.toList)], false⟩, rest.toList) :=
    startTagAt_quoted hnames (by simpa using hname.1) hname.2 hvalue hplain
  rw [htext, pieces_of_next (next_element hc (elementAt_of_startTag hstart hraw)) hrest, plainTag, htag, String.ofList_toList]

/-- The piece of an end tag. -/
theorem pieces_stop (htag : isTagName tag = true) (hrest : pieces rest.toList = .ok more) :
    pieces (stopText tag ++ rest).toList = .ok (.stop (lowered tag.toList) :: more) := by
  obtain ⟨c, behind, htag, -, hnames, -⟩ := exists_cons_of_isTagName htag
  have htext : (stopText tag ++ rest).toList = '<' :: '/' :: (c :: behind ++ '>' :: rest.toList) := by
    simp [stopText, htag]
  rw [htext, htag]
  refine pieces_of_next ?_ hrest
  rw [next, endTagAt_name (List.cons_ne_nil c behind) hnames]
  rfl

end

end ViewBinding.Markup
