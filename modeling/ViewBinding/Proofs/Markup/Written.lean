import Mathlib.Data.List.DropRight
import ViewBinding.Markup.Write
import ViewBinding.Proofs.Markup.Growth

/-! Reading what has been written: a start tag with its attributes, an end tag, a text, and an element with raw text.
Each is read whole, whatever text follows it. -/
namespace ViewBinding.Markup

namespace Attributes

theorem insertEntry_of_forall_lt {name : String} (value : String) {es : List (String × String)}
    (h : ∀ e ∈ es, name < e.1) : insertEntry name value es = (name, value) :: es := by
  cases es with
  | nil => rfl
  | cons e es =>
    have hlt := h e (List.mem_cons_self ..)
    rw [insertEntry, if_neg fun heq => String.lt_irrefl _ (heq ▸ hlt), if_pos hlt]

/-- Attributes are those of their entries. -/
theorem ofList_entries (a : Attributes) : ofList a.entries = a := by
  obtain ⟨es, hsorted⟩ := a
  have hentries : (ofList es).entries = es := by
    induction es with
    | nil => rfl
    | cons e es ih =>
      obtain ⟨hbelow, hrest⟩ := List.pairwise_cons.1 hsorted
      show insertEntry e.1 e.2 (ofList es).entries = e :: es
      rw [ih hrest, insertEntry_of_forall_lt _ hbelow]
  cases hof : ofList es
  simp only [hof] at hentries
  subst hentries
  rfl

end Attributes

variable {rest : List Char}

/-- What is written behind the name of an attribute. -/
def valueText (value : String) : List Char :=
  if value = "" then [] else '=' :: '"' :: ((escapeAttribute value).toList ++ ['"'])

/-- The text of attributes in a start tag. -/
def attributesText (es : List (String × String)) : List Char := es.flatMap fun e => (writeAttribute e.1 e.2).toList

theorem toList_writeAttribute (name value : String) :
    (writeAttribute name value).toList = ' ' :: (name.toList ++ valueText value) := by
  unfold writeAttribute valueText
  by_cases h : value = ""
  · simp [h]
  · simp [h]

theorem attributesText_cons (e : String × String) (es : List (String × String)) (rest : List Char) :
    attributesText (e :: es) ++ rest = ' ' :: (e.1.toList ++ (valueText e.2 ++ (attributesText es ++ rest))) := by
  rw [attributesText, List.flatMap_cons, toList_writeAttribute, attributesText]
  simp

/-- Behind an attribute, its tag ends or a blank and the next attribute follow. -/
theorem exists_attributesText {es : List (String × String)} (hes : ∀ e ∈ es, AttributeName e.1) (rest : List Char) :
    attributesText es ++ '>' :: rest = '>' :: rest ∨
      ∃ c behind, isAttributeChar c = true ∧ attributesText es ++ '>' :: rest = ' ' :: c :: behind := by
  cases es with
  | nil => exact .inl rfl
  | cons e es =>
    have hname := hes e (List.mem_cons_self ..)
    obtain ⟨c, name, hc⟩ := List.exists_cons_of_ne_nil hname.ne_nil
    rw [attributesText_cons, hc]
    exact .inr ⟨c, _, hname.chars c (by simp [hc]), rfl⟩

/-- An attribute without a value is read up to what follows the blanks behind it. -/
theorem attributeAt_bare {name : List Char} {d : Char} (hname : name ≠ []) (hchars : ∀ c ∈ name, isAttributeChar c = true)
    (hd : isAttributeChar d = false) (hequals : ∀ s, Text.skipBlank (d :: rest) ≠ '=' :: s) :
    attributeAt (name ++ d :: rest) = .ok (some (lowered name, ""), Text.skipBlank (d :: rest)) := by
  obtain ⟨htake, hdrop⟩ := span_of_forall hchars hd rest
  simp only [attributeAt, htake, hdrop]
  rw [if_neg (by simpa using hname)]

theorem attributeAt_empty {name : String} (hname : AttributeName name) {es : List (String × String)}
    (hes : ∀ e ∈ es, AttributeName e.1) (rest : List Char) :
    attributeAt (name.toList ++ (attributesText es ++ '>' :: rest)) =
      .ok (some (name, ""), Text.skipBlank (attributesText es ++ '>' :: rest)) := by
  rcases exists_attributesText hes rest with he | ⟨d, left, hd, he⟩
  · rw [he, attributeAt_bare hname.ne_nil hname.chars (by decide), hname.lower]
    intro s hs
    rw [skipBlank_of_not (by decide)] at hs
    cases hs
  · rw [he, attributeAt_bare hname.ne_nil hname.chars (by decide), hname.lower]
    intro s hs
    rw [skipBlank_space hd] at hs
    exact ne_of_isAttributeChar hd (show isAttributeChar '=' = false by decide) (List.cons.inj hs).1

theorem skipBlank_skipBlank (s : List Char) : Text.skipBlank (Text.skipBlank s) = Text.skipBlank s :=
  List.dropWhile_idempotent _ _

/-- What is behind an attribute that has been read leads to the attributes that follow it. -/
theorem exists_attributeAt {e : String × String} (he : AttributeName e.1) {es : List (String × String)}
    (hes : ∀ e ∈ es, AttributeName e.1) (rest : List Char) :
    ∃ behind, attributeAt (e.1.toList ++ (valueText e.2 ++ (attributesText es ++ '>' :: rest))) = .ok (some e, behind) ∧
      Text.skipBlank behind = Text.skipBlank (attributesText es ++ '>' :: rest) := by
  obtain ⟨name, value⟩ := e
  by_cases hvalue : value = ""
  · subst hvalue
    exact ⟨_, attributeAt_empty he hes rest, skipBlank_skipBlank _⟩
  · refine ⟨attributesText es ++ '>' :: rest, ?_, rfl⟩
    have htext : valueText value ++ (attributesText es ++ '>' :: rest) =
        '=' :: '"' :: ((escapeAttribute value).toList ++ '"' :: (attributesText es ++ '>' :: rest)) := by
      simp [valueText, hvalue]
    rw [htext, attributeAt_quoted (.inl rfl) he.ne_nil he.chars (quote_notMem_escapeAttribute value), he.lower,
      decode_escapeAttribute, String.ofList_toList]

/-- Attributes are read as they are written. The reader of an attribute without a value takes the blanks behind it, so
this holds of every text that differs in them only. -/
theorem attributesAt_attributesText {es : List (String × String)} (hes : ∀ e ∈ es, AttributeName e.1) (tag : String)
    (rest : List Char) {s : List Char} (hs : Text.skipBlank s = Text.skipBlank (attributesText es ++ '>' :: rest)) :
    attributesAt tag s = .ok (es, false, rest) := by
  induction es generalizing s with
  | nil => exact attributesAt_end tag (hs.trans (skipBlank_of_not (by decide)))
  | cons e es ih =>
    obtain ⟨hname, hlater⟩ := List.forall_mem_cons.1 hes
    obtain ⟨c, name, hc⟩ := List.exists_cons_of_ne_nil hname.ne_nil
    have hchar : isAttributeChar c = true := hname.chars c (by simp [hc])
    obtain ⟨behind, hfound, hbehind⟩ := exists_attributeAt hname hlater rest
    rw [hc] at hfound
    rw [attributesText_cons, hc, List.cons_append, skipBlank_space hchar] at hs
    exact attributesAt_of_attributeAt hs hchar hfound (ih hlater hbehind)

theorem toList_startTag (e : Element) :
    (startTag e).toList = '<' :: (e.tag.toList ++ (attributesText e.attrs.entries ++ ['>'])) := by
  simp [startTag, attributesText, List.flatMap_map]

/-- The tag that an element is written with. -/
def startOf (e : Element) : StartTag := ⟨e.tag, e.attrs, false⟩

variable {above : List String} {e : Element}

/-- A start tag is read as it is written. -/
theorem startTagAt_startTag (he : Fits above e) (rest : List Char) :
    startTagAt (e.tag.toList ++ (attributesText e.attrs.entries ++ '>' :: rest)) = .ok (startOf e, rest) := by
  have hspan : ∀ s, s = attributesText e.attrs.entries ++ '>' :: rest →
      (e.tag.toList ++ s).takeWhile isNameChar = e.tag.toList ∧ (e.tag.toList ++ s).dropWhile isNameChar = s := by
    intro s hs
    rcases exists_attributesText he.attrs rest with hend | ⟨c, behind, -, hmore⟩
    · rw [hs, hend]
      exact span_of_forall he.name.chars (by decide) rest
    · rw [hs, hmore]
      exact span_of_forall he.name.chars (by decide) _
  obtain ⟨htake, hdrop⟩ := hspan _ rfl
  rw [startTagAt, htake, hdrop, attributesAt_attributesText he.attrs _ rest rfl, he.name.lower]
  show Except.ok (_, _) = _
  rw [Attributes.ofList_entries]
  rfl

/-- Raw text without brackets goes up to the end tag of its element. -/
theorem rawBody?_append {name : String} (hname : ElementName name) {body : List Char} (hbody : '<' ∉ body)
    (rest : List Char) : rawBody? name (body ++ '<' :: '/' :: (name.toList ++ '>' :: rest)) =
      some (body, name.toList ++ '>' :: rest) := by
  induction body with
  | nil =>
    obtain ⟨c, behind, hc, hletter⟩ := hname.head
    have hskip : Text.skipBlank (name.toList ++ '>' :: rest) = name.toList ++ '>' :: rest := by
      rw [hc]
      exact skipBlank_of_not (isAsciiBlank_of_isAttributeChar (isAttributeChar_of_isNameChar
        (isNameChar_of_isAsciiLetter hletter)))
    have hends : endsRaw name (name.toList ++ '>' :: rest) = true := by
      have hlength : name.length = name.toList.length := String.length_toList.symm
      simp only [endsRaw, hskip, hlength, List.take_left', hname.lower, beq_self_eq_true, Bool.true_and,
        List.getElem?_append_right (Nat.le_refl _), Nat.sub_self]
      rfl
    simp [rawBody?, hends]
  | cons c body ih =>
    rw [List.mem_cons, not_or] at hbody
    rw [List.cons_append, rawBody?, if_neg fun h => hbody.1 h.1.symm, ih hbody.2]
    rfl

section
variable {piece : Piece} {left : List Char} {more : List Piece}

theorem next_of_ne_lt {c : Char} (hc : c ≠ '<') (rest : List Char) :
    next (c :: rest) = .ok (some (textFrom c rest), rest.dropWhile (· != '<')) := by
  rw [next.eq_def]
  split
  · next hs => cases hs
  · next hs => exact absurd (List.cons.inj hs).1 hc
  · next hs => exact absurd (List.cons.inj hs).1 hc
  · next hs => exact absurd (List.cons.inj hs).1 hc
  · next hs => exact absurd (List.cons.inj hs).1 hc
  · next hs =>
    obtain ⟨rfl, rfl⟩ := List.cons.inj hs
    rfl

/-- A text that a bracket or nothing follows. -/
theorem pieces_escapeText {s : String} (hs : s ≠ "") (hbound : ∀ c ∈ rest.head?, c = '<')
    (hrest : pieces rest = .ok more) : pieces ((escapeText s).toList ++ rest) = .ok (.text s :: more) := by
  obtain ⟨c, body, hc⟩ := List.exists_cons_of_ne_nil (toList_escapeText_ne_nil hs)
  have hno := lt_notMem_escapeText s
  rw [hc, List.mem_cons, not_or] at hno
  have hbody : ∀ d ∈ body, (d != '<') = true := fun d hd => bne_iff_ne.2 fun he => hno.2 (he ▸ hd)
  have hspan : (body ++ rest).takeWhile (· != '<') = body ∧ (body ++ rest).dropWhile (· != '<') = rest := by
    cases rest with
    | nil => simpa using hbody
    | cons d rest =>
      obtain rfl := hbound d rfl
      exact span_of_forall hbody (by decide) rest
  have htext : textFrom c (body ++ rest) = .text s := by
    rw [textFrom, hspan.1, ← hc, decode_escapeText, String.ofList_toList]
  rw [hc, List.cons_append]
  refine pieces_of_next ?_ hrest
  rw [next_of_ne_lt (Ne.symm hno.1), htext, hspan.2]

/-- The piece of an element that is read from its start tag on. -/
theorem pieces_of_elementAt (he : Fits above e)
    (hpiece : elementAt (e.tag.toList ++ (attributesText e.attrs.entries ++ '>' :: rest)) = .ok (piece, left))
    (hleft : pieces left = .ok more) : pieces ((startTag e).toList ++ rest) = .ok (piece :: more) := by
  obtain ⟨c, behind, hc, hletter⟩ := he.name.head
  have htext : (startTag e).toList ++ rest = '<' :: c :: (behind ++ (attributesText e.attrs.entries ++ '>' :: rest)) := by
    simp [toList_startTag, hc]
  rw [htext]
  rw [hc] at hpiece
  exact pieces_of_next (next_element hletter hpiece) hleft

theorem pieces_startTag (he : Fits above e) (hraw : isRawText e.tag = false) (hrest : pieces rest = .ok more) :
    pieces ((startTag e).toList ++ rest) = .ok (.start (startOf e) :: more) :=
  pieces_of_elementAt he (elementAt_of_startTag (startTagAt_startTag he rest) hraw) hrest

theorem pieces_endTag {name : String} (hname : ElementName name) (hrest : pieces rest = .ok more) :
    pieces ('<' :: '/' :: (name.toList ++ '>' :: rest)) = .ok (.stop name :: more) := by
  obtain ⟨c, behind, hc, -⟩ := hname.head
  refine pieces_of_next ?_ hrest
  rw [next, endTagAt_name (by simp [hc]) hname.chars, hname.lower]
  rfl

/-- The piece of an element with raw text. References in it count, unless the element takes its text as it stands. -/
theorem pieces_rawBody (he : Fits above e) (hraw : isRawText e.tag = true) {body : List Char} (hbody : '<' ∉ body)
    (hrest : pieces rest = .ok more) :
    pieces ((startTag e).toList ++ (body ++ '<' :: '/' :: (e.tag.toList ++ '>' :: rest))) =
      .ok (.raw (startOf e) (String.ofList (if isVerbatim e.tag then body else decode body)) :: more) := by
  refine pieces_of_elementAt he ?_ hrest
  have hne : e.tag.toList ≠ [] := by
    obtain ⟨c, behind, hc, -⟩ := he.name.head
    simp [hc]
  have hfound : rawBody? e.tag _ = _ := rawBody?_append he.name hbody rest
  rw [elementAt, startTagAt_startTag he]
  simp only [bind, Except.bind, startOf, hraw, Bool.not_false, Bool.and_self, if_true, hfound,
    endTagAt_name hne he.name.chars]
  rfl

theorem pieces_raw (he : Fits above e) (hraw : isRawText e.tag = true) (hverbatim : isVerbatim e.tag = false) (s : String)
    (hrest : pieces rest = .ok more) :
    pieces ((startTag e).toList ++ ((escapeText s).toList ++ '<' :: '/' :: (e.tag.toList ++ '>' :: rest))) =
      .ok (.raw (startOf e) s :: more) := by
  rw [pieces_rawBody he hraw (lt_notMem_escapeText s) hrest, hverbatim, if_neg Bool.false_ne_true, decode_escapeText,
    String.ofList_toList]

end

end ViewBinding.Markup
