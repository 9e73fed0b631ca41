import Mathlib.Data.List.TakeWhile
import ViewBinding.Proofs.Markup.Reference

/-! What the pieces of a text are like. Names of elements and attributes are in lower case and hold no character that
would end them, texts are not empty, and the tags of raw texts stand for whole elements. -/
namespace ViewBinding.Markup

/-- A computation that succeeds does so step by step. -/
theorem exists_of_bind_eq_ok {ε α β : Type} {x : Except ε α} {f : α → Except ε β} {r : β} (h : (x >>= f) = .ok r) :
    ∃ a, x = .ok a ∧ f a = .ok r := by
  cases x with
  | error e => cases h
  | ok a => exact ⟨a, rfl, h⟩

/-- Lower case changes the letters from `A` to `Z` only. -/
theorem toLower_eq_or (c : Char) : c.toLower = c ∨ ∃ n < 26, c = Char.ofNat (65 + n) := by
  by_cases h : c.val ≥ 'A'.val ∧ c.val ≤ 'Z'.val
  · refine .inr ⟨c.toNat - 65, ?_, ?_⟩
    · have hle : c.toNat ≤ 90 := h.2
      omega
    · have hge : 65 ≤ c.toNat := h.1
      rw [Nat.add_sub_cancel' hge, Char.ofNat_toNat]
  · exact .inl (dif_neg h)

theorem toLower_toLower (c : Char) : c.toLower.toLower = c.toLower := by
  rcases toLower_eq_or c with h | ⟨n, hn, rfl⟩
  · rw [h, h]
  · revert n
    decide

theorem isAsciiLetter_toLower (c : Char) : Text.isAsciiLetter c.toLower = Text.isAsciiLetter c := by
  rcases toLower_eq_or c with h | ⟨n, hn, rfl⟩
  · rw [h]
  · revert n
    decide

theorem isNameChar_toLower (c : Char) : isNameChar c.toLower = isNameChar c := by
  rcases toLower_eq_or c with h | ⟨n, hn, rfl⟩
  · rw [h]
  · revert n
    decide

theorem isAttributeChar_toLower (c : Char) : isAttributeChar c.toLower = isAttributeChar c := by
  rcases toLower_eq_or c with h | ⟨n, hn, rfl⟩
  · rw [h]
  · revert n
    decide

theorem toList_lowered (name : List Char) : (lowered name).toList = name.map Char.toLower := String.toList_ofList

theorem lowered_lowered (name : List Char) : lowered (lowered name).toList = lowered name := by
  rw [toList_lowered, lowered, lowered, List.map_map]
  exact congrArg String.ofList (List.map_congr_left fun c _ => toLower_toLower c)

/-- A class of characters that knows no case holds those of a name in lower case as well. -/
theorem forall_mem_lowered {p : Char → Bool} (hp : ∀ c, p c.toLower = p c) {name : List Char}
    (h : ∀ c ∈ name, p c = true) : ∀ c ∈ (lowered name).toList, p c = true := by
  intro c hc
  rw [toList_lowered] at hc
  obtain ⟨d, hd, rfl⟩ := List.mem_map.1 hc
  rw [hp]
  exact h d hd

/-- A name that an element can have. -/
structure ElementName (name : String) : Prop where
  head : ∃ c rest, name.toList = c :: rest ∧ Text.isAsciiLetter c = true
  chars : ∀ c ∈ name.toList, isNameChar c = true
  lower : lowered name.toList = name

/-- A name that an attribute can have. -/
structure AttributeName (name : String) : Prop where
  ne_nil : name.toList ≠ []
  chars : ∀ c ∈ name.toList, isAttributeChar c = true
  lower : lowered name.toList = name

/-- A tag that a text can hold. -/
structure StartTag.Regular (tag : StartTag) : Prop where
  name : ElementName tag.name
  attrs : ∀ e ∈ tag.attrs.entries, AttributeName e.1

/-- A piece that a text can hold. -/
inductive Piece.Regular : Piece → Prop
  | text {s : String} (hs : s ≠ "") : Regular (.text s)
  | start {tag : StartTag} (htag : tag.Regular) (hraw : isRawText tag.name = true → tag.selfClosing = true) :
    Regular (.start tag)
  | raw {tag : StartTag} {body : String} (htag : tag.Regular) (hraw : isRawText tag.name = true) : Regular (.raw tag body)
  | stop (name : String) : Regular (.stop name)

theorem elementName_lowered {c : Char} (hc : Text.isAsciiLetter c = true) (rest : List Char) :
    ElementName (lowered ((c :: rest).takeWhile isNameChar)) where
  head := by
    rw [toList_lowered, List.takeWhile_cons_of_pos (isNameChar_of_isAsciiLetter hc)]
    exact ⟨c.toLower, _, rfl, (isAsciiLetter_toLower c).trans hc⟩
  chars := forall_mem_lowered isNameChar_toLower fun _ => List.mem_takeWhile_imp
  lower := lowered_lowered _

theorem attributeName_lowered {s : List Char} (h : s.takeWhile isAttributeChar ≠ []) :
    AttributeName (lowered (s.takeWhile isAttributeChar)) where
  ne_nil := by
    rw [toList_lowered]
    simpa using h
  chars := forall_mem_lowered isAttributeChar_toLower fun _ => List.mem_takeWhile_imp
  lower := lowered_lowered _

theorem attributeName_of_attributeAt {s left : List Char} {found : Option (String × String)}
    (h : attributeAt s = .ok (found, left)) : ∀ e ∈ found.toList, AttributeName e.1 := by
  unfold attributeAt at h
  by_cases hname : (s.takeWhile isAttributeChar).isEmpty
  · simp only [hname, if_true] at h
    obtain ⟨rfl, -⟩ := Prod.mk.inj (Except.ok.inj h)
    simp
  · have hne : AttributeName (lowered (s.takeWhile isAttributeChar)) := attributeName_lowered (by simpa using hname)
    simp only [hname, Bool.false_eq_true, if_false] at h
    split at h
    · obtain ⟨p, -, h⟩ := exists_of_bind_eq_ok h
      obtain ⟨rfl, -⟩ := Prod.mk.inj (Except.ok.inj h)
      simpa using hne
    · obtain ⟨rfl, -⟩ := Prod.mk.inj (Except.ok.inj h)
      simpa using hne

theorem attributeName_of_attributesAt {tag : String} {s left : List Char} {found : List (String × String)}
    {selfClosing : Bool} (h : attributesAt tag s = .ok (found, selfClosing, left)) : ∀ e ∈ found, AttributeName e.1 := by
  -- on the length of the text, since an attribute may take more than one character
  induction hn : s.length using Nat.strongRecOn generalizing s found with
  | _ n ih =>
    subst hn
    have hle := length_skipBlank_le s
    rw [attributesAt] at h
    split at h
    · cases h
    · next c rest hs =>
      rw [hs] at hle
      split at h
      · split at h <;> obtain ⟨rfl, -, -⟩ := by simpa using h
        all_goals simp
      · next he =>
        split at h
        · cases h
        · next first behind ha =>
          have hlt := attributeAt_length_lt (not_isBlank_head_skipBlank hs) (by simpa using he) ha
          obtain ⟨⟨more, closing, behind'⟩, hm, h⟩ := exists_of_bind_eq_ok h
          obtain ⟨rfl, hmore⟩ := Prod.mk.inj (Except.ok.inj h)
          obtain ⟨rfl, rfl⟩ := Prod.mk.inj hmore
          intro e he
          rcases List.mem_append.1 he with he | he
          · exact attributeName_of_attributeAt ha e he
          · exact ih _ (by omega) hm rfl e he

namespace Attributes

theorem mem_insertEntry {name value : String} {es : List (String × String)} {e : String × String}
    (h : e ∈ insertEntry name value es) : e = (name, value) ∨ e ∈ es := by
  induction es with
  | nil => exact .inl (List.mem_singleton.1 h)
  | cons e' es ih =>
    simp only [insertEntry] at h
    split at h
    · exact (List.mem_cons.1 h).imp_right (List.mem_cons_of_mem _)
    · split at h
      · exact List.mem_cons.1 h
      · rcases List.mem_cons.1 h with rfl | h
        · exact .inr (List.mem_cons_self ..)
        · exact (ih h).imp_right (List.mem_cons_of_mem _)

/-- The entries of a list are all that its attributes have. -/
theorem mem_of_mem_ofList {es : List (String × String)} {e : String × String} (h : e ∈ (ofList es).entries) : e ∈ es := by
  induction es with
  | nil => cases h
  | cons e' es ih =>
    have h' : e ∈ insertEntry e'.1 e'.2 (ofList es).entries := h
    rcases mem_insertEntry h' with rfl | h'
    · exact List.mem_cons_self ..
    · exact List.mem_cons_of_mem _ (ih h')

end Attributes

theorem regular_of_startTagAt {c : Char} {rest left : List Char} {tag : StartTag} (hc : Text.isAsciiLetter c = true)
    (h : startTagAt (c :: rest) = .ok (tag, left)) : tag.Regular := by
  obtain ⟨⟨attrs, selfClosing, behind⟩, ha, h⟩ := exists_of_bind_eq_ok h
  obtain ⟨rfl, -⟩ := Prod.mk.inj (Except.ok.inj h)
  exact ⟨elementName_lowered hc rest, fun e he => attributeName_of_attributesAt ha e (Attributes.mem_of_mem_ofList he)⟩

theorem regular_of_elementAt {c : Char} {rest left : List Char} {piece : Piece} (hc : Text.isAsciiLetter c = true)
    (h : elementAt (c :: rest) = .ok (piece, left)) : piece.Regular := by
  obtain ⟨⟨tag, behind⟩, ht, h⟩ := exists_of_bind_eq_ok h
  have htag := regular_of_startTagAt hc ht
  dsimp only at h
  split at h
  · next hraw =>
    split at h
    · cases h
    · obtain ⟨p, -, h⟩ := exists_of_bind_eq_ok h
      obtain ⟨rfl, -⟩ := Prod.mk.inj (Except.ok.inj h)
      exact .raw htag (Bool.and_eq_true_iff.1 hraw).1
  · next hopen =>
    obtain ⟨rfl, -⟩ := Prod.mk.inj (Except.ok.inj h)
    refine .start htag fun hraw => ?_
    simpa [hraw] using hopen

theorem regular_textFrom (c : Char) (s : List Char) : (textFrom c s).Regular := by
  refine .text fun h => decode_ne_nil c (s.takeWhile (· != '<')) ?_
  rw [← String.toList_ofList (l := decode _), h]
  rfl

theorem regular_of_next {c : Char} {rest left : List Char} {piece : Piece}
    (h : next (c :: rest) = .ok (some piece, left)) : piece.Regular := by
  unfold next at h
  split at h
  · cases h
  · obtain ⟨behind, -, h⟩ := exists_of_bind_eq_ok h
    cases h
  · obtain ⟨p, -, h⟩ := exists_of_bind_eq_ok h
    obtain ⟨h, -⟩ := Prod.mk.inj (Except.ok.inj h)
    exact Option.some.inj h ▸ .stop p.1
  · obtain ⟨behind, -, h⟩ := exists_of_bind_eq_ok h
    cases h
  · split at h
    · next hd =>
      obtain ⟨p, hp, h⟩ := exists_of_bind_eq_ok h
      obtain ⟨h, -⟩ := Prod.mk.inj (Except.ok.inj h)
      exact Option.some.inj h ▸ regular_of_elementAt hd hp
    · obtain ⟨h, -⟩ := Prod.mk.inj (Except.ok.inj h)
      exact Option.some.inj h ▸ regular_textFrom _ _
  · obtain ⟨h, -⟩ := Prod.mk.inj (Except.ok.inj h)
    exact Option.some.inj h ▸ regular_textFrom _ _

/-- Every piece of a text is a regular one. -/
theorem regular_of_pieces {s : List Char} {ps : List Piece} (h : pieces s = .ok ps) : ∀ p ∈ ps, p.Regular := by
  induction hn : s.length using Nat.strongRecOn generalizing s ps with
  | _ n ih =>
    subst hn
    cases s with
    | nil =>
      rw [pieces] at h
      cases h
      simp
    | cons c rest =>
      rw [pieces] at h
      split at h
      · cases h
      · next found left hnext =>
        obtain ⟨more, hm, h⟩ := exists_of_bind_eq_ok h
        obtain rfl := Except.ok.inj h
        intro p hp
        rcases List.mem_append.1 hp with hp | hp
        · rw [Option.mem_toList.1 hp] at hnext
          exact regular_of_next hnext
        · exact ih _ (next_length_lt hnext) hm rfl p hp

end ViewBinding.Markup
