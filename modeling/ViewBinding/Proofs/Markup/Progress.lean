import ViewBinding.Document
import ViewBinding.Proofs.Markup.Boundary
import ViewBinding.Proofs.Text.Search

/-! The reader of markup goes on. Elements, raw texts and comments are read from one boundary to a later one, each round takes
something, and so the reader comes to the end of the text or to an error. -/
namespace ViewBinding.Markup.Bytes

variable {text before after left : List Char} {pos : Nat} {c : Char} {name : String}

theorem agrees_startTag (hc : isNameChar c = true) (h : At text pos ('<' :: c :: after)) :
    Agrees text (startTag text pos) (startTagAt (c :: after)) := by
  obtain ⟨hbump, h₁⟩ := bump_cons h
  obtain ⟨hname, h₂⟩ := takeWhile_eq isNameChar h₁
  rw [startTag, bind_eq hbump, bind_eq hname, startTagAt]
  dsimp only
  rw [if_neg (by simp [lowered, hc])]
  have hattrs := agrees_attributes (lowered ((c :: after).takeWhile isNameChar)) h₂
  cases ha : attributesAt (lowered ((c :: after).takeWhile isNameChar)) ((c :: after).dropWhile isNameChar) with
  | error e =>
    rw [ha] at hattrs
    exact hattrs.bind_error _
  | ok r =>
    rw [ha] at hattrs
    obtain ⟨p₁, heq, hat⟩ := hattrs
    rw [bind_eq heq]
    exact ⟨p₁, rfl, hat⟩

/-- Lower case is as wide as upper case. -/
theorem utf8Size_toLower (c : Char) : c.toLower.utf8Size = c.utf8Size := by
  rcases toLower_eq_or c with h | ⟨n, hn, rfl⟩
  · rw [h]
  · revert n
    decide

theorem bytes_lowered (text : List Char) : bytes (lowered text).toList = bytes text := by
  rw [toList_lowered, bytes, bytes, List.map_map]
  exact congrArg List.sum (List.map_congr_left fun c _ => utf8Size_toLower c)

theorem utf8ByteSize_ofList (text : List Char) : (String.ofList text).utf8ByteSize = bytes text := by
  induction text with
  | nil => rfl
  | cons c text ih =>
    rw [← List.singleton_append, String.ofList_append, String.utf8ByteSize_append, ← String.singleton_eq_ofList,
      String.utf8ByteSize_singleton, ih, bytes_append, bytes_cons, bytes_nil, Nat.add_zero]

theorem bytes_toList (s : String) : bytes s.toList = s.utf8ByteSize := by
  rw [← utf8ByteSize_ofList, String.ofList_toList]

/-- The bytes that a name takes spell it exactly if as many characters as it has do. -/
theorem cut?_spelled_iff {s head : List Char} :
    cut? s name.utf8ByteSize = some (head, after) ∧ lowered head = name ↔
      head = s.take name.length ∧ after = s.drop name.length ∧ lowered (s.take name.length) = name := by
  have hlength : ∀ {head}, lowered head = name → name.length = head.length := fun {head} h => by
    rw [← h, ← String.length_toList, toList_lowered, List.length_map]
  have hbytes : ∀ {head}, lowered head = name → bytes head = name.utf8ByteSize := fun {head} h => by
    rw [← bytes_lowered, h, bytes_toList]
  rw [cut?_eq_some_iff]
  constructor
  · rintro ⟨⟨rfl, -⟩, h⟩
    rw [List.take_left' (hlength h).symm, List.drop_left' (hlength h).symm]
    exact ⟨rfl, rfl, h⟩
  · rintro ⟨rfl, rfl, h⟩
    exact ⟨⟨(List.take_append_drop ..).symm, hbytes h⟩, h⟩

theorem endsAt_eq (hname : lowered name.toList = name) (before : List Char) (pos : Nat) :
    endsAt name (before ++ '<' :: '/' :: after) (bytes before) pos = pure (endsRaw name after, pos) := by
  have hcut : cut? (before ++ '<' :: '/' :: after) (bytes before + 2) = some (before ++ ['<', '/'], after) :=
    cut?_eq_some_iff.2 ⟨by simp, by rw [bytes_append]; rfl⟩
  rw [endsAt, hcut, bind_eq (orHalt_some _ _), endsRaw]
  dsimp only
  rw [hname]
  generalize Text.skipBlank after = s
  by_cases hspelled : lowered (s.take name.length) = name
  · rw [(cut?_spelled_iff.2 ⟨rfl, rfl, hspelled⟩).1, ← List.head?_drop]
    rfl
  · have hdiffers : (lowered (s.take name.length) == name) = false := beq_eq_false_iff_ne.2 hspelled
    rw [hdiffers, Bool.false_and]
    cases hcut : cut? s name.utf8ByteSize with
    | none => rfl
    | some p =>
      have hne : (lowered p.1 == name) = false :=
        beq_eq_false_iff_ne.2 fun h => hspelled (cut?_spelled_iff.1 ⟨hcut, h⟩).2.2
      dsimp only
      rw [hne, Bool.false_and]
      rfl

/-- Of the places where `</` stands, the one that is chosen ends the raw text. -/
theorem rawEnd?_eq (hname : lowered name.toList = name) (before : List Char) (pos : Nat) :
    rawEnd? name (before ++ after) (slashes (bytes before) after) pos =
      pure ((rawBody? name after).map fun (found, _) => bytes before + bytes found, pos) := by
  induction after generalizing before with
  | nil => rfl
  | cons c after ih =>
    have hmore := ih (before ++ [c])
    rw [List.append_assoc, List.singleton_append, bytes_append, bytes_cons, bytes_nil, Nat.add_zero] at hmore
    have hbehind : (rawBody? name after).map (fun (found, _) => bytes before + c.utf8Size + bytes found) =
        ((rawBody? name after).map fun (found, left) => (c :: found, left)).map fun (found, _) =>
          bytes before + bytes found := by
      rw [Option.map_map]
      exact congrArg (Option.map · _) (funext fun p => by simp [Nat.add_assoc])
    rw [slashes, rawBody?]
    by_cases hslash : c = '<' ∧ after.head? = some '/'
    · obtain ⟨rfl, hslash⟩ := hslash
      obtain ⟨after, rfl⟩ := List.head?_eq_some_iff.1 hslash
      rw [if_pos ⟨rfl, rfl⟩, List.singleton_append, rawEnd?, bind_eq (endsAt_eq hname before pos)]
      simp only [List.head?_cons, List.drop_succ_cons, List.drop_zero, true_and]
      cases endsRaw name after with
      | true => rfl
      | false =>
        rw [if_neg Bool.false_ne_true, if_neg Bool.false_ne_true, ← hbehind]
        exact hmore
    · rw [if_neg hslash, if_neg fun h => hslash ⟨h.1, h.2.1⟩, List.nil_append, hmore, hbehind]

theorem eq_of_rawBody? {found : List Char} (h : rawBody? name after = some (found, left)) :
    after = found ++ '<' :: '/' :: left := by
  induction after generalizing found with
  | nil => cases h
  | cons c after ih =>
    rw [rawBody?] at h
    split at h
    · next hend =>
      obtain ⟨rfl, rfl⟩ := Prod.mk.inj (Option.some.inj h)
      obtain ⟨rfl, hslash, -⟩ := hend
      obtain ⟨after, rfl⟩ := List.head?_eq_some_iff.1 hslash
      rfl
    · obtain ⟨⟨found', left'⟩, hfound, heq⟩ := Option.map_eq_some_iff.1 h
      obtain ⟨rfl, rfl⟩ := Prod.mk.inj heq
      rw [ih hfound, List.cons_append]

theorem lowered_of_isRawText (h : isRawText name = true) : lowered name.toList = name := by
  simp only [isRawText, List.contains_eq_mem, List.mem_cons, List.not_mem_nil, or_false, decide_eq_true_eq] at h
  rcases h with rfl | rfl | rfl | rfl <;> rfl

theorem agrees_rawBody (hname : lowered name.toList = name) (h : At text pos after) :
    Agrees text (rawBody text name pos) (match rawBody? name after with
      | none => .error (.unclosedElement name)
      | some (found, left) =>
        (endTagAt left).map fun p => (String.ofList (if isVerbatim name then found else decode found), p.2)) := by
  have hend : rawEnd? name after (slashes 0 after) pos =
      pure ((rawBody? name after).map fun (found, _) => bytes found, pos) := by
    simpa using rawEnd?_eq hname [] pos
  rw [rawBody, bind_eq (rest_eq h), bind_eq hend]
  cases hraw : rawBody? name after with
  | none => rfl
  | some p =>
    obtain ⟨found, left⟩ := p
    obtain rfl := eq_of_rawBody? hraw
    have hcut : cut? (found ++ '<' :: '/' :: left) (bytes found) = some (found, '<' :: '/' :: left) :=
      cut?_eq_some_iff.2 ⟨rfl, rfl⟩
    dsimp only [Option.map]
    rw [hcut, bind_eq (orHalt_some _ _), bind_eq (advance_eq h.advance)]
    exact (agrees_endTag rfl rfl h.advance).map fun _ => String.ofList (if isVerbatim name then found else decode found)

theorem agrees_element (hc : isNameChar c = true) (h : At text pos ('<' :: c :: after)) :
    Agrees text (element text pos) (elementAt (c :: after)) := by
  refine (agrees_startTag hc h).bind fun tag left p₁ _ h₁ => ?_
  dsimp only
  split
  · next hraw =>
    have hname := lowered_of_isRawText (Bool.and_eq_true_iff.1 hraw).1
    have hbody := (agrees_rawBody hname h₁).map (Piece.raw tag)
    cases hr : rawBody? tag.name left with
    | none => rwa [hr] at hbody
    | some p =>
      rw [hr] at hbody
      dsimp only at hbody ⊢
      cases he : endTagAt p.2 with
      | error e => rwa [he] at hbody
      | ok q => rwa [he] at hbody
  · exact ⟨p₁, rfl, h₁⟩

theorem agrees_comment (h : At text pos ('<' :: '!' :: '-' :: '-' :: after)) :
    Agrees text (comment text pos) ((skipComment after).map ((), ·)) := by
  rw [comment, bind_eq (rest_eq h), List.drop_succ_cons, List.drop_succ_cons, List.drop_succ_cons, List.drop_succ_cons,
    List.drop_zero, find?, skipComment]
  cases hfind : Text.find? "-->".toList after with
  | none => rfl
  | some i =>
    obtain ⟨left, hleft⟩ := (Text.find?_eq_some_iff.1 hfind).1
    have hcomment : '<' :: '!' :: '-' :: '-' :: after = ("<!--".toList ++ after.take i ++ "-->".toList) ++ left := by
      rw [List.append_assoc, hleft, List.append_assoc, List.take_append_drop]
      rfl
    have hdrop : after.drop (i + 3) = left := by
      rw [← List.drop_drop, ← hleft]
      rfl
    rw [hcomment] at h
    have hend := h.advance
    rw [bytes_append, bytes_append] at hend
    exact ⟨_, advance_eq hend, hdrop ▸ hend⟩

theorem agrees_plain (h : At text pos (c :: after)) :
    Agrees text (plain text pos) (.ok (textFrom c after, after.dropWhile (· != '<'))) := by
  obtain ⟨hbump, h₁⟩ := bump_cons h
  obtain ⟨htake, h₂⟩ := takeWhile_eq (· != '<') h₁
  have hat : At text pos ((c :: after.takeWhile (· != '<')) ++ after.dropWhile (· != '<')) := by
    rwa [List.cons_append, List.takeWhile_append_dropWhile]
  have hslice := slice_eq hat (pos + c.utf8Size + bytes (after.takeWhile (· != '<')))
  rw [bytes_cons, ← Nat.add_assoc] at hslice
  unfold plain
  rw [bind_eq (get_eq pos), bind_eq hbump, bind_eq htake, bind_eq (get_eq _), bind_eq hslice]
  exact ⟨_, rfl, h₂⟩

theorem agrees_step (h : At text pos (c :: after)) : Agrees text (step text pos) (next (c :: after)) := by
  rw [step, bind_eq (rest_eq h)]
  generalize hnext : next (c :: after) = r
  -- the reader tells its rounds apart by prefixes, but `next` does so by patterns
  unfold next at hnext
  split at hnext <;> subst hnext
  · next heq => cases heq
  · next rest heq =>
    cases heq
    have := (agrees_comment h).map fun _ => (none : Option Piece)
    cases hs : skipComment rest with
    | error e => rwa [hs] at this
    | ok left => rwa [hs] at this
  · next rest heq =>
    cases heq
    exact (agrees_endTag rfl rfl h).bind fun _ _ p₁ _ h₁ => ⟨p₁, rfl, h₁⟩
  · next rest hne heq =>
    cases heq
    have hcomment : ¬ ['<', '!', '-', '-'].isPrefixOf ('<' :: '!' :: rest) = true := by
      rw [List.isPrefixOf_iff_prefix]
      rintro ⟨left, hleft⟩
      cases hleft
      exact hne left rfl
    have hrest : At text (pos + 2) rest := h.tail.tail
    have := (agrees_declaration hrest).map fun _ => (none : Option Piece)
    rw [if_neg hcomment, if_neg (by simp), if_pos (by simp), bind_eq (advance_eq hrest)]
    cases hs : skipDeclaration none rest with
    | error e => rwa [hs] at this
    | ok left => rwa [hs] at this
  · next d rest _ hslash hbang heq =>
    cases heq
    have hslash : '/' ≠ d := fun h => hslash h.symm
    have hbang : '!' ≠ d := fun h => hbang h.symm
    rw [if_neg (by simp [hbang]), if_neg (by simp [hslash]), if_neg (by simp [hbang])]
    by_cases hd : Text.isAsciiLetter d = true
    · rw [if_pos ⟨rfl, hd⟩, if_pos hd]
      exact (agrees_element (isNameChar_of_isAsciiLetter hd) h).bind fun _ _ p₁ _ h₁ => ⟨p₁, rfl, h₁⟩
    · rw [if_neg fun hletter => hd hletter.2, if_neg hd]
      exact (agrees_plain h).map some
  · next d rest _ _ _ hlt heq =>
    cases heq
    have hshort : ∀ (d : Char) (part : List Char), ¬ ('<' :: d :: part).isPrefixOf (c :: after) = true := by
      intro d part hprefix
      obtain ⟨left, hleft⟩ := List.isPrefixOf_iff_prefix.1 hprefix
      obtain ⟨rfl, rfl⟩ := List.cons.inj hleft
      exact hlt d (part ++ left) rfl rfl
    have hletter : ¬ ((c :: after).head? = some '<' ∧ (c :: after).tail.head?.any Text.isAsciiLetter = true) := by
      rintro ⟨hc, hletter⟩
      cases after with
      | nil => simp at hletter
      | cons d rest => exact hlt d rest (Option.some.inj hc) rfl
    rw [if_neg (hshort _ _), if_neg (hshort _ _), if_neg (hshort _ _), if_neg hletter]
    exact (agrees_plain h).map some

theorem agrees_piecesRound (found : List Piece) (h : At text pos after) :
    Agrees text (loop text (piecesRound text) found pos) ((Markup.pieces after).map fun more => (found ++ more, [])) := by
  -- on the length of what is left, since a round may take more than one character
  induction hn : after.length using Nat.strongRecOn generalizing after pos found with
  | _ n ih =>
    subst hn
    have hleft := h.add_bytes
    cases after with
    | nil =>
      have hround : piecesRound text found pos = pure (.inr found, pos) := by
        rw [piecesRound, bind_eq (get_eq pos), if_neg (by simp [← hleft])]
        rfl
      rw [loop_stop hround, Markup.pieces]
      exact ⟨pos, by rw [List.append_nil], h⟩
    | cons c after =>
      have hpos := Char.utf8Size_pos c
      rw [bytes_cons] at hleft
      have hstep := agrees_step h
      have hround : piecesRound text found pos = (step text >>= fun more => pure (.inl (found ++ more.toList))) pos := by
        rw [piecesRound, bind_eq (get_eq pos), if_pos (by omega)]
      rw [Markup.pieces]
      split
      · next e hnext =>
        rw [hnext] at hstep
        exact loop_error (hround.trans (hstep.bind_error _))
      · next more left hnext =>
        rw [hnext] at hstep
        obtain ⟨p₁, hstep, h₁⟩ := hstep
        have hlt := next_length_lt hnext
        have hmore := ih _ hlt (found ++ more.toList) h₁ rfl
        rw [loop_next (hround.trans (bind_eq hstep)) (h.lt h₁ hlt) h₁.le]
        cases hs : Markup.pieces left with
        | error e => rwa [hs] at hmore
        | ok rest =>
          rw [hs] at hmore
          show Agrees text _ (.ok (found ++ (more.toList ++ rest), []))
          rw [← List.append_assoc]
          exact hmore

/-- Where a text can be cut is where its encoding can be. -/
theorem isValid_iff {html : String} : String.Pos.Raw.IsValid html ⟨pos⟩ ↔ ∃ after, At html.toList pos after := by
  rw [String.Pos.Raw.isValid_iff_exists_append]
  constructor
  · rintro ⟨s, t, rfl, hpos⟩
    refine ⟨t.toList, s.toList, String.toList_append, ?_⟩
    rw [bytes_toList]
    exact (congrArg String.Pos.Raw.byteIdx hpos).symm
  · rintro ⟨after, before, hat, rfl⟩
    refine ⟨String.ofList before, String.ofList after, ?_, ?_⟩
    · rw [← String.ofList_append, ← hat, String.ofList_toList]
    · exact congrArg String.Pos.Raw.mk (utf8ByteSize_ofList before).symm

/-- A round fails, or it ends behind the position where it starts, where the text can be cut. -/
def Advances {α : Type} (html : String) (pos : Nat) (outcome : Except Halt (α × Nat)) : Prop :=
  (∃ e, outcome = throw (.failed e)) ∨
    ∃ a pos', outcome = pure (a, pos') ∧ pos < pos' ∧ pos' ≤ html.utf8ByteSize ∧ String.Pos.Raw.IsValid html ⟨pos'⟩

theorem Agrees.advances {α : Type} {html : String} {outcome : Except Halt (α × Nat)}
    {r : Except ParseError (α × List Char)} (h : Agrees html.toList outcome r) (hat : At html.toList pos after)
    (hlt : ∀ a left, r = .ok (a, left) → left.length < after.length) : Advances html pos outcome := by
  cases r with
  | error e => exact .inl ⟨e, h⟩
  | ok r =>
    obtain ⟨a, left⟩ := r
    obtain ⟨pos', heq, hat'⟩ := h
    have hvalid := isValid_iff.2 ⟨left, hat'⟩
    exact .inr ⟨a, pos', heq, hat.lt hat' (hlt a left rfl), hvalid.le_rawEndPos, hvalid⟩

end ViewBinding.Markup.Bytes

namespace ViewBinding.Document

open Markup Markup.Bytes

/--
Reading markup goes from boundary to boundary. Wherever the text can be cut, a round of the reader, and a round in a start tag,
fails or ends at a later place where it can be cut. So the reader never halts within a character, behind the end, or in a loop
that does not go on. It comes to the end of the text, and a document is made of what it has read, or it fails.
-/
theorem parse_on_boundaries (html : String) :
    (∀ pos, String.Pos.Raw.IsValid html ⟨pos⟩ →
      (pos < html.utf8ByteSize → Advances html pos (step html.toList pos)) ∧
        ∀ tag, Advances html pos (attributeStep html.toList tag pos)) ∧
      ((∃ ps, Bytes.pieces html.toList 0 = pure (ps, html.utf8ByteSize) ∧
          parse html = .ok ⟨.ofMarkup (seedAll (forest ps)), .empty⟩) ∨
        ∃ e, Bytes.pieces html.toList 0 = throw (.failed e) ∧ parse html = .error (.htmlParse e)) := by
  constructor
  · intro pos hvalid
    obtain ⟨after, hat⟩ := isValid_iff.1 hvalid
    refine ⟨fun hlt => ?_, fun tag => ?_⟩
    · cases after with
      | nil =>
        have hend : pos = html.utf8ByteSize := hat.add_bytes.trans (bytes_toList html)
        omega
      | cons c after => exact (agrees_step hat).advances hat fun _ _ => next_length_lt
    · exact (agrees_attributeStep tag hat).advances hat fun _ _ => length_roundAt_lt
  · have hstart : At html.toList 0 html.toList := ⟨[], rfl, rfl⟩
    have hall := agrees_piecesRound [] hstart
    rw [parse, Markup.parse]
    cases hs : Markup.pieces html.toList with
    | error e =>
      rw [hs] at hall
      exact .inr ⟨e, hall, rfl⟩
    | ok ps =>
      rw [hs] at hall
      obtain ⟨pos, hpieces, hend⟩ := hall
      have hpos : pos = html.utf8ByteSize := hend.add_bytes.trans (bytes_toList html)
      exact .inl ⟨ps, hpos ▸ hpieces, rfl⟩

theorem parse_on_boundaries_wide : String.Pos.Raw.IsValid "é<p ü/>" ⟨2⟩ ∧ String.Pos.Raw.IsValid "é<p ü/>" ⟨5⟩ ∧
    Advances "é<p ü/>" 2 (step "é<p ü/>".toList 2) ∧ Advances "é<p ü/>" 5 (attributeStep "é<p ü/>".toList "p" 5) := by
  have hround : String.Pos.Raw.IsValid "é<p ü/>" ⟨2⟩ := isValid_iff.2 ⟨"<p ü/>".toList, "é".toList, rfl, rfl⟩
  have hattribute : String.Pos.Raw.IsValid "é<p ü/>" ⟨5⟩ := isValid_iff.2 ⟨"ü/>".toList, "é<p ".toList, rfl, rfl⟩
  exact ⟨hround, hattribute, ((parse_on_boundaries _).1 2 hround).1 (by decide),
    ((parse_on_boundaries _).1 5 hattribute).2 "p"⟩

end ViewBinding.Document
