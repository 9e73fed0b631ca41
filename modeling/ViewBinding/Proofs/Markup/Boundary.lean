import ViewBinding.Proofs.Markup.Bytes
import ViewBinding.Proofs.Markup.Regular

/-! Reading by byte positions goes with reading the rest of the text. Whatever the text is, every position that a reader comes
to lies between two characters, every loop ends, and what is read is what the rest of the text reads as. -/
namespace ViewBinding.Markup.Bytes

variable {α β : Type} {text before after left taken : List Char} {pos pos' : Nat} {c : Char}

@[simp] theorem bytes_nil : bytes [] = 0 := rfl

@[simp] theorem bytes_cons (c : Char) (text : List Char) : bytes (c :: text) = c.utf8Size + bytes text := by
  simp [bytes]

@[simp] theorem bytes_append (text more : List Char) : bytes (text ++ more) = bytes text + bytes more := by
  simp [bytes]

/-- A text is cut between two of its characters only. -/
theorem cut?_eq_some_iff {n : Nat} : cut? text n = some (before, after) ↔ text = before ++ after ∧ bytes before = n := by
  have hzero : ∀ {before : List Char}, bytes before = 0 ↔ before = [] := fun {before} => by
    cases before with
    | nil => simp
    | cons c before => simp [(Char.utf8Size_pos c).ne']
  induction text generalizing n before after with
  | nil =>
    cases n with
    | zero => simp [cut?, hzero, eq_comm, and_comm]
    | succ n =>
      simp only [cut?, reduceCtorEq, List.nil_eq, List.append_eq_nil_iff, false_iff]
      rintro ⟨⟨rfl, -⟩, h⟩
      simp at h
  | cons c text ih =>
    cases n with
    | zero =>
      simp only [cut?, hzero, Option.some.injEq, Prod.mk.injEq]
      constructor
      · rintro ⟨rfl, rfl⟩
        exact ⟨rfl, rfl⟩
      · rintro ⟨h, rfl⟩
        exact ⟨rfl, h⟩
    | succ n =>
      have hpos := Char.utf8Size_pos c
      simp only [cut?, Option.ite_none_right_eq_some, Option.map_eq_some_iff, Prod.exists, Prod.mk.injEq, ih]
      constructor
      · rintro ⟨hle, before, after, ⟨rfl, hbytes⟩, rfl, rfl⟩
        exact ⟨rfl, by rw [bytes_cons]; omega⟩
      · rintro ⟨h, hbytes⟩
        cases before with
        | nil => simp at hbytes
        | cons d before =>
          obtain ⟨rfl, rfl⟩ := List.cons.inj h
          rw [bytes_cons] at hbytes
          exact ⟨by omega, before, after, ⟨rfl, by omega⟩, rfl, rfl⟩

example : cut? "é<p>".toList 1 = none := rfl

/-- A position between two characters of a text, and what follows it there. -/
def At (text : List Char) (pos : Nat) (after : List Char) : Prop := ∃ before, text = before ++ after ∧ bytes before = pos

/-- What a step at a position comes to is what a function of the rest of the text says. -/
def Agrees (text : List Char) (outcome : Except Halt (α × Nat)) : Except ParseError (α × List Char) → Prop
  | .ok (a, left) => ∃ pos, outcome = pure (a, pos) ∧ At text pos left
  | .error e => outcome = throw (.failed e)

theorem At.advance (h : At text pos (taken ++ left)) : At text (pos + bytes taken) left := by
  obtain ⟨before, rfl, rfl⟩ := h
  exact ⟨before ++ taken, by simp, by simp⟩

theorem At.tail (h : At text pos (c :: after)) : At text (pos + c.utf8Size) after := by
  simpa using (show At text pos ([c] ++ after) from h).advance

theorem At.add_bytes (h : At text pos after) : pos + bytes after = bytes text := by
  obtain ⟨before, rfl, rfl⟩ := h
  exact (bytes_append ..).symm

theorem At.le (h : At text pos after) : pos ≤ bytes text := h.add_bytes ▸ Nat.le_add_right ..

/-- Where less is left is a later position. -/
theorem At.lt (h : At text pos after) (h' : At text pos' left) (hlt : left.length < after.length) : pos < pos' := by
  have hsuffix : ∀ {pos after}, At text pos after → after <:+ text := fun h => h.imp fun _ hb => hb.1.symm
  obtain ⟨taken, rfl⟩ := List.suffix_of_suffix_length_le (hsuffix h') (hsuffix h) hlt.le
  have hadd := h.add_bytes
  have hadd' := h'.add_bytes
  cases taken with
  | nil => simp at hlt
  | cons c taken =>
    have hpos := Char.utf8Size_pos c
    rw [List.cons_append, bytes_cons, bytes_append] at hadd
    omega

theorem At.cut (h : At text pos after) : ∃ before, cut? text pos = some (before, after) :=
  h.imp fun _ hb => cut?_eq_some_iff.2 hb

section

variable {m : Reader α} {k : α → Reader β} {a : α}

/-- A step that comes to a result is followed by the next one. -/
theorem bind_eq (h : m pos = pure (a, pos')) : (m >>= k) pos = k a pos' := by
  show (m pos >>= fun r => k r.1 r.2) = _
  rw [h]
  rfl

/-- A step that fails is the last one. -/
theorem Agrees.bind_error {e : ParseError} (h : Agrees text (m pos) (.error e)) (k : α → Reader β) :
    Agrees text ((m >>= k) pos) (.error e) := by
  show (m pos >>= fun r => k r.1 r.2) = _
  rw [show m pos = throw (.failed e) from h]
  rfl

theorem Agrees.bind {r : Except ParseError (α × List Char)} {f : α × List Char → Except ParseError (β × List Char)}
    (h : Agrees text (m pos) r)
    (hk : ∀ a left pos', r = .ok (a, left) → At text pos' left → Agrees text (k a pos') (f (a, left))) :
    Agrees text ((m >>= k) pos) (r >>= f) := by
  cases r with
  | error e => exact h.bind_error k
  | ok r =>
    obtain ⟨a, left⟩ := r
    obtain ⟨pos', heq, hat⟩ := h
    rw [bind_eq heq]
    exact hk a left pos' rfl hat

theorem Agrees.map {r : Except ParseError (α × List Char)} (h : Agrees text (m pos) r) (g : α → β) :
    Agrees text ((m >>= fun a => pure (g a)) pos) (r.map fun p => (g p.1, p.2)) := by
  cases r with
  | error e => exact h.bind_error _
  | ok r =>
    obtain ⟨pos', heq, hat⟩ := h
    rw [bind_eq heq]
    exact ⟨pos', rfl, hat⟩

end

section

variable {σ : Type} {round : σ → Reader (σ ⊕ α)} {x y : σ}

/-- A loop goes on where a round has ended at a later place. -/
theorem loop_next (h : round x pos = pure (.inl y, pos')) (hlt : pos < pos') (hle : pos' ≤ bytes text) :
    loop text round x pos = loop text round y pos' := by
  rw [loop, h]
  exact if_pos ⟨hlt, hle⟩

theorem loop_stop {a : α} (h : round x pos = pure (.inr a, pos')) : loop text round x pos = pure (a, pos') := by
  rw [loop, h]
  rfl

theorem loop_error {e : ParseError} (h : round x pos = throw (.failed e)) :
    loop text round x pos = throw (.failed e) := by
  rw [loop, h]
  rfl

end

theorem get_eq (pos : Nat) : (get : Reader Nat) pos = pure (pos, pos) := rfl

theorem orHalt_some (a : α) (pos : Nat) : orHalt (some a) pos = pure (a, pos) := rfl

theorem rest_eq (h : At text pos after) : rest text pos = pure (after, pos) := by
  obtain ⟨before, hcut⟩ := h.cut
  show (orHalt (cut? text pos) >>= fun r => pure r.2) pos = _
  rw [hcut]
  rfl

theorem advance_eq {n : Nat} (h : At text (pos + n) after) : advance text n pos = pure ((), pos + n) := by
  show (rest text >>= fun _ => pure ()) (pos + n) = _
  rw [bind_eq (rest_eq h)]
  rfl

theorem peek_eq (h : At text pos after) : peek text pos = pure (after.head?, pos) := bind_eq (rest_eq h)

theorem bump_nil (h : At text pos []) : bump text pos = pure (none, pos) := bind_eq (peek_eq h)

theorem bump_cons (h : At text pos (c :: after)) :
    bump text pos = pure (some c, pos + c.utf8Size) ∧ At text (pos + c.utf8Size) after := by
  refine ⟨?_, h.tail⟩
  rw [bump, bind_eq (peek_eq h)]
  dsimp only [List.head?_cons]
  rw [bind_eq (advance_eq h.tail)]
  rfl

theorem slice_eq (h : At text pos (taken ++ left)) (pos' : Nat) :
    slice text pos (pos + bytes taken) pos' = pure (taken, pos') := by
  obtain ⟨before, hcut⟩ := h.cut
  have hcut' : cut? (taken ++ left) (pos + bytes taken - pos) = some (taken, left) :=
    cut?_eq_some_iff.2 ⟨rfl, by omega⟩
  show (orHalt (cut? text pos) >>= fun r =>
    orHalt (if pos ≤ pos + bytes taken then cut? r.2 (pos + bytes taken - pos) else none) >>= fun r => pure r.1) pos' = _
  simp only [hcut, Nat.le_add_right, if_true]
  show (orHalt (cut? (taken ++ left) (pos + bytes taken - pos)) >>= fun r => pure r.1) pos' = _
  rw [hcut']
  rfl

/-- Splits a text where a character is not fit, given what follows it. -/
def splitFit (fit : Char → List Char → Bool) : List Char → List Char × List Char
  | [] => ([], [])
  | c :: more => if fit c more then ((c :: (splitFit fit more).1), (splitFit fit more).2) else ([], c :: more)

theorem splitFit_append (fit : Char → List Char → Bool) (text : List Char) :
    (splitFit fit text).1 ++ (splitFit fit text).2 = text := by
  induction text with
  | nil => rfl
  | cons c more ih =>
    rw [splitFit]
    split
    · simp [ih]
    · rfl

theorem splitFit_eq_takeWhile (accept : Char → Bool) (text : List Char) :
    splitFit (fun c _ => accept c) text = (text.takeWhile accept, text.dropWhile accept) := by
  induction text with
  | nil => rfl
  | cons c more ih =>
    rw [splitFit, ih, List.takeWhile_cons, List.dropWhile_cons]
    split <;> rfl

theorem splitFit_staysUnquoted (text : List Char) : splitFit staysUnquoted text = unquoted text := by
  induction text with
  | nil => rfl
  | cons c more ih =>
    rw [splitFit, ih, unquoted, staysUnquoted]
    cases Text.isAsciiBlank c || c == '>' || (c == '/' && more.head? == some '>') <;> rfl

/-- Going over fit characters ends before the first one that is not. -/
theorem skip_eq {width : Char → Nat} {fit : Char → List Char → Bool}
    (hwidth : ∀ c more, fit c more = true → width c = c.utf8Size) (h : At text pos after) :
    skip text width fit pos = pure ((), pos + bytes (splitFit fit after).1) := by
  unfold skip
  induction after generalizing pos with
  | nil => exact loop_stop (bind_eq (rest_eq h))
  | cons c more ih =>
    rw [splitFit]
    cases hfit : fit c more with
    | true =>
      have hround : skipRound text width fit pos = pure (.inl (), pos + c.utf8Size) := by
        rw [skipRound, bind_eq (rest_eq h)]
        dsimp only
        rw [if_pos hfit, hwidth c more hfit, bind_eq (advance_eq h.tail)]
        rfl
      have hpos := Char.utf8Size_pos c
      rw [loop_next hround (by omega) h.tail.le, ih h.tail, if_pos rfl, bytes_cons, Nat.add_assoc]
    | false =>
      refine loop_stop ?_
      rw [skipRound, bind_eq (rest_eq h)]
      dsimp only
      rw [hfit]
      rfl

theorem takeFit_eq (fit : Char → List Char → Bool) (h : At text pos after) :
    takeFit text fit pos = pure ((splitFit fit after).1, pos + bytes (splitFit fit after).1) := by
  show (skip text Char.utf8Size fit >>= fun _ => get >>= fun stop => slice text pos stop) pos = _
  rw [bind_eq (skip_eq (fun _ _ _ => rfl) h)]
  exact slice_eq ((splitFit_append fit after).symm ▸ h) _

theorem takeWhile_eq (accept : Char → Bool) (h : At text pos after) :
    takeWhile text accept pos = pure (after.takeWhile accept, pos + bytes (after.takeWhile accept)) ∧
      At text (pos + bytes (after.takeWhile accept)) (after.dropWhile accept) := by
  refine ⟨?_, At.advance (by rwa [List.takeWhile_append_dropWhile])⟩
  have htake := takeFit_eq (fun c _ => accept c) h
  rwa [splitFit_eq_takeWhile] at htake

theorem utf8Size_of_isAsciiBlank (h : Text.isAsciiBlank c = true) : c.utf8Size = 1 := by
  simp only [Text.isAsciiBlank, Bool.or_eq_true, beq_iff_eq] at h
  rcases h with (((rfl | rfl) | rfl) | rfl) | rfl <;> rfl

theorem skipBlank_eq (h : At text pos after) :
    ∃ pos', skipBlank text pos = pure ((), pos') ∧ At text pos' (Text.skipBlank after) := by
  refine ⟨_, skip_eq (fun c _ hc => (utf8Size_of_isAsciiBlank hc).symm) h, At.advance ?_⟩
  rw [splitFit_eq_takeWhile]
  exact (List.takeWhile_append_dropWhile (p := Text.isAsciiBlank) (l := after)).symm ▸ h

theorem skipUnquoted_eq (h : At text pos after) :
    ∃ pos', skip text Char.utf8Size staysUnquoted pos = pure ((), pos') ∧ At text pos' (unquoted after).2 := by
  refine ⟨_, skip_eq (fun _ _ _ => rfl) h, At.advance ?_⟩
  rw [← splitFit_staysUnquoted, splitFit_append]
  exact h

/-- An end tag is read from its two leading characters on. -/
theorem agrees_endTag {d e : Char} (hd : d.utf8Size = 1) (he : e.utf8Size = 1) (h : At text pos (d :: e :: after)) :
    Agrees text (endTag text pos) (endTagAt after) := by
  have hafter : At text (pos + 2) after := by simpa [hd, he, Nat.add_assoc] using h.tail.tail
  obtain ⟨p₁, hblank, h₁⟩ := skipBlank_eq hafter
  obtain ⟨hname, h₂⟩ := takeWhile_eq isNameChar h₁
  obtain ⟨hjunk, h₃⟩ := takeWhile_eq (· != '>') h₂
  unfold endTag endTagAt
  rw [bind_eq (advance_eq hafter), bind_eq hblank, bind_eq hname, bind_eq hjunk]
  dsimp only
  generalize ((Text.skipBlank after).dropWhile isNameChar).dropWhile (· != '>') = here at h₃
  cases here with
  | nil => exact bind_eq (bump_nil h₃)
  | cons c left =>
    rw [bind_eq (bump_cons h₃).1]
    exact ⟨_, rfl, h₃.tail⟩

theorem skipDeclaration_cons (quote : Option Char) (c : Char) (more : List Char) : skipDeclaration quote (c :: more) =
    match pastChar quote c with
    | .inl quote => skipDeclaration quote more
    | .inr () => .ok more := by
  cases quote with
  | some q => rfl
  | none =>
    rw [skipDeclaration, pastChar]
    by_cases hquote : c = '"' ∨ c = '\''
    · have hne : c ≠ '>' := by rcases hquote with rfl | rfl <;> decide
      rw [if_neg hne, if_pos hquote, if_pos hquote]
    · rw [if_neg hquote, if_neg hquote]
      split <;> rfl

theorem agrees_declarationRound (quote : Option Char) (h : At text pos after) :
    Agrees text (loop text (declarationRound text) quote pos) ((skipDeclaration quote after).map ((), ·)) := by
  induction after generalizing pos quote with
  | nil =>
    rw [loop_error (bind_eq (bump_nil h))]
    cases quote <;> rfl
  | cons c more ih =>
    have hround : declarationRound text quote pos = pure (pastChar quote c, pos + c.utf8Size) := bind_eq (bump_cons h).1
    have hpos := Char.utf8Size_pos c
    rw [skipDeclaration_cons]
    cases hpast : pastChar quote c with
    | inl quote' =>
      rw [hpast] at hround
      rw [loop_next hround (by omega) h.tail.le]
      exact ih quote' h.tail
    | inr _ =>
      rw [hpast] at hround
      exact ⟨_, loop_stop hround, h.tail⟩

theorem agrees_declaration (h : At text pos after) :
    Agrees text (declaration text pos) ((skipDeclaration none after).map ((), ·)) := agrees_declarationRound none h

theorem agrees_attributeValue (h : At text pos after) :
    Agrees text (attributeValue text pos) (Markup.attributeValue after) := by
  unfold attributeValue
  rw [bind_eq (peek_eq h)]
  cases after with
  | nil => rfl
  | cons c more =>
    dsimp only [List.head?_cons]
    rw [Markup.attributeValue]
    split
    · next hquote =>
      have hsize : c.utf8Size = 1 := by rcases hquote with rfl | rfl <;> rfl
      have hmore : At text (pos + 1) more := hsize ▸ h.tail
      obtain ⟨hbody, hend⟩ := takeWhile_eq (· != c) hmore
      rw [bind_eq (advance_eq hmore), bind_eq hbody]
      generalize more.dropWhile (· != c) = here at hend ⊢
      cases here with
      | nil => exact bind_eq (bump_nil hend)
      | cons d left =>
        rw [bind_eq (bump_cons hend).1]
        exact ⟨_, rfl, hend.tail⟩
    · rw [bind_eq (takeFit_eq staysUnquoted h), splitFit_staysUnquoted]
      refine ⟨_, rfl, At.advance ?_⟩
      rw [← splitFit_staysUnquoted, splitFit_append]
      exact h

/-- An attribute, or stray characters, where the tag does not end. -/
theorem agrees_oneAttribute (h : At text pos after) :
    Agrees text (oneAttribute text pos) (attributeAt after) := by
  obtain ⟨hname, h₁⟩ := takeWhile_eq isAttributeChar h
  rw [oneAttribute, bind_eq hname, attributeAt]
  dsimp only
  split
  · next hempty =>
    have hall : after.dropWhile isAttributeChar = after := by
      have := List.takeWhile_append_dropWhile (p := isAttributeChar) (l := after)
      rwa [List.isEmpty_iff.1 hempty, List.nil_append] at this
    rw [hall] at h₁
    obtain ⟨p₂, hskip, h₂⟩ := skipUnquoted_eq h₁
    rw [bind_eq hskip]
    exact ⟨_, rfl, h₂⟩
  · obtain ⟨p₂, hskip, h₂⟩ := skipBlank_eq h₁
    rw [bind_eq hskip, bind_eq (peek_eq h₂)]
    generalize Text.skipBlank (after.dropWhile isAttributeChar) = here at h₂ ⊢
    split
    · next heq =>
      obtain ⟨more, rfl⟩ := List.head?_eq_some_iff.1 heq
      have hmore : At text (p₂ + 1) more := h₂.tail
      obtain ⟨p₃, hblank, h₃⟩ := skipBlank_eq hmore
      rw [bind_eq (advance_eq hmore), bind_eq hblank]
      exact (agrees_attributeValue h₃).bind fun value left p₄ _ h₄ => ⟨p₄, rfl, h₄⟩
    · next hne =>
      split
      · next more => exact absurd rfl hne
      · exact ⟨p₂, rfl, h₂⟩

/-- One round in a start tag, read off the rest of the text. -/
def roundAt (tag : String) (s : List Char) : Except ParseError ((Option (String × String) ⊕ Bool) × List Char) :=
  match Text.skipBlank s with
  | [] => .error (.unclosedStartTag tag)
  | c :: rest =>
    if endsTag (c :: rest) then if c = '>' then .ok (.inr false, rest) else .ok (.inr true, rest.drop 1)
    else (attributeAt (c :: rest)).map fun p => (.inl p.1, p.2)

theorem endsTag_iff {s : List Char} : endsTag s = true ↔ ['>'].isPrefixOf s = true ∨ ['/', '>'].isPrefixOf s = true := by
  unfold endsTag
  split
  · simp
  · simp
  · next h h' =>
    simp only [List.isPrefixOf_iff_prefix, Bool.false_eq_true, false_iff]
    rintro (⟨rest, rfl⟩ | ⟨rest, rfl⟩)
    · exact h rest rfl
    · exact h' rest rfl

theorem agrees_attributeStep (tag : String) (h : At text pos after) :
    Agrees text (attributeStep text tag pos) (roundAt tag after) := by
  obtain ⟨p₁, hblank, h₁⟩ := skipBlank_eq h
  rw [attributeStep, bind_eq hblank, bind_eq (rest_eq h₁), roundAt]
  generalize Text.skipBlank after = here at h₁ ⊢
  cases here with
  | nil => rfl
  | cons c rest =>
    dsimp only
    rw [if_neg (by simp)]
    by_cases hstop : ['>'].isPrefixOf (c :: rest) = true
    · obtain ⟨left, hleft⟩ := List.isPrefixOf_iff_prefix.1 hstop
      obtain ⟨rfl, rfl⟩ := List.cons.inj hleft
      have hleft : At text (p₁ + 1) left := h₁.tail
      rw [if_pos hstop, bind_eq (advance_eq hleft)]
      exact ⟨_, rfl, hleft⟩
    by_cases hslash : ['/', '>'].isPrefixOf (c :: rest) = true
    · obtain ⟨left, hleft⟩ := List.isPrefixOf_iff_prefix.1 hslash
      obtain ⟨rfl, rfl⟩ := List.cons.inj hleft
      have hleft : At text (p₁ + 2) left := h₁.tail.tail
      rw [if_neg hstop, if_pos hslash, bind_eq (advance_eq hleft)]
      exact ⟨_, rfl, hleft⟩
    rw [if_neg hstop, if_neg hslash, if_neg fun h => (endsTag_iff.1 h).elim hstop hslash]
    exact (agrees_oneAttribute h₁).map Sum.inl

/-- What goes on in a start tag is a round, and what goes on behind it. -/
theorem attributesAt_eq (tag : String) (s : List Char) :
    attributesAt tag s = match roundAt tag s with
      | .error e => .error e
      | .ok (.inr selfClosing, left) => .ok ([], selfClosing, left)
      | .ok (.inl found, left) => do
        let (more, selfClosing, left) ← attributesAt tag left
        return (found.toList ++ more, selfClosing, left) := by
  rw [attributesAt, roundAt]
  split
  · next hs => rw [hs]
  · next c rest hs =>
    rw [hs]
    dsimp only
    split
    · split <;> rfl
    · cases attributeAt (c :: rest) <;> rfl

/-- A round takes at least one character. -/
theorem length_roundAt_lt {tag : String} {s left : List Char} {found : Option (String × String) ⊕ Bool}
    (h : roundAt tag s = .ok (found, left)) : left.length < s.length := by
  have hle := length_skipBlank_le s
  unfold roundAt at h
  split at h
  · cases h
  · next c rest hs =>
    rw [hs, List.length_cons] at hle
    split at h
    · split at h <;> cases h
      · omega
      · rw [List.length_drop]
        omega
    · next he =>
      cases ha : attributeAt (c :: rest) with
      | error e => rw [ha] at h; cases h
      | ok p =>
        rw [ha] at h
        cases h
        exact (attributeAt_length_lt (not_isBlank_head_skipBlank hs) (by simpa using he) ha).trans_le hle

theorem agrees_attributesRound (tag : String) (found : List (String × String)) (h : At text pos after) :
    Agrees text (loop text (attributesRound text tag) found pos)
      ((attributesAt tag after).map fun (more, selfClosing, left) => ((found ++ more, selfClosing), left)) := by
  -- on the length of what is left, since a round may take more than one character
  induction hn : after.length using Nat.strongRecOn generalizing after pos found with
  | _ n ih =>
    subst hn
    have hstep := agrees_attributeStep tag h
    rw [attributesAt_eq]
    cases hr : roundAt tag after with
    | error e =>
      rw [hr] at hstep
      exact loop_error (hstep.bind_error _)
    | ok r =>
      obtain ⟨more, left⟩ := r
      rw [hr] at hstep
      obtain ⟨p₁, hstep, h₁⟩ := hstep
      have hlt := length_roundAt_lt hr
      cases more with
      | inr selfClosing =>
        have hround : attributesRound text tag found pos = pure (.inr (found, selfClosing), p₁) := bind_eq hstep
        rw [loop_stop hround]
        exact ⟨p₁, by rw [List.append_nil], h₁⟩
      | inl more =>
        have hround : attributesRound text tag found pos = pure (.inl (found ++ more.toList), p₁) := bind_eq hstep
        have hmore := ih _ hlt (found ++ more.toList) h₁ rfl
        rw [loop_next hround (h.lt h₁ hlt) h₁.le]
        dsimp only
        cases ha : attributesAt tag left with
        | error e => rwa [ha] at hmore
        | ok q =>
          rw [ha] at hmore
          show Agrees text _ (.ok ((found ++ (more.toList ++ q.1), q.2.1), q.2.2))
          rw [← List.append_assoc]
          exact hmore

theorem agrees_attributes (tag : String) (h : At text pos after) :
    Agrees text (attributes text tag pos)
      ((attributesAt tag after).map fun (found, selfClosing, left) => ((found, selfClosing), left)) :=
  agrees_attributesRound tag [] h

end ViewBinding.Markup.Bytes
