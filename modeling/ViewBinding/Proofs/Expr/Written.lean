import ViewBinding.Proofs.Expr.Lexeme

/-! Tokens and their source texts. Tokens that are written one after the other are cut into the same tokens again, if
what is written behind each of them does not join it. -/
namespace ViewBinding

namespace Expr

/-- In a template a backslash stands in front of what would not stand for itself. -/
def templateChar (c : Char) : List Char := if c = backtick ∨ c = '\\' ∨ c = '$' then ['\\', c] else [c]

end Expr

open ViewBinding.Expr

def TemplatePart.written : TemplatePart → List Char
  | .text cs => cs.flatMap templateChar
  | .source cs => '$' :: '\x7b' :: (cs ++ ['\x7d'])

/-- The source text of a token. -/
def Token.written : Token → List Char
  | .number x => (Number.text x).toList
  | .string s => (Text.jsonQuoted s).toList
  | .template parts => backtick :: (parts.flatMap TemplatePart.written ++ [backtick])
  | .ident name => name.toList
  | .punct mark => mark.text.toList
  | .eof => []

/-- Whether a character right behind a token leaves it as it is. -/
def Token.apart : Token → Char → Bool
  | .number _, c => !isIdentContinue c && c != '.'
  | .ident _, c => !isIdentContinue c
  | .punct mark, c => mark.apart c
  | _, _ => true

namespace Expr

section
variable {pos fuel : Nat} {rest : List Char}

/-! Templates. -/

/-- Whether the search for the end of a substitution passes over a text. -/
def Passes (text : List Char) : Prop :=
  ∀ start depth pos rest fuel, text.length ≤ fuel → ∃ fuel' pos', fuel ≤ fuel' + text.length ∧
    substitutionEnd start depth fuel ⟨pos, text ++ rest⟩ = substitutionEnd start depth fuel' ⟨pos', rest⟩

/-- Whether a character neither opens nor closes anything that a substitution can hold. -/
def isPlain (c : Char) : Bool := c != '\'' && c != '"' && c != backtick && c != '\x7b' && c != '\x7d'

theorem passes_nil : Passes [] := fun _ _ pos _ fuel _ => ⟨fuel, pos, Nat.le_add_right _ _, rfl⟩

theorem Passes.append {front behind : List Char} (h : Passes front) (h' : Passes behind) :
    Passes (front ++ behind) := by
  intro start depth pos rest fuel hfuel
  rw [List.length_append] at hfuel
  obtain ⟨middle, pos', hmiddle, hfront⟩ := h start depth pos (behind ++ rest) fuel (by omega)
  obtain ⟨fuel', pos'', hfuel', hbehind⟩ := h' start depth pos' rest middle (by omega)
  refine ⟨fuel', pos'', by rw [List.length_append]; omega, ?_⟩
  rw [List.append_assoc, hfront, hbehind]

theorem passes_singleton {c : Char} (hc : isPlain c = true) : Passes [c] := by
  intro start depth pos rest fuel hfuel
  obtain ⟨fuel, rfl⟩ : ∃ n, fuel = n + 1 := ⟨fuel - 1, by simp at hfuel; omega⟩
  refine ⟨fuel, pos + c.utf8Size, by simp, ?_⟩
  simp only [isPlain, Bool.and_eq_true, bne_iff_ne] at hc
  obtain ⟨⟨⟨⟨hquote, hdouble⟩, hback⟩, hopen⟩, hclose⟩ := hc
  rw [List.singleton_append, substitutionEnd]
  simp only [Cursor.next?, hquote, hdouble, hback, hopen, hclose, or_self, if_false]

theorem passes_of_forall {text : List Char} (h : ∀ c ∈ text, isPlain c = true) : Passes text := by
  induction text with
  | nil => exact passes_nil
  | cons c text ih =>
    exact (passes_singleton (h c (by simp))).append (ih fun d hd => h d (List.mem_cons_of_mem c hd))

theorem Passes.braces {text : List Char} (h : Passes text) : Passes ('\x7b' :: (text ++ ['\x7d'])) := by
  intro start depth pos rest fuel hfuel
  simp only [List.length_cons, List.length_append, List.length_nil] at hfuel
  obtain ⟨fuel, rfl⟩ : ∃ n, fuel = n + 1 := ⟨fuel - 1, by omega⟩
  obtain ⟨middle, pos', hmiddle, htext⟩ := h start (depth + 1) (pos + '\x7b'.utf8Size) ('\x7d' :: rest) fuel (by omega)
  obtain ⟨last, rfl⟩ : ∃ n, middle = n + 1 := ⟨middle - 1, by omega⟩
  refine ⟨last, pos' + '\x7d'.utf8Size, by simp; omega, ?_⟩
  have hopen : substitutionEnd start depth (fuel + 1) ⟨pos, '\x7b' :: (text ++ '\x7d' :: rest)⟩ =
      substitutionEnd start (depth + 1) fuel ⟨pos + '\x7b'.utf8Size, text ++ '\x7d' :: rest⟩ := by
    rw [substitutionEnd]
    rfl
  have hclose : substitutionEnd start (depth + 1) (last + 1) ⟨pos', '\x7d' :: rest⟩ =
      substitutionEnd start depth last ⟨pos' + '\x7d'.utf8Size, rest⟩ := by
    rw [substitutionEnd]
    rfl
  rw [List.cons_append, List.append_assoc, List.singleton_append, hopen, htext, hclose]

theorem passes_quoted (s : String) : Passes (Text.jsonQuoted s).toList := by
  intro start depth pos rest fuel hfuel
  obtain ⟨pos', hstring⟩ := stringToken_quoted pos s rest
  have hquoted : (Text.jsonQuoted s).toList = '"' :: (s.toList.flatMap Text.jsonQuotedChar ++ ['"']) := by
    simp [Text.jsonQuoted]
  rw [hquoted] at hfuel hstring ⊢
  rw [List.length_cons] at hfuel
  obtain ⟨fuel, rfl⟩ : ∃ n, fuel = n + 1 := ⟨fuel - 1, by omega⟩
  refine ⟨fuel, pos', by simp, ?_⟩
  rw [List.cons_append] at hstring ⊢
  rw [substitutionEnd]
  simp only [Cursor.next?, or_true, if_true, hstring, bind, Except.bind]

/-- Whether texts are neither empty nor adjacent and the ends of all substitutions are found. -/
def Alternating : List TemplatePart → Prop
  | [] => True
  | .text cs :: parts => cs ≠ [] ∧ (∀ next, parts.head? ≠ some (.text next)) ∧ Alternating parts
  | .source cs :: parts => Passes cs ∧ Alternating parts

theorem foldr_consText {cs : List Char} {parts : List TemplatePart} (hcs : cs ≠ [])
    (h : ∀ next, parts.head? ≠ some (.text next)) : cs.foldr consText parts = .text cs :: parts := by
  induction cs with
  | nil => exact absurd rfl hcs
  | cons c cs ih =>
    rw [List.foldr_cons]
    cases cs with
    | nil =>
      rw [List.foldr_nil, consText.eq_def]
      split
      · exact absurd rfl (h _)
      · rfl
    | cons d cs => rw [ih (List.cons_ne_nil d cs)]; rfl

/-- The characters of a text go in front of what the rest of a template is read as. -/
theorem templateBody_text (start : Nat) (cs tail : List Char) {parts : List TemplatePart}
    (h : ∀ pos, ∃ pos', templateBody start fuel ⟨pos, tail⟩ = .ok (parts, ⟨pos', rest⟩)) (pos : Nat) :
    ∃ pos', templateBody start (fuel + cs.length) ⟨pos, cs.flatMap templateChar ++ tail⟩ =
      .ok (cs.foldr consText parts, ⟨pos', rest⟩) := by
  induction cs generalizing pos with
  | nil => exact h pos
  | cons c cs ih =>
    rw [List.flatMap_cons, List.append_assoc, List.length_cons, ← Nat.add_assoc, templateChar]
    split
    · next hc =>
      obtain ⟨pos', hread⟩ := ih (pos + '\\'.utf8Size + c.utf8Size)
      refine ⟨pos', ?_⟩
      have hescape : escape ⟨pos + '\\'.utf8Size, c :: (cs.flatMap templateChar ++ tail)⟩ =
          .ok (c, ⟨pos + '\\'.utf8Size + c.utf8Size, cs.flatMap templateChar ++ tail⟩) := by
        rcases hc with rfl | rfl | rfl <;> rfl
      rw [List.cons_append, List.singleton_append, templateBody]
      have hback : '\\' ≠ backtick := by decide
      simp only [Cursor.next?, if_neg hback, if_true, hescape, hread, bind, Except.bind]
      rfl
    · next hc =>
      obtain ⟨pos', hread⟩ := ih (pos + c.utf8Size)
      refine ⟨pos', ?_⟩
      simp only [not_or] at hc
      rw [List.singleton_append, templateBody]
      simp only [Cursor.next?, hc, false_and, if_false, hread, bind, Except.bind]
      rfl

theorem length_le_flatMap_templateChar (cs : List Char) : cs.length ≤ (cs.flatMap templateChar).length := by
  induction cs with
  | nil => exact Nat.le_refl 0
  | cons c cs ih =>
    have hc : 1 ≤ (templateChar c).length := by unfold templateChar; split <;> simp
    rw [List.flatMap_cons, List.length_append, List.length_cons]
    omega

/-- A substitution is cut out of a template and the template goes on behind it. -/
theorem templateBody_source {start : Nat} {cs tail : List Char} {parts : List TemplatePart} (hpasses : Passes cs)
    (hfuel : cs.length < fuel)
    (h : ∀ pos, ∃ pos', templateBody start fuel ⟨pos, tail⟩ = .ok (parts, ⟨pos', rest⟩)) :
    ∃ pos', templateBody start (fuel + 1) ⟨pos, '$' :: '\x7b' :: (cs ++ '\x7d' :: tail)⟩ =
      .ok (.source cs :: parts, ⟨pos', rest⟩) := by
  let inside := pos + '$'.utf8Size + Cursor.byteSize ['\x7b']
  obtain ⟨middle, stop, hmiddle, hstop⟩ := hpasses inside 0 inside ('\x7d' :: tail) fuel hfuel.le
  obtain ⟨last, rfl⟩ : ∃ n, middle = n + 1 := ⟨middle - 1, by omega⟩
  have hend : substitutionEnd inside 0 fuel ⟨inside, cs ++ '\x7d' :: tail⟩ = .ok ⟨stop, '\x7d' :: tail⟩ := by
    rw [hstop, substitutionEnd]
    rfl
  obtain ⟨pos', htail⟩ := h (stop + Cursor.byteSize ['\x7d'])
  refine ⟨pos', ?_⟩
  have hdrop : ∀ pos c text, Cursor.drop 1 ⟨pos, c :: text⟩ = ⟨pos + Cursor.byteSize [c], text⟩ := fun _ _ _ => rfl
  have hback : '$' ≠ backtick := by decide
  have hbackslash : '$' ≠ '\\' := by decide
  rw [templateBody]
  simp only [Cursor.next?, if_neg hback, if_neg hbackslash, Cursor.peek?, List.head?_cons, and_self, if_true, hdrop]
  simp only [inside] at hend
  simp only [bind, Except.bind, hend, hdrop, htail, upTo_append]
  rfl

/-- A template is read up to its closing backtick. -/
theorem templateBody_written (start : Nat) {parts : List TemplatePart} (h : Alternating parts) (rest : List Char)
    (hfuel : (parts.flatMap TemplatePart.written).length < fuel) (pos : Nat) :
    ∃ pos', templateBody start fuel ⟨pos, parts.flatMap TemplatePart.written ++ backtick :: rest⟩ =
      .ok (parts, ⟨pos', rest⟩) := by
  induction parts generalizing fuel pos with
  | nil =>
    obtain ⟨fuel, rfl⟩ : ∃ n, fuel = n + 1 := ⟨fuel - 1, by simp at hfuel; omega⟩
    exact ⟨pos + backtick.utf8Size, by rw [templateBody]; rfl⟩
  | cons part parts ih =>
    rw [List.flatMap_cons, List.length_append] at hfuel
    rw [List.flatMap_cons, List.append_assoc]
    cases part with
    | text cs =>
      obtain ⟨hcs, hnext, hparts⟩ := h
      have hlength : cs.length ≤ (TemplatePart.text cs).written.length := length_le_flatMap_templateChar cs
      obtain ⟨fuel, rfl⟩ : ∃ n, fuel = n + cs.length := ⟨fuel - cs.length, by omega⟩
      rw [← foldr_consText hcs hnext]
      exact templateBody_text start cs _ (ih hparts (by omega)) pos
    | source cs =>
      obtain ⟨hpasses, hparts⟩ := h
      simp only [TemplatePart.written, List.length_cons, List.length_append] at hfuel
      obtain ⟨fuel, rfl⟩ : ∃ n, fuel = n + 1 := ⟨fuel - 1, by omega⟩
      simp only [TemplatePart.written, List.cons_append, List.append_assoc, List.nil_append]
      exact templateBody_source hpasses (by omega) (ih hparts (by omega))

theorem passes_template {parts : List TemplatePart} (h : Alternating parts) :
    Passes (Token.template parts).written := by
  intro start depth pos rest fuel hfuel
  simp only [Token.written, List.length_cons, List.length_append] at hfuel
  obtain ⟨fuel, rfl⟩ : ∃ n, fuel = n + 1 := ⟨fuel - 1, by omega⟩
  obtain ⟨pos', hbody⟩ := templateBody_written pos h rest (by omega : _ < fuel) (pos + backtick.utf8Size)
  refine ⟨fuel, pos', by simp [Token.written], ?_⟩
  have hquote : backtick ≠ '\'' ∧ backtick ≠ '"' := by decide
  rw [Token.written, List.cons_append, List.append_assoc, List.singleton_append, substitutionEnd]
  simp only [Cursor.next?, hquote, or_self, if_false, if_true, hbody, bind, Except.bind]

end

/-! Tokens one after the other. -/

/-- Whether the source text of a token is cut into this token again. -/
def Writable : Token → Prop
  | .number x => (∃ m e, Number.decode x = .finite false m e) ∧ Number.decimal? (Number.text x).toList = some x
  | .string _ | .punct _ => True
  | .template parts => Alternating parts
  | .ident name => isName name.toList = true
  | .eof => False

theorem tokenAt_mark (mark : Punctuator) {rest : List Char} (h : ∀ c ∈ rest.head?, mark.apart c = true) :
    ∃ c text, mark.text.toList = c :: text ∧ Text.isBlank c = false ∧
      ∀ pos, ∃ pos', tokenAt c ⟨pos, c :: (text ++ rest)⟩ = .ok (.punct mark, ⟨pos', rest⟩) := by
  by_cases hdot : mark = .dot
  · subst hdot
    exact ⟨'.', [], rfl, by decide, fun pos => ⟨_, tokenAt_dot fun c hc => by simpa [Punctuator.apart] using h c hc⟩⟩
  · obtain ⟨c, text, htext⟩ : ∃ c text, mark.text.toList = c :: text := by cases mark <;> exact ⟨_, _, rfl⟩
    have hclass : Text.isBlank c = false ∧ Number.isDigit c = false ∧ (c == '.') = false ∧ (c == '\'') = false ∧
        (c == '"') = false ∧ (c == backtick) = false ∧ isIdentStart c = false := by
      cases mark <;> first | exact absurd rfl hdot | (obtain ⟨rfl, -⟩ := List.cons_eq_cons.1 htext.symm; decide)
    obtain ⟨hblank, hdigit, hpoint, hquote, hdouble, hback, hstart⟩ := hclass
    refine ⟨c, text, htext, hblank, fun pos => ?_⟩
    have hmark : punctuator? ⟨pos, c :: (text ++ rest)⟩ = some mark := by
      rw [← List.cons_append, ← htext]
      exact punctuator?_written mark h
    obtain ⟨pos', hdrop⟩ : ∃ pos', Cursor.drop mark.text.length ⟨pos, c :: (text ++ rest)⟩ = ⟨pos', rest⟩ := by
      refine ⟨_, congrArg (Cursor.mk _) ?_⟩
      rw [← List.cons_append, ← htext, ← String.length_toList, List.drop_left]
    refine ⟨pos', ?_⟩
    rw [tokenAt, hdigit, hpoint, hquote, hdouble, hback, hstart, hmark]
    exact congrArg (fun next => Except.ok (Token.punct mark, next)) hdrop

/-- The source text of a token is cut into this token, if what follows does not join it. -/
theorem tokenAt_written {t : Token} (h : Writable t) {rest : List Char} (hrest : ∀ c ∈ rest.head?, t.apart c = true) :
    ∃ c text, t.written = c :: text ∧ Text.isBlank c = false ∧
      ∀ pos, ∃ pos', tokenAt c ⟨pos, c :: (text ++ rest)⟩ = .ok (t, ⟨pos', rest⟩) := by
  cases t with
  | number x =>
    obtain ⟨⟨m, e, hx⟩, hread⟩ := h
    simp only [Token.apart, Bool.and_eq_true, Bool.not_eq_true', bne_iff_ne] at hrest
    exact tokenAt_positional (Number.isPositional_text hx) hread (fun c hc => (hrest c hc).1)
      fun hc => (hrest '.' hc).2 rfl
  | string s =>
    have htext : (Text.jsonQuoted s).toList = '"' :: (s.toList.flatMap Text.jsonQuotedChar ++ ['"']) := by
      simp [Text.jsonQuoted]
    refine ⟨_, _, htext, by decide, fun pos => ?_⟩
    obtain ⟨pos', hstring⟩ := stringToken_quoted pos s rest
    rw [htext, List.cons_append] at hstring
    refine ⟨pos', ?_⟩
    rw [tokenAt, hstring]
    exact congrArg (fun s => Except.ok (Token.string s, Cursor.mk pos' rest)) String.ofList_toList
  | template parts =>
    refine ⟨backtick, parts.flatMap TemplatePart.written ++ [backtick], rfl, by decide, fun pos => ?_⟩
    obtain ⟨pos', hbody⟩ := templateBody_written pos h rest
      (by simp : _ < (backtick :: (parts.flatMap TemplatePart.written ++ backtick :: rest)).length)
      (pos + Cursor.byteSize [backtick])
    refine ⟨pos', ?_⟩
    have htoken : templateToken ⟨pos, backtick :: (parts.flatMap TemplatePart.written ++ backtick :: rest)⟩ =
        .ok (parts, ⟨pos', rest⟩) := hbody
    rw [List.append_assoc, List.singleton_append, tokenAt, htoken]
    rfl
  | ident name =>
    cases htext : name.toList with
    | nil => rw [Writable, htext] at h; cases h
    | cons c text =>
      rw [Writable, htext, isName, Bool.and_eq_true, List.all_eq_true] at h
      have hends : Ends rest := fun d hd => by simpa [Token.apart] using hrest d hd
      refine ⟨c, text, htext, not_isBlank_of_isIdentStart h.1, fun pos =>
        ⟨pos + Cursor.byteSize (c :: text), ?_⟩⟩
      rw [tokenAt_name h.1 h.2 hends, ← htext, String.ofList_toList]
  | punct mark => exact tokenAt_mark mark hrest
  | eof => cases h

theorem exists_written_eq {t : Token} (h : Writable t) : ∃ c text, t.written = c :: text := by
  obtain ⟨c, text, ht, -⟩ := tokenAt_written h fun c (hc : c ∈ ([] : List Char).head?) => by cases hc
  exact ⟨c, text, ht⟩

/-- Whether a text is cut into the given tokens. -/
def Cuts (text : List Char) (tokens : List Token) : Prop :=
  ∀ fuel pos, text.length < fuel → ∃ ts, tokensFrom fuel ⟨pos, text⟩ = .ok ts ∧ ts.map (·.token) = tokens

theorem cuts_nil : Cuts [] [.eof] := fun _ _ _ => tokensFrom_blank (List.forall_mem_nil _)

theorem Cuts.cons {t : Token} {c : Char} {text rest : List Char} {tokens : List Token} (h : Cuts rest tokens)
    (hc : Text.isBlank c = false)
    (ht : ∀ pos, ∃ pos', tokenAt c ⟨pos, c :: (text ++ rest)⟩ = .ok (t, ⟨pos', rest⟩)) :
    Cuts (c :: (text ++ rest)) (t :: tokens) := by
  intro fuel pos hfuel
  rw [List.length_cons, List.length_append] at hfuel
  obtain ⟨fuel, rfl⟩ : ∃ n, fuel = n + 1 := ⟨fuel - 1, by omega⟩
  obtain ⟨pos', htoken⟩ := ht pos
  exact tokensFrom_step (List.forall_mem_nil _) hc htoken (h fuel pos' (by omega))

theorem Cuts.written {t : Token} {rest : List Char} {tokens : List Token} (h : Cuts rest tokens) (ht : Writable t)
    (hrest : ∀ c ∈ rest.head?, t.apart c = true) : Cuts (t.written ++ rest) (t :: tokens) := by
  obtain ⟨c, text, htext, hblank, htoken⟩ := tokenAt_written ht hrest
  rw [htext]
  exact h.cons hblank htoken

/-- Whether a token may be written right behind another one. -/
def Apart (t u : Token) : Prop := ∀ c ∈ u.written.head?, t.apart c = true

/-- Tokens that are written one after the other, each of them apart from the next one, are cut out again. -/
theorem cuts_written {tokens : List Token} (h : ∀ t ∈ tokens, Writable t) (hapart : tokens.IsChain Apart) :
    Cuts (tokens.flatMap Token.written) (tokens ++ [.eof]) := by
  induction tokens with
  | nil => exact cuts_nil
  | cons t tokens ih =>
    have hnext : ∀ c ∈ (tokens.flatMap Token.written).head?, t.apart c = true := by
      intro c hc
      cases tokens with
      | nil => cases hc
      | cons u tokens =>
        obtain ⟨d, text, hu⟩ := exists_written_eq (h u (by simp))
        rw [List.flatMap_cons, hu] at hc
        refine (List.isChain_cons_cons.1 hapart).1 c ?_
        rw [hu]
        exact hc
    exact (ih (fun u hu => h u (List.mem_cons_of_mem t hu)) hapart.tail).written (h t (by simp)) hnext

theorem Cuts.tokens_eq {text : List Char} {tokens : List Token} (h : Cuts text tokens) :
    ∃ ts, Expr.tokens (String.ofList text) = .ok ts ∧ ts.map (·.token) = tokens := by
  rw [Expr.tokens, Cursor.ofString, String.length_ofList, String.toList_ofList]
  exact h _ 0 (Nat.lt_succ_self _)

/-- Tokens whose source texts are cut into the same tokens again, also in a substitution of a template. -/
structure Clean (tokens : List Token) : Prop where
  writable : ∀ t ∈ tokens, Writable t
  apart : tokens.IsChain Apart
  passes : Passes (tokens.flatMap Token.written)

theorem clean_nil : Clean [] := ⟨fun t ht => by (cases ht), .nil, passes_nil⟩

theorem Clean.append {front behind : List Token} (h : Clean front) (h' : Clean behind)
    (hapart : ∀ t ∈ front.getLast?, ∀ u ∈ behind.head?, Apart t u) : Clean (front ++ behind) where
  writable t ht := (List.mem_append.1 ht).elim (h.writable t) (h'.writable t)
  apart := List.isChain_append.2 ⟨h.apart, h'.apart, hapart⟩
  passes := by
    rw [List.flatMap_append]
    exact h.passes.append h'.passes

/-- Braces are marks of their own: a substitution ends at the brace that closes it. -/
def isBrace (mark : Punctuator) : Bool := mark = .lbrace || mark = .rbrace

theorem isPlain_of_isIdentContinue {c : Char} (h : isIdentContinue c = true) : isPlain c = true := by
  have hplain : ∀ d : Char, isIdentContinue d = false → c ≠ d := by
    rintro d hd rfl
    rw [h] at hd
    cases hd
  simp only [isPlain, Bool.and_eq_true, bne_iff_ne]
  exact ⟨⟨⟨⟨hplain _ (by decide), hplain _ (by decide)⟩, hplain _ (by decide)⟩, hplain _ (by decide)⟩,
    hplain _ (by decide)⟩

theorem clean_token {t : Token} (h : Writable t) (ht : ∀ mark, t = .punct mark → isBrace mark = false) :
    Clean [t] where
  writable u hu := by rwa [List.mem_singleton.1 hu]
  apart := .singleton t
  passes := by
    rw [List.flatMap_singleton]
    cases t with
    | number x =>
      obtain ⟨⟨m, e, hx⟩, -⟩ := h
      obtain ⟨whole, fraction, htext, -, hwhole, hfraction⟩ := Number.isPositional_text hx
      refine passes_of_forall fun c hc => ?_
      have hdigit : ∀ c, Number.isDigit c = true → isPlain c = true := fun c hc =>
        isPlain_of_isIdentContinue (isIdentContinue_of_isDigit hc)
      rw [Token.written, htext, List.mem_append] at hc
      rcases hc with hc | hc
      · exact hdigit c (hwhole c hc)
      · rcases hfraction with rfl | ⟨places, rfl, hplaces⟩
        · cases hc
        · rcases List.mem_cons.1 hc with rfl | hc
          · decide
          · exact hdigit c (hplaces c hc)
    | string s => exact passes_quoted s
    | template parts => exact passes_template h
    | ident name => exact passes_of_forall fun c hc => isPlain_of_isIdentContinue (isIdentContinue_of_isName h hc)
    | punct mark =>
      have hbrace := ht mark rfl
      have hplain : mark.text.toList.all isPlain = true := by
        cases mark <;> first | rfl | cases hbrace
      exact passes_of_forall (List.all_eq_true.1 hplain)
    | eof => exact passes_nil

/-- A character that no name, no number and no longer mark goes on with leaves every token as it is. -/
theorem apart_of {c : Char} (hcontinue : isIdentContinue c = false) (hc : c ∉ ['.', '?', '=']) (t : Token) :
    t.apart c = true := by
  have hdigit : Number.isDigit c = false := by
    by_contra h
    rw [isIdentContinue_of_isDigit (by simpa using h)] at hcontinue
    cases hcontinue
  simp only [List.mem_cons, List.not_mem_nil, or_false, not_or] at hc
  cases t with
  | number | ident => simp [Token.apart, hcontinue, hc]
  | punct mark => cases mark <;> simp [Token.apart, Punctuator.apart, hdigit, hc]
  | _ => rfl

theorem Clean.braces {tokens : List Token} (h : Clean tokens) :
    Clean (.punct .lbrace :: (tokens ++ [.punct .rbrace])) where
  writable t ht := by
    simp only [List.mem_cons, List.mem_append, List.not_mem_nil, or_false] at ht
    rcases ht with rfl | ht | rfl
    · trivial
    · exact h.writable t ht
    · trivial
  apart := by
    refine List.isChain_cons.2 ⟨fun t _ c _ => rfl, List.isChain_append.2 ⟨h.apart, .singleton _, ?_⟩⟩
    intro t _ u hu c hc
    cases hu
    cases hc
    exact apart_of (by decide) (by decide) t
  passes := by
    rw [List.flatMap_cons, List.flatMap_append, List.flatMap_singleton]
    exact h.passes.braces

end Expr

end ViewBinding
