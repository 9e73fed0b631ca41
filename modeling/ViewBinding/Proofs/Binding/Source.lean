import ViewBinding.Proofs.Binding.Entry
import ViewBinding.Proofs.Expr.Spelled

/-!
Expressions in entries. The scan for double colons and the reader of expressions agree on what is quoted and what is in
brackets, unless a template holds a backtick inside a substitution: for the scan that backtick ends the template.
-/
namespace ViewBinding.Binding

open ViewBinding.Expr (Balanced Inside IsQuote Lexeme Spelled isNeutral isSealedSource isSimple)

variable {quote c : Char} {text body rest : List Char} {t : Token} {ts : List Token} {depth : Nat}

/-! Neutral characters and quotations. -/

theorem isPlain_of_isNeutral (h : isNeutral c = true) : isPlain c = true := by
  have hne := List.all_eq_true.1 h
  simp only [Expr.special, List.forall_mem_cons, bne_iff_ne] at hne
  obtain ⟨hback, hsingle, hdouble, htick, hlparen, hrparen, hlbracket, hrbracket, hlbrace, hrbrace, -⟩ := hne
  simp only [isPlain, isQuote, isOpening, isClosing, Bool.and_eq_true, bne_iff_ne, Bool.not_eq_true', Bool.or_eq_false_iff,
    beq_eq_false_iff_ne]
  exact ⟨⟨⟨hback, ⟨hsingle, hdouble⟩, htick⟩, ⟨hlparen, hlbracket⟩, hlbrace⟩, ⟨hrparen, hrbracket⟩, hrbrace⟩

theorem colon_notMem_of_isNeutral (h : ∀ c ∈ text, isNeutral c = true) : ':' ∉ text :=
  fun hmem => absurd (h _ hmem) (by decide)

theorem isNeutral_of_isBlank (h : Text.isBlank c = true) : isNeutral c = true := Expr.isNeutral_of (by decide +kernel) h

/-- Outside of quotes, in so many brackets. -/
def Nesting.within (depth : Nat) : Nesting := ⟨none, depth, false⟩

theorem Passes.neutral (h : ∀ c ∈ text, isNeutral c = true) :
    Passes [':', ':'] (.within depth) text rest (.within depth) :=
  .of_isPlain (fun c hc => isPlain_of_isNeutral (h c hc)) (colon_notMem_of_isNeutral h) rfl rfl

theorem Passes.blank (h : ∀ c ∈ text, Text.isBlank c = true) :
    Passes [':', ':'] (.within depth) text rest (.within depth) :=
  .neutral fun c hc => isNeutral_of_isBlank (h c hc)

theorem Passes.singleton {s : Nesting} (hc : c ≠ ':') : Passes [':', ':'] s [c] rest (s.step c) :=
  .cons (by simp [List.isPrefixOf, hc.symm]) .nil

theorem spec_of_isQuote (h : IsQuote quote) : isQuote quote = true ∧ quote ≠ '\\' ∧ quote ≠ ':' := by
  rcases h with rfl | rfl | rfl <;> decide

theorem not_cut {s : Nesting} (h : s.quote ≠ none) : ¬(s = .start ∧ [':', ':'].isPrefixOf (c :: rest) = true) := by
  rintro ⟨rfl, -⟩
  exact h rfl

/-- Nothing inside a quotation ends it for the scan. -/
theorem Passes.inside (h : Inside quote body) :
    Passes [':', ':'] ⟨some quote, depth, false⟩ body rest ⟨some quote, depth, false⟩ := by
  induction h with
  | nil => exact .nil
  | char hquote hescape _ ih =>
    refine .cons (not_cut (by simp)) ?_
    rw [Nesting.step]
    simpa [hquote, hescape] using ih
  | escaped _ ih => exact .cons (not_cut (by simp)) (.cons (not_cut (by simp [Nesting.step])) ih)

theorem Passes.quoted (hquote : IsQuote quote) (h : Inside quote body) :
    Passes [':', ':'] (.within depth) (quote :: (body ++ [quote])) rest (.within depth) := by
  obtain ⟨hisQuote, hback, hcolon⟩ := spec_of_isQuote hquote
  have hopen : (Nesting.within depth).step quote = ⟨some quote, depth, false⟩ := by
    simp [Nesting.within, Nesting.step, hback, hisQuote]
  have hclose : Nesting.step ⟨some quote, depth, false⟩ quote = .within depth := by
    simp [Nesting.within, Nesting.step, hback]
  have hend : ∀ rest, Passes [':', ':'] ⟨some quote, depth, false⟩ [quote] rest (.within depth) := fun rest =>
    hclose ▸ .singleton hcolon
  refine .cons (by simp [List.isPrefixOf, hcolon.symm]) ?_
  rw [hopen]
  exact .append (.inside h) (hend rest)

/-! Tokens. -/

theorem isNeutral_of_isSimple {mark : Punctuator} (h : isSimple (.punct mark) = true) :
    ∀ c ∈ mark.text.toList, isNeutral c = true := by
  have hall : mark.text.toList.all isNeutral = true := by
    cases mark <;> first | rfl | cases h
  exact List.all_eq_true.1 hall

/-- A token that is neither bracket nor colon leaves the depth as it is. -/
theorem Passes.lexeme (ht : isSimple t = true) (h : Lexeme t text) :
    Passes [':', ':'] (.within depth) text rest (.within depth) := by
  cases h with
  | mark mark => exact .neutral (isNeutral_of_isSimple ht)
  | neutral _ _ h => exact .neutral h
  | quoted _ hquote h => exact .quoted hquote h

theorem eq_text_of_lexeme {mark : Punctuator} (ht : isSimple (.punct mark) = false) (h : Lexeme (.punct mark) text) :
    text = mark.text.toList := by
  cases h with
  | mark => rfl
  | neutral h => cases ht.symm.trans h
  | quoted h => cases ht.symm.trans h

/-- Brackets are the same for both. -/
theorem exists_chars_of_closing? {opening closing : Punctuator} (h : opening.closing? = some closing) :
    isSimple (.punct opening) = false ∧ isSimple (.punct closing) = false ∧
      ∃ c d, opening.text.toList = [c] ∧ closing.text.toList = [d] ∧ isOpening c = true ∧ isClosing d = true := by
  cases opening with
  | lparen => cases h; exact ⟨rfl, rfl, '(', ')', rfl, rfl, rfl, rfl⟩
  | lbracket => cases h; exact ⟨rfl, rfl, '[', ']', rfl, rfl, rfl, rfl⟩
  | lbrace => cases h; exact ⟨rfl, rfl, '\x7b', '\x7d', rfl, rfl, rfl, rfl⟩
  | _ => cases h

theorem Passes.opening (h : isOpening c = true) : Passes [':', ':'] (.within depth) [c] rest (.within (depth + 1)) := by
  obtain (rfl | rfl) | rfl : (c = '(' ∨ c = '[') ∨ c = '\x7b' := by simpa [isOpening] using h
  all_goals exact .singleton (by decide)

theorem Passes.closing (h : isClosing c = true) : Passes [':', ':'] (.within (depth + 1)) [c] rest (.within depth) := by
  obtain (rfl | rfl) | rfl : (c = ')' ∨ c = ']') ∨ c = '\x7d' := by simpa [isClosing] using h
  all_goals exact .singleton (by decide)

/-- What passes one bracket further down passes in brackets. -/
theorem Passes.brackets {opening closing : Punctuator} (h : opening.closing? = some closing)
    (hinner : ∀ {inner rest : List Char}, Spelled ts inner →
      Passes [':', ':'] (.within (depth + 1)) inner rest (.within (depth + 1)))
    (hspelled : Spelled (.punct opening :: (ts ++ [.punct closing])) text) :
    Passes [':', ':'] (.within depth) text rest (.within depth) := by
  obtain ⟨hopening, hclosing, c, d, hc, hd, hisOpening, hisClosing⟩ := exists_chars_of_closing? h
  obtain ⟨blank, lexeme, behind, rfl, hblank, hlexeme, hbehind⟩ := hspelled.exists_cons
  obtain ⟨inner, last, rfl, hinside, hlast⟩ := hbehind.exists_append
  obtain ⟨blank', lexeme', behind, rfl, hblank', hlexeme', hnil⟩ := hlast.exists_cons
  cases hnil
  rw [eq_text_of_lexeme hopening hlexeme, hc, eq_text_of_lexeme hclosing hlexeme', hd]
  exact .append (.blank hblank) (.append (.opening hisOpening)
    (.append (hinner hinside) (.append (.blank hblank') (.append (.closing hisClosing) .nil))))

theorem head_ne_colon_of_lexeme (ht : t ≠ .punct .colon) (h : Lexeme t text) :
    ∃ c behind, text = c :: behind ∧ c ≠ ':' := by
  cases h with
  | mark mark =>
    have hhead : mark.text.toList.head?.any (· != ':') = true := by
      cases mark <;> first | exact absurd rfl ht | rfl
    obtain ⟨c, hc, hne⟩ := (Option.any_eq_true ..).1 hhead
    obtain ⟨behind, hbehind⟩ := List.head?_eq_some_iff.1 hc
    exact ⟨c, behind, hbehind, bne_iff_ne.1 hne⟩
  | neutral _ hne hneutral =>
    obtain ⟨c, behind, rfl⟩ := List.exists_cons_of_ne_nil hne
    exact ⟨c, behind, rfl, fun hc => colon_notMem_of_isNeutral hneutral (by simp [hc])⟩
  | quoted _ hquote _ => exact ⟨_, _, rfl, (spec_of_isQuote hquote).2.2⟩

theorem exists_cons_of_balanced (h : Balanced ts) : ∃ t more, ts = t :: more ∧ t ≠ .punct .colon := by
  induction h with
  | token ht =>
    refine ⟨_, [], rfl, ?_⟩
    rintro rfl
    cases ht
  | append _ _ ih _ =>
    obtain ⟨t, more, rfl, ht⟩ := ih
    exact ⟨t, _, rfl, ht⟩
  | colon _ _ ih _ =>
    obtain ⟨t, more, rfl, ht⟩ := ih
    exact ⟨t, _, rfl, ht⟩
  | pair h => exact ⟨_, _, rfl, fun heq => by cases heq; cases h⟩
  | brackets h => exact ⟨_, _, rfl, fun heq => by cases heq; cases h⟩

/-- What balanced tokens are written as starts with something else than a colon. -/
theorem head_ne_colon (h : Balanced ts) (hspelled : Spelled ts text) : ∃ c behind, text = c :: behind ∧ c ≠ ':' := by
  obtain ⟨t, more, rfl, ht⟩ := exists_cons_of_balanced h
  obtain ⟨blank, lexeme, rest, rfl, hblank, hlexeme, -⟩ := hspelled.exists_cons
  obtain ⟨c, behind, rfl, hc⟩ := head_ne_colon_of_lexeme ht hlexeme
  cases blank with
  | nil => exact ⟨c, _, rfl, hc⟩
  | cons d blank =>
    refine ⟨d, _, rfl, ?_⟩
    rintro rfl
    exact absurd (hblank ':' (by simp)) (by decide +kernel)

/-- No cut falls into balanced tokens. -/
theorem Passes.balanced (h : Balanced ts) (hspelled : Spelled ts text) :
    Passes [':', ':'] (.within depth) text rest (.within depth) := by
  induction h generalizing text depth rest with
  | token ht =>
    obtain ⟨blank, lexeme, behind, rfl, hblank, hlexeme, hnil⟩ := hspelled.exists_cons
    cases hnil
    exact .append (.blank hblank) (.append (.lexeme ht hlexeme) .nil)
  | append _ _ ih ih' =>
    obtain ⟨a, b, rfl, ha, hb⟩ := hspelled.exists_append
    exact .append (ih ha) (ih' hb)
  | colon _ hbehind ih ih' =>
    obtain ⟨a, b, rfl, ha, hb⟩ := hspelled.exists_append
    obtain ⟨blank, lexeme, b, rfl, hblank, hlexeme, hb'⟩ := hb.exists_cons
    obtain ⟨c, behind, rfl, hc⟩ := head_ne_colon hbehind hb'
    rw [eq_text_of_lexeme rfl hlexeme]
    exact .append (ih ha) (.append (.blank hblank) (.cons (by simp [List.isPrefixOf, hc.symm]) (ih' hb')))
  | pair h =>
    have hinner : ∀ {inner rest : List Char}, Spelled [] inner →
        Passes [':', ':'] (.within (depth + 1)) inner rest (.within (depth + 1)) := fun hnil => by
      cases hnil
      exact .nil
    exact .brackets h hinner hspelled
  | brackets h _ ih => exact .brackets h ih hspelled

/-! Escapes. -/

/-- A character that neither opens a quotation nor starts an escape. -/
def isUnquoted (c : Char) : Bool := c != '\\' && !isQuote c

theorem isUnquoted_of_isNeutral (h : isNeutral c = true) : isUnquoted c = true := by
  have hplain := isPlain_of_isNeutral h
  rw [isPlain, Bool.and_eq_true, Bool.and_eq_true] at hplain
  exact hplain.1.1

theorem unescapeFrom_unquoted (h : ∀ c ∈ text, isUnquoted c = true) :
    unescapeFrom none (text ++ rest) = text ++ unescapeFrom none rest := by
  induction text with
  | nil => rfl
  | cons c text ih =>
    obtain ⟨hback, hquote⟩ : c ≠ '\\' ∧ isQuote c = false := by simpa [isUnquoted] using h c (by simp)
    have hnone : quoteAfter none c = none := by simp [quoteAfter, hquote]
    rw [List.cons_append, unescapeFrom_cons hback, hnone, ih fun d hd => h d (by simp [hd]), List.cons_append]

theorem unescapeFrom_blank (h : ∀ c ∈ text, Text.isBlank c = true) :
    unescapeFrom none (text ++ rest) = text ++ unescapeFrom none rest :=
  unescapeFrom_unquoted fun c hc => isUnquoted_of_isNeutral (isNeutral_of_isBlank (h c hc))

theorem unescapeFrom_inside (h : Inside quote body) :
    unescapeFrom (some quote) (body ++ rest) = body ++ unescapeFrom (some quote) rest := by
  induction h with
  | nil => rfl
  | char hquote hescape _ ih =>
    rw [List.cons_append, unescapeFrom_cons hescape, quoteAfter, if_neg hquote, ih, List.cons_append]
  | escaped _ ih =>
    rw [List.cons_append, List.cons_append, unescapeFrom, if_neg (by simp), ih]
    rfl

/-- No backslash stands outside of quotes. -/
theorem unescapeFrom_lexeme (h : Lexeme t text) : unescapeFrom none (text ++ rest) = text ++ unescapeFrom none rest := by
  cases h with
  | mark mark =>
    have hall : mark.text.toList.all isUnquoted = true := by cases mark <;> rfl
    exact unescapeFrom_unquoted (List.all_eq_true.1 hall)
  | neutral _ _ h => exact unescapeFrom_unquoted fun c hc => isUnquoted_of_isNeutral (h c hc)
  | @quoted _ quote body _ hquote h =>
    obtain ⟨hisQuote, hback, -⟩ := spec_of_isQuote hquote
    have hopen : quoteAfter none quote = some quote := by simp [quoteAfter, hisQuote]
    have hclose : quoteAfter (some quote) quote = none := by simp [quoteAfter]
    calc unescapeFrom none (quote :: (body ++ [quote]) ++ rest)
      _ = unescapeFrom none (quote :: (body ++ quote :: rest)) := by simp
      _ = quote :: (body ++ quote :: unescapeFrom none rest) := by
        rw [unescapeFrom_cons hback, hopen, unescapeFrom_inside h, unescapeFrom_cons hback, hclose]
      _ = quote :: (body ++ [quote]) ++ unescapeFrom none rest := by simp

theorem unescapeFrom_spelled (h : Spelled ts text) : unescapeFrom none (text ++ rest) = text ++ unescapeFrom none rest := by
  induction h with
  | nil => rfl
  | cons hblank ht _ ih =>
    rw [List.append_assoc, List.append_assoc, unescapeFrom_blank hblank, unescapeFrom_lexeme ht, ih, List.append_assoc,
      List.append_assoc]

/-! Entries. -/

variable {src pipe : String} {expr : Expr}

/-- Around an expression, the scan is where it was. -/
theorem passes_source (hparse : Expr.parse (trimmed src) = .ok expr) (hsealed : isSealedSource (trimmed src) = true) :
    unescape (Text.trim src.toList) = Text.trim src.toList ∧ Text.trim src.toList ≠ [] ∧
      ∀ rest, Passes [':', ':'] .start src.toList rest .start := by
  obtain ⟨ts, text, blank, htext, hbalanced, hspelled, hblank⟩ := Expr.spelled_of_parse hparse hsealed
  rw [trimmed, String.toList_ofList] at htext
  obtain ⟨c, behind, hcons, -⟩ := head_ne_colon hbalanced hspelled
  refine ⟨?_, by simp [htext, hcons], fun rest => ?_⟩
  · have hnone : unescapeFrom none blank = blank := by
      have hend := @unescapeFrom_blank _ [] hblank
      simpa [unescapeFrom] using hend
    rw [htext, unescape, unescapeFrom_spelled hspelled, hnone]
  · obtain ⟨front, last, hsrc, hfront, hlast⟩ := Text.exists_trim src.toList
    have hstart : Nesting.start = .within 0 := rfl
    rw [hsrc, htext, hstart]
    exact .append (.append (.blank hfront) (.append (.balanced hbalanced hspelled) (.blank hblank))) (.blank hlast)

theorem isIdentContinue_of_isAsciiLetter (h : Text.isAsciiLetter c = true) : Expr.isIdentContinue c = true := by
  simp [Expr.isIdentContinue, Text.isAlphanumeric, Text.isAscii_of_isAsciiLetter h, Text.isAsciiWord, h]

/-- An expression is the whole of an entry, also where a pipe follows it. -/
theorem parseAll_source (hparse : Expr.parse (trimmed src) = .ok expr) (hsealed : isSealedSource (trimmed src) = true)
    (hne : pipe ≠ "") (hpipe : ∀ c ∈ pipe.toList, Text.isAsciiLetter c = true) :
    parseAll .content src = [.ok ⟨.content, none, trimmed src, none⟩] ∧
      parseAll .content (src ++ "::" ++ pipe) = [.ok ⟨.content, none, trimmed src, some pipe⟩] := by
  obtain ⟨hunescape, hnil, hpasses⟩ := passes_source hparse hsealed
  have hbare : ∀ c ∈ pipe.toList, isBare c = true := fun c hc =>
    isBare_of_isIdentContinue (isIdentContinue_of_isAsciiLetter (hpipe c hc))
  have hone : fields src.toList = [Text.trim src.toList] := by
    rw [fields, splitTopLevel, splitFrom_of_passes (hpasses []), List.map_singleton, hunescape]
  have htwo : fields (src ++ "::" ++ pipe).toList = [Text.trim src.toList, pipe.toList] := by
    have htext : (src ++ "::" ++ pipe).toList = src.toList ++ ([':', ':'] ++ pipe.toList) := by simp
    have hcolon : ':' ∉ pipe.toList := fun hmem => (spec_of_isBare (hbare _ hmem)).2.2.1 rfl
    rw [fields, htext, splitTopLevel_append (hpasses _), splitTopLevel, splitFrom_of_notMem hcolon]
    simp [hunescape, unescape_trim_of_isBare hbare]
  have hfull : ([Text.trim src.toList, pipe.toList].any (·.isEmpty)) = false := by simp [hnil, hne]
  constructor
  · rw [parseAll, parseEntry_of_fields hone (by simp [hnil]) rfl]
    rfl
  · rw [parseAll, parseEntry_of_fields htwo hfull rfl, String.ofList_toList]
    rfl

/-- Colons in a string, in a template and between the branches of a conditional. -/
def nestedColons : String := " a ? `$\x7b'::'\x7d::\\``[b] : '::'"

theorem parseAll_nestedColons :
    parseAll .content nestedColons = [.ok ⟨.content, none, trimmed nestedColons, none⟩] ∧
      parseAll .content (nestedColons ++ "::" ++ "up") = [.ok ⟨.content, none, trimmed nestedColons, some "up"⟩] := by
  have hok : (Expr.parse (trimmed nestedColons)).isOk = true := by decide +kernel
  cases hparse : Expr.parse (trimmed nestedColons) with
  | error e => rw [hparse] at hok; cases hok
  | ok expr => exact parseAll_source hparse (by decide +kernel) (by decide) (List.all_eq_true.1 rfl)

end ViewBinding.Binding
