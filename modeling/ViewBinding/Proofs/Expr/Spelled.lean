import ViewBinding.Proofs.Expr.Balanced
import ViewBinding.Proofs.Expr.Lexeme
import ViewBinding.Proofs.Markup.Regular

/-! The texts of tokens. What the reader cuts out of a text is one piece of it for each token, with white space in between,
and the quotes in a piece are those that enclose it, unless a substitution holds more of them. -/
namespace ViewBinding.Expr

open Markup (exists_of_bind_eq_ok)

/-- The inside of a quotation. A backslash takes the next character along, and the quote does not stand without one. -/
inductive Inside (quote : Char) : List Char → Prop
  | nil : Inside quote []
  | char {c : Char} {rest : List Char} (hquote : c ≠ quote) (hescape : c ≠ '\\') (h : Inside quote rest) :
    Inside quote (c :: rest)
  | escaped {c : Char} {rest : List Char} (h : Inside quote rest) : Inside quote ('\\' :: c :: rest)

/-- Whether no backtick stands in a text without a backslash that takes it along. -/
def isSealed : List Char → Bool
  | '\\' :: _ :: rest => isSealed rest
  | c :: rest => c != backtick && isSealed rest
  | [] => true

/-- Whether no substitution among the parts of a template holds a backtick of its own. -/
def areSealed (parts : List TemplatePart) : Bool :=
  parts.all fun
    | .source cs => isSealed cs
    | .text _ => true

variable {quote c : Char} {front behind text : List Char} {cur next : Cursor}

theorem Inside.append (h : Inside quote front) (h' : Inside quote behind) : Inside quote (front ++ behind) := by
  induction h with
  | nil => exact h'
  | char hquote hescape _ ih => exact .char hquote hescape ih
  | escaped _ ih => exact .escaped ih

theorem inside_of_forall (h : ∀ c ∈ text, c ≠ quote ∧ c ≠ '\\') : Inside quote text := by
  induction text with
  | nil => exact .nil
  | cons c text ih => exact .char (h c (by simp)).1 (h c (by simp)).2 (ih fun d hd => h d (by simp [hd]))

theorem isSealed_cons (hc : c ≠ '\\') (h : isSealed (c :: text) = true) : c ≠ backtick ∧ isSealed text = true := by
  rw [isSealed] at h
  · simpa using h
  · exact fun _ _ he => absurd he hc

/-- A backslash at the end takes the closing brace along. -/
theorem inside_of_isSealed (h : isSealed text = true) : Inside backtick (text ++ ['\x7d']) := by
  induction text using isSealed.induct with
  | case1 c rest ih => exact .escaped (ih h)
  | case2 c rest hne ih =>
    by_cases hc : c = '\\'
    · cases rest with
      | nil => exact hc ▸ .escaped .nil
      | cons d rest => exact absurd rfl (hne d rest hc)
    · obtain ⟨hback, hrest⟩ := isSealed_cons hc h
      exact .char hback hc (ih hrest)
  | case3 => exact .char (by decide) (by decide) .nil

/-! Escapes, strings and templates. -/

/-- The characters that enclose strings and templates. -/
def IsQuote (c : Char) : Prop := c = '\'' ∨ c = '"' ∨ c = backtick

theorem IsQuote.inside_of_isHexDigit (hquote : IsQuote quote) (h : ∀ c ∈ text, Number.isHexDigit c = true) :
    Inside quote text := by
  refine inside_of_forall fun c hc => ⟨?_, ?_⟩
  · rintro rfl
    rcases hquote with rfl | rfl | rfl <;> exact absurd (h _ hc) (by decide)
  · rintro rfl
    exact absurd (h _ hc) (by decide)

theorem IsQuote.inside_brace (hquote : IsQuote quote) : Inside quote ['\x7b'] ∧ Inside quote ['\x7d'] := by
  rcases hquote with rfl | rfl | rfl <;> exact ⟨.char (by decide) (by decide) .nil, .char (by decide) (by decide) .nil⟩

theorem hexEscape_spec (hquote : IsQuote quote) {count : Nat} (h : hexEscape count cur = .ok (c, next)) :
    ∃ digits, cur.rest = digits ++ next.rest ∧ Inside quote digits := by
  unfold hexEscape at h
  simp only [bind, Except.bind] at h
  split at h
  · cases h
  · next hhex =>
    rw [Bool.or_eq_true, not_or, Bool.not_eq_true', Bool.not_eq_false, List.all_eq_true] at hhex
    split at h
    · cases h
    · cases h
      exact ⟨cur.rest.take count, (List.take_append_drop ..).symm, hquote.inside_of_isHexDigit hhex.2⟩

theorem bracedEscape_spec (hquote : IsQuote quote) {pos : Nat} (h : bracedEscape pos cur = .ok (c, next)) :
    ∃ digits, cur.rest = digits ++ next.rest ∧ Inside quote digits := by
  unfold bracedEscape at h
  simp only [Cursor.span, Cursor.next?, bind, Except.bind] at h
  cases hrest : cur.rest.dropWhile Number.isHexDigit with
  | nil =>
    rw [hrest] at h
    cases h
  | cons d rest =>
    rw [hrest] at h
    simp only at h
    split at h
    · next heq =>
      cases heq
      split at h
      · cases h
      · cases h
        refine ⟨cur.rest.takeWhile Number.isHexDigit ++ ['\x7d'], ?_, .append ?_ hquote.inside_brace.2⟩
        · conv_lhs => rw [← List.takeWhile_append_dropWhile (p := Number.isHexDigit) (l := cur.rest), hrest]
          simp
        · exact hquote.inside_of_isHexDigit fun c hc => List.mem_takeWhile_imp hc
    · cases h

theorem escape_spec (hquote : IsQuote quote) (h : escape cur = .ok (c, next)) :
    ∃ text, cur.rest = text ++ next.rest ∧ Inside quote ('\\' :: text) := by
  unfold escape at h
  cases hrest : cur.rest with
  | nil => simp [Cursor.next?, hrest] at h
  | cons d rest =>
    simp only [Cursor.next?, hrest] at h
    have hplain : ∀ {c' : Char},
        (.ok (c', ⟨cur.pos + d.utf8Size, rest⟩) : Except ParseError (Char × Cursor)) = .ok (c, next) →
          ∃ text, d :: rest = text ++ next.rest ∧ Inside quote ('\\' :: text) := fun he => by
      cases he
      exact ⟨[d], rfl, .escaped .nil⟩
    split at h
    all_goals try exact hplain h
    · obtain ⟨digits, hdigits, hinside⟩ := hexEscape_spec hquote h
      exact ⟨'x' :: digits, congrArg _ hdigits, .escaped hinside⟩
    · split at h
      · next inner hinner =>
        obtain ⟨digits, hdigits, hinside⟩ := bracedEscape_spec hquote h
        cases rest with
        | nil => cases hinner
        | cons e rest =>
          cases hinner
          exact ⟨'u' :: '\x7b' :: digits, congrArg ('u' :: '\x7b' :: ·) hdigits,
            .escaped (hquote.inside_brace.1.append hinside)⟩
      · obtain ⟨digits, hdigits, hinside⟩ := hexEscape_spec hquote h
        exact ⟨'u' :: digits, congrArg _ hdigits, .escaped hinside⟩

theorem stringBody_spec (hquote : IsQuote quote) {start fuel : Nat} {value : List Char}
    (h : stringBody quote start fuel cur = .ok (value, next)) :
    ∃ body, cur.rest = body ++ quote :: next.rest ∧ Inside quote body := by
  induction fuel generalizing cur value with
  | zero => cases h
  | succ fuel ih =>
    rw [stringBody] at h
    cases hrest : cur.rest with
    | nil => simp [Cursor.next?, hrest] at h
    | cons c rest =>
      simp only [Cursor.next?, hrest] at h
      split_ifs at h with hend hback
      · cases h
        exact ⟨[], by rw [hend]; rfl, .nil⟩
      · obtain ⟨⟨d, inner⟩, hescape, h⟩ := exists_of_bind_eq_ok h
        obtain ⟨⟨value, next⟩, hread, h⟩ := exists_of_bind_eq_ok h
        cases h
        obtain ⟨text, htext, hinside⟩ := escape_spec hquote hescape
        obtain ⟨body, hinner, hbody⟩ := ih hread
        dsimp only at htext hinner
        exact ⟨'\\' :: text ++ body, by rw [hback, htext, hinner]; simp, hinside.append hbody⟩
      · obtain ⟨plain, hplain, h⟩ := exists_of_bind_eq_ok h
        cases hplain
        obtain ⟨⟨value, next⟩, hread, h⟩ := exists_of_bind_eq_ok h
        cases h
        obtain ⟨body, hbody, hinside⟩ := ih hread
        dsimp only at hbody
        exact ⟨c :: body, by rw [hbody]; rfl, .char hend hback hinside⟩

theorem stringToken_spec (hquote : IsQuote quote) {value rest : List Char} (hcur : cur.rest = quote :: rest)
    (h : stringToken quote cur = .ok (value, next)) :
    ∃ body, cur.rest = quote :: (body ++ quote :: next.rest) ∧ Inside quote body := by
  obtain ⟨body, hbody, hinside⟩ := stringBody_spec hquote h
  refine ⟨body, ?_, hinside⟩
  rw [hcur, ← hbody, Cursor.drop, hcur]
  rfl

theorem areSealed_of_consText {parts : List TemplatePart} (h : areSealed (consText c parts) = true) :
    areSealed parts = true := by
  unfold consText at h
  split at h <;> exact h

/-- What templates and their substitutions take, with a bound on the depth of calls. -/
structure Quotations (fuel : Nat) : Prop where
  template : ∀ {start : Nat} {cur next : Cursor} {parts : List TemplatePart},
    templateBody start fuel cur = .ok (parts, next) →
      ∃ body, cur.rest = body ++ backtick :: next.rest ∧ (areSealed parts = true → Inside backtick body)
  substitution : ∀ {start depth : Nat} {cur stop : Cursor}, substitutionEnd start depth fuel cur = .ok stop →
    ∃ inner rest, cur.rest = inner ++ '\x7d' :: rest ∧ stop.rest = '\x7d' :: rest

namespace Quotations

variable {fuel : Nat} (ih : Quotations fuel)
include ih

theorem template_succ {start : Nat} {parts : List TemplatePart} (h : templateBody start (fuel + 1) cur = .ok (parts, next)) :
    ∃ body, cur.rest = body ++ backtick :: next.rest ∧ (areSealed parts = true → Inside backtick body) := by
  rw [templateBody] at h
  cases hrest : cur.rest with
  | nil => simp [Cursor.next?, hrest] at h
  | cons c rest =>
    simp only [Cursor.next?, hrest] at h
    split_ifs at h with hend hback hsource
    · cases h
      exact ⟨[], by rw [hend]; rfl, fun _ => .nil⟩
    · obtain ⟨⟨d, inner⟩, hescape, h⟩ := exists_of_bind_eq_ok h
      obtain ⟨⟨parts, next⟩, hread, h⟩ := exists_of_bind_eq_ok h
      cases h
      obtain ⟨text, htext, hinside⟩ := escape_spec (.inr (.inr rfl)) hescape
      obtain ⟨body, hinner, hbody⟩ := ih.template hread
      dsimp only at htext hinner
      refine ⟨'\\' :: text ++ body, by rw [hback, htext, hinner]; simp, fun hsealed => ?_⟩
      exact hinside.append (hbody (areSealed_of_consText hsealed))
    · obtain ⟨⟨pos, tail⟩, hstop, h⟩ := exists_of_bind_eq_ok h
      obtain ⟨⟨parts, next⟩, hread, h⟩ := exists_of_bind_eq_ok h
      cases h
      obtain ⟨rfl, hpeek⟩ := hsource
      obtain ⟨rest, rfl⟩ := List.head?_eq_some_iff.1 hpeek
      obtain ⟨inner, behind, hinner, htail⟩ := ih.substitution hstop
      obtain ⟨body, hbody, hinside⟩ := ih.template hread
      obtain rfl : rest = inner ++ '\x7d' :: behind := hinner
      obtain rfl : tail = '\x7d' :: behind := htail
      obtain rfl : behind = body ++ backtick :: next.rest := hbody
      refine ⟨'$' :: '\x7b' :: (inner ++ ['\x7d']) ++ body, by simp, fun hsealed => ?_⟩
      obtain ⟨hsource, hparts⟩ : isSealed inner = true ∧ areSealed parts = true := by
        simpa [areSealed, Cursor.drop, upTo_append] using hsealed
      exact .char (by decide) (by decide) (.char (by decide) (by decide)
        ((inside_of_isSealed hsource).append (hinside hparts)))
    · obtain ⟨⟨parts, next⟩, hread, h⟩ := exists_of_bind_eq_ok h
      cases h
      obtain ⟨body, hbody, hinside⟩ := ih.template hread
      dsimp only at hbody
      refine ⟨c :: body, by rw [hbody]; rfl, fun hsealed => ?_⟩
      exact .char hend hback (hinside (areSealed_of_consText hsealed))

theorem substitution_succ {start depth : Nat} {stop : Cursor} (h : substitutionEnd start depth (fuel + 1) cur = .ok stop) :
    ∃ inner rest, cur.rest = inner ++ '\x7d' :: rest ∧ stop.rest = '\x7d' :: rest := by
  rw [substitutionEnd] at h
  cases hrest : cur.rest with
  | nil => simp [Cursor.next?, hrest] at h
  | cons c rest =>
    simp only [Cursor.next?, hrest] at h
    split_ifs at h with hquote htemplate hopening hclosing
    · obtain ⟨⟨value, next⟩, hread, h⟩ := exists_of_bind_eq_ok h
      obtain ⟨body, hbody, -⟩ := stringToken_spec (hquote.imp_right .inl) hrest hread
      obtain ⟨inner, behind, hinner, hstop⟩ := ih.substitution h
      refine ⟨c :: (body ++ c :: inner), behind, ?_, hstop⟩
      rw [← hrest, hbody, hinner]
      simp
    · obtain ⟨⟨parts, next⟩, hread, h⟩ := exists_of_bind_eq_ok h
      obtain ⟨body, hbody, -⟩ := ih.template hread
      obtain ⟨inner, behind, hinner, hstop⟩ := ih.substitution h
      refine ⟨c :: (body ++ backtick :: inner), behind, ?_, hstop⟩
      dsimp only at hbody hinner
      rw [hbody, hinner]
      simp
    · obtain ⟨inner, behind, hinner, hstop⟩ := ih.substitution h
      exact ⟨c :: inner, behind, congrArg (c :: ·) hinner, hstop⟩
    · cases depth with
      | zero =>
        cases h
        exact ⟨[], rest, by rw [hclosing]; rfl, by rw [hrest, hclosing]⟩
      | succ depth =>
        obtain ⟨inner, behind, hinner, hstop⟩ := ih.substitution h
        exact ⟨c :: inner, behind, congrArg (c :: ·) hinner, hstop⟩
    · obtain ⟨inner, behind, hinner, hstop⟩ := ih.substitution h
      exact ⟨c :: inner, behind, congrArg (c :: ·) hinner, hstop⟩

end Quotations

theorem quotations (fuel : Nat) : Quotations fuel := by
  induction fuel with
  | zero => exact ⟨fun h => (by cases h), fun h => (by cases h)⟩
  | succ fuel ih => exact ⟨ih.template_succ, ih.substitution_succ⟩

theorem templateToken_spec {parts : List TemplatePart} {rest : List Char} (hcur : cur.rest = backtick :: rest)
    (h : templateToken cur = .ok (parts, next)) :
    ∃ body, cur.rest = backtick :: (body ++ backtick :: next.rest) ∧ (areSealed parts = true → Inside backtick body) := by
  obtain ⟨body, hbody, hinside⟩ := (quotations _).template h
  refine ⟨body, ?_, hinside⟩
  rw [hcur, ← hbody, Cursor.drop, hcur]
  rfl

/-! Names and numbers. -/

/-- Backslash, quotes, brackets and the colon. -/
def special : List Char := ['\\', '\'', '"', backtick, '(', ')', '[', ']', '\x7b', '\x7d', ':']

/-- A character that is none of these. -/
def isNeutral (c : Char) : Bool := special.all (c != ·)

theorem isNeutral_of {p : Char → Bool} (hp : special.all (!p ·) = true) (h : p c = true) : isNeutral c = true := by
  refine List.all_eq_true.2 fun d hd => bne_iff_ne.2 ?_
  rintro rfl
  have := List.all_eq_true.1 hp c hd
  rw [h] at this
  cases this

theorem isNeutral_of_isDigit (h : Number.isDigit c = true) : isNeutral c = true := isNeutral_of (by decide) h

theorem isNeutral_of_isHexDigit (h : Number.isHexDigit c = true) : isNeutral c = true := isNeutral_of (by decide) h

theorem isNeutral_of_isIdentContinue (h : isIdentContinue c = true) : isNeutral c = true :=
  isNeutral_of (by decide +kernel) h

/-- From one place to the next there are neutral characters only. -/
def Neutral (cur next : Cursor) : Prop := ∃ text, cur.rest = text ++ next.rest ∧ ∀ c ∈ text, isNeutral c = true

namespace Neutral

theorem refl (cur : Cursor) : Neutral cur cur := ⟨[], rfl, by simp⟩

theorem trans {last : Cursor} (h : Neutral cur next) (h' : Neutral next last) : Neutral cur last := by
  obtain ⟨front, hfront, hneutral⟩ := h
  obtain ⟨behind, hbehind, hneutral'⟩ := h'
  exact ⟨front ++ behind, by rw [hfront, hbehind, List.append_assoc], List.forall_mem_append.2 ⟨hneutral, hneutral'⟩⟩

theorem span {p : Char → Bool} (hp : ∀ c, p c = true → isNeutral c = true) (cur : Cursor) : Neutral cur (cur.span p).2 :=
  ⟨cur.rest.takeWhile p, List.takeWhile_append_dropWhile.symm, fun c hc => hp c (List.mem_takeWhile_imp hc)⟩

theorem drop {n : Nat} (h : ∀ c ∈ cur.rest.take n, isNeutral c = true) : Neutral cur (cur.drop n) :=
  ⟨cur.rest.take n, (List.take_append_drop ..).symm, h⟩

theorem drop_one {c : Char} (h : cur.peek? = some c) (hc : isNeutral c = true) : Neutral cur (cur.drop 1) := by
  obtain ⟨rest, hrest⟩ := List.head?_eq_some_iff.1 h
  exact .drop (by simpa [hrest] using hc)

theorem of_next? {c : Char} (h : cur.next? = some (c, next)) (hc : isNeutral c = true) : Neutral cur next := by
  unfold Cursor.next? at h
  split at h
  · cases h
  · next d rest hrest =>
    cases h
    exact ⟨[c], hrest, by simpa using hc⟩

theorem exponent (cur : Cursor) : Neutral cur (skipExponent cur) := by
  unfold skipExponent
  split
  · next c next hnext =>
    split
    · next hletter =>
      have hfirst : Neutral cur next :=
        .of_next? hnext (by rcases Bool.or_eq_true_iff.1 hletter with h | h <;> rw [beq_iff_eq.1 h] <;> decide)
      have hsecond : Neutral next (if next.nextIs (fun c => c == '+' || c == '-') then next.drop 1 else next) := by
        split
        · next hsign =>
          obtain ⟨c, hc, h⟩ := (Option.any_eq_true ..).1 hsign
          exact drop_one hc (by rcases Bool.or_eq_true_iff.1 h with h | h <;> rw [beq_iff_eq.1 h] <;> decide)
        · exact .refl _
      dsimp only
      generalize (if next.nextIs (fun c => c == '+' || c == '-') then next.drop 1 else next) = digits at hsecond ⊢
      split
      · exact (hfirst.trans hsecond).trans (.span (fun c => isNeutral_of_isDigit) _)
      · exact .refl _
    · exact .refl _
  · exact .refl _

theorem decimal (cur : Cursor) : Neutral cur (skipDecimal cur) := by
  refine .trans (.span (fun c => isNeutral_of_isDigit) cur) (.trans ?_ (exponent _))
  split_ifs with hpoint
  · exact (drop_one hpoint (by decide)).trans (.span (fun c => isNeutral_of_isDigit) _)
  · exact .refl _

end Neutral

/-- A number takes neutral characters, and one at least. -/
theorem numberToken_spec {x : Float} (h : numberToken cur = .ok (x, next)) :
    ∃ text, cur.rest = text ++ next.rest ∧ text ≠ [] ∧ ∀ c ∈ text, isNeutral c = true := by
  unfold numberToken at h
  dsimp only at h
  split at h
  · next hmark =>
    obtain ⟨d, rest, hrest, hd⟩ : ∃ d rest, cur.rest = '0' :: d :: rest ∧ isNeutral d = true := by
      rcases Bool.or_eq_true_iff.1 hmark with h | h <;>
        obtain ⟨rest, hrest⟩ := List.isPrefixOf_iff_prefix.1 h
      · exact ⟨'x', rest, hrest.symm, by decide⟩
      · exact ⟨'X', rest, hrest.symm, by decide⟩
    split at h
    · cases h
      obtain ⟨digits, hdigits, hneutral⟩ := Neutral.span (fun c => isNeutral_of_isHexDigit) (cur.drop 2)
      refine ⟨'0' :: d :: digits, ?_, by simp, ?_⟩
      · rw [List.cons_append, List.cons_append, ← hdigits, Cursor.drop, hrest]
        rfl
      · simp only [List.forall_mem_cons]
        exact ⟨by decide, hd, hneutral⟩
    · cases h
  · split at h
    · cases h
    · split at h
      · next hvalue =>
        cases h
        obtain ⟨text, htext, hneutral⟩ := Neutral.decimal cur
        refine ⟨text, htext, ?_, hneutral⟩
        rintro rfl
        rw [List.nil_append] at htext
        rw [Cursor.upTo, htext, Nat.sub_self, List.take_zero] at hvalue
        cases hvalue
      · cases h

theorem identifier_spec {c : Char} (hc : cur.peek? = some c) (hstart : isIdentStart c = true) :
    ∃ text, cur.rest = text ++ (cur.span isIdentContinue).2.rest ∧ text ≠ [] ∧ ∀ c ∈ text, isNeutral c = true := by
  obtain ⟨rest, hrest⟩ := List.head?_eq_some_iff.1 hc
  refine ⟨cur.rest.takeWhile isIdentContinue, List.takeWhile_append_dropWhile.symm, ?_,
    fun c hc => isNeutral_of_isIdentContinue (List.mem_takeWhile_imp hc)⟩
  rw [hrest, List.takeWhile_cons, if_pos (isIdentContinue_of_isIdentStart hstart)]
  simp

/-- A mark takes its own characters. -/
theorem punctuator?_spec {mark : Punctuator} (h : punctuator? cur = some mark) :
    cur.rest = mark.text.toList ++ (cur.drop mark.text.length).rest := by
  have hstart : cur.startsWith mark.text = true := by
    unfold punctuator? at h
    rcases Option.or_eq_some_iff.1 h with h | ⟨-, h⟩
    · unfold optionalDot? at h
      split_ifs at h with hdot
      cases h
      exact (Bool.and_eq_true_iff.1 hdot).1
    · exact List.find?_some (p := fun mark : Punctuator => cur.startsWith mark.text) h
  obtain ⟨rest, hrest⟩ := List.isPrefixOf_iff_prefix.1 hstart
  rw [Cursor.drop, ← hrest, ← String.length_toList, List.drop_left]

/-- The texts of tokens. -/
inductive Lexeme : Token → List Char → Prop
  | mark (mark : Punctuator) : Lexeme (.punct mark) mark.text.toList
  | neutral {t : Token} {text : List Char} (ht : isSimple t = true) (hne : text ≠ [])
    (h : ∀ c ∈ text, isNeutral c = true) : Lexeme t text
  | quoted {t : Token} {quote : Char} {body : List Char} (ht : isSimple t = true) (hquote : IsQuote quote)
    (h : Inside quote body) : Lexeme t (quote :: (body ++ [quote]))

/-- Whether no substitution in a token holds a backtick of its own. -/
def isSealedToken : Token → Bool
  | .template parts => areSealed parts
  | _ => true

/-- Whether no substitution in a text holds a backtick of its own. -/
def isSealedSource (source : String) : Bool :=
  match tokens source with
  | .ok ts => ts.all fun t => isSealedToken t.token
  | .error _ => true

theorem lexeme_of_tokenAt {c : Char} {t : Token} (hc : cur.peek? = some c) (h : tokenAt c cur = .ok (t, next)) :
    ∃ text, cur.rest = text ++ next.rest ∧ (isSealedToken t = true → Lexeme t text) := by
  obtain ⟨rest, hrest⟩ := List.head?_eq_some_iff.1 hc
  unfold tokenAt at h
  split_ifs at h with hnumber hquote htemplate hname
  · obtain ⟨⟨x, next⟩, hread, h⟩ := exists_of_bind_eq_ok h
    cases h
    obtain ⟨text, htext, hne, hneutral⟩ := numberToken_spec hread
    exact ⟨text, htext, fun _ => .neutral rfl hne hneutral⟩
  · obtain ⟨⟨value, next⟩, hread, h⟩ := exists_of_bind_eq_ok h
    cases h
    have hc : IsQuote c := by
      rcases Bool.or_eq_true_iff.1 hquote with h | h
      · exact .inl (beq_iff_eq.1 h)
      · exact .inr (.inl (beq_iff_eq.1 h))
    obtain ⟨body, hbody, hinside⟩ := stringToken_spec hc hrest hread
    exact ⟨c :: (body ++ [c]), by rw [hbody]; simp, fun _ => .quoted rfl hc hinside⟩
  · obtain ⟨⟨parts, next⟩, hread, h⟩ := exists_of_bind_eq_ok h
    cases h
    obtain rfl : c = backtick := beq_iff_eq.1 htemplate
    obtain ⟨body, hbody, hinside⟩ := templateToken_spec hrest hread
    exact ⟨backtick :: (body ++ [backtick]), by rw [hbody]; simp, fun hsealed =>
      .quoted rfl (.inr (.inr rfl)) (hinside hsealed)⟩
  · cases h
    obtain ⟨text, htext, hne, hneutral⟩ := identifier_spec hc hname
    exact ⟨text, htext, fun _ => .neutral rfl hne hneutral⟩
  · split at h
    · next mark hmark =>
      cases h
      exact ⟨_, punctuator?_spec hmark, fun _ => .mark mark⟩
    · cases h

/-- A text as the texts of tokens, with white space in front of each. -/
inductive Spelled : List Token → List Char → Prop
  | nil : Spelled [] []
  | cons {t : Token} {ts : List Token} {blank text rest : List Char} (hblank : ∀ c ∈ blank, Text.isBlank c = true)
    (ht : Lexeme t text) (hrest : Spelled ts rest) : Spelled (t :: ts) (blank ++ text ++ rest)

theorem Lexeme.ne_nil {t : Token} (h : Lexeme t text) : text ≠ [] := by
  cases h with
  | mark mark => cases mark <;> decide
  | neutral _ hne _ => exact hne
  | quoted => simp

theorem Lexeme.ne_eof {t : Token} (h : Lexeme t text) : t ≠ .eof := by
  rintro rfl
  cases h <;> contradiction

theorem Spelled.ne_eof {ts : List Token} (h : Spelled ts text) : .eof ∉ ts := by
  induction h with
  | nil => simp
  | cons _ ht _ ih =>
    rw [List.mem_cons, not_or]
    exact ⟨ht.ne_eof.symm, ih⟩

/-- All that a text holds are its tokens and white space. -/
theorem spelled_of_tokensFrom {fuel : Nat} {ts : List Located} (hfuel : cur.rest.length < fuel)
    (h : tokensFrom fuel cur = .ok ts) (hsealed : ∀ t ∈ ts, isSealedToken t.token = true) :
    ∃ front text blank, ts.map (·.token) = front ++ [.eof] ∧ cur.rest = text ++ blank ∧ Spelled front text ∧
      ∀ c ∈ blank, Text.isBlank c = true := by
  induction fuel generalizing cur ts with
  | zero => omega
  | succ fuel ih =>
    rw [tokensFrom] at h
    dsimp only at h
    have hcur : cur.rest = cur.rest.takeWhile Text.isBlank ++ (cur.span Text.isBlank).2.rest :=
      List.takeWhile_append_dropWhile.symm
    have hblank : ∀ c ∈ cur.rest.takeWhile Text.isBlank, Text.isBlank c = true := fun c hc => List.mem_takeWhile_imp hc
    split at h
    · next hend =>
      cases h
      rw [List.head?_eq_none_iff.1 hend, List.append_nil] at hcur
      exact ⟨[], [], cur.rest.takeWhile Text.isBlank, rfl, hcur, .nil, hblank⟩
    · next c hc =>
      obtain ⟨⟨t, next⟩, hread, h⟩ := exists_of_bind_eq_ok h
      obtain ⟨more, hmore, h⟩ := exists_of_bind_eq_ok h
      cases h
      obtain ⟨lexeme, hlexeme, ht⟩ := lexeme_of_tokenAt hc hread
      replace ht := ht (hsealed _ List.mem_cons_self)
      have hshorter : next.rest.length < fuel := by
        have hpos := List.length_pos_of_ne_nil ht.ne_nil
        have hlength := congrArg List.length hcur
        rw [hlexeme, List.length_append, List.length_append] at hlength
        omega
      obtain ⟨front, text, blank, hmap, hnext, hspelled, hlast⟩ :=
        ih hshorter hmore fun t ht => hsealed t (List.mem_cons_of_mem _ ht)
      refine ⟨t :: front, cur.rest.takeWhile Text.isBlank ++ lexeme ++ text, blank, ?_, ?_,
        .cons hblank ht hspelled, hlast⟩
      · rw [List.map_cons, hmap, List.cons_append]
      · conv_lhs => rw [hcur, hlexeme, hnext]
        simp

theorem Spelled.exists_append {front behind : List Token} (h : Spelled (front ++ behind) text) :
    ∃ a b, text = a ++ b ∧ Spelled front a ∧ Spelled behind b := by
  induction front generalizing text with
  | nil => exact ⟨[], text, rfl, .nil, h⟩
  | cons t front ih =>
    cases h with
    | cons hblank ht hrest =>
      obtain ⟨a, b, rfl, ha, hb⟩ := ih hrest
      exact ⟨_, b, (List.append_assoc ..).symm, .cons hblank ht ha, hb⟩

theorem Spelled.exists_cons {t : Token} {ts : List Token} (h : Spelled (t :: ts) text) :
    ∃ blank lexeme rest, text = blank ++ (lexeme ++ rest) ∧ (∀ c ∈ blank, Text.isBlank c = true) ∧ Lexeme t lexeme ∧
      Spelled ts rest := by
  cases h with
  | cons hblank ht hrest => exact ⟨_, _, _, List.append_assoc .., hblank, ht, hrest⟩

theorem Balanced.ne_eof {ts : List Token} (h : Balanced ts) : .eof ∉ ts := by
  induction h with
  | token ht =>
    rw [List.mem_singleton]
    rintro rfl
    cases ht
  | append _ _ ih ih' => simp [ih, ih']
  | colon _ _ ih ih' => simp [ih, ih']
  | pair => simp
  | brackets _ _ ih => simp [ih]

/-- An expression is written as balanced tokens and white space at the end. -/
theorem spelled_of_parse {source : String} {expr : Expr} (h : parse source = .ok expr)
    (hsealed : isSealedSource source = true) :
    ∃ ts text blank, source.toList = text ++ blank ∧ Balanced ts ∧ Spelled ts text ∧
      ∀ c ∈ blank, Text.isBlank c = true := by
  rw [parse, parseNested] at h
  obtain ⟨ts, hts, h⟩ := exists_of_bind_eq_ok h
  rw [isSealedSource, hts] at hsealed
  obtain ⟨front, text, blank, hmap, htext, hspelled, hblank⟩ :=
    spelled_of_tokensFrom (Nat.lt_succ_self _) hts (List.all_eq_true.1 hsealed)
  obtain ⟨used, rest, rfl, hused, hrest⟩ := balanced_of_parseTokens h
  rw [List.map_append] at hmap
  refine ⟨front, text, blank, htext, ?_, hspelled, hblank⟩
  rcases List.append_eq_append_iff.1 hmap with ⟨more, hfront, hmore⟩ | ⟨more, hfront, hmore⟩
  · cases more with
    | nil => rwa [hfront, List.append_nil]
    | cons t more =>
      obtain ⟨first, others, rfl, rfl, -⟩ := List.map_eq_cons_iff.1 hmore
      exact absurd (by simp [hfront, hrest first rfl]) hspelled.ne_eof
  · cases more with
    | nil => rwa [← List.append_nil front, ← hfront]
    | cons t more =>
      obtain ⟨rfl, -⟩ := List.cons.inj hmore
      exact absurd (by simp [hfront]) hused.ne_eof

end ViewBinding.Expr
