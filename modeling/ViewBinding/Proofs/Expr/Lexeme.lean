import ViewBinding.Proofs.Expr.Path
import ViewBinding.Proofs.Number.Text

/-! Source texts of strings, numbers and marks, and how they are cut out of what follows them. -/
namespace ViewBinding

/-- Whether a character right behind a mark leaves it as it is. -/
def Punctuator.apart : Punctuator → Char → Bool
  | .dot, c | .optionalDot, c => !Number.isDigit c
  | .question, c => c != '?' && c != '.'
  | .not, c | .lt, c | .gt, c | .eq, c | .ne, c | .assign, c => c != '='
  | _, _ => true

namespace Expr

section
variable {pos fuel : Nat} {rest : List Char}

/-! Quoted strings. -/

/-- The escapes of controls are four digits that stand for the control. -/
theorem codePoint?_control : ∀ n < 32,
    let digits := List.replicate (4 - (Text.hexDigits n).length) '0' ++ Text.hexDigits n
    digits.length = 4 ∧ digits.all Number.isHexDigit = true ∧ codePoint? digits = some (Char.ofNat n) ∧
      digits.head? = some '0' := by
  decide +kernel

theorem escape_control {c : Char} (hc : c.toNat < 32) :
    ∃ pos', escape ⟨pos, 'u' :: (List.replicate (4 - (Text.hexDigits c.toNat).length) '0' ++
      Text.hexDigits c.toNat ++ rest)⟩ = .ok (c, ⟨pos', rest⟩) := by
  obtain ⟨hlength, hhex, hpoint, hhead⟩ := codePoint?_control c.toNat hc
  generalize List.replicate (4 - (Text.hexDigits c.toNat).length) '0' ++ Text.hexDigits c.toNat = digits at *
  obtain ⟨d, others, rfl⟩ : ∃ d others, digits = d :: others := List.exists_cons_of_ne_nil (by rintro rfl; cases hhead)
  cases hhead
  have htake : (('0' :: others) ++ rest).take 4 = '0' :: others := List.take_left' hlength
  obtain ⟨pos', hdrop⟩ : ∃ pos', Cursor.drop 4 ⟨pos + 'u'.utf8Size, ('0' :: others) ++ rest⟩ = ⟨pos', rest⟩ :=
    ⟨_, congrArg (Cursor.mk _) (List.drop_left' hlength)⟩
  have hescape : hexEscape 4 ⟨pos + 'u'.utf8Size, ('0' :: others) ++ rest⟩ = .ok (c, ⟨pos', rest⟩) := by
    rw [hexEscape, htake, hlength, hhex, codePointAt, hpoint, Char.ofNat_toNat, hdrop]
    rfl
  exact ⟨pos', hescape⟩

/-- A character is quoted as itself or as an escape that stands for it. -/
theorem jsonQuotedChar_spec (c : Char) :
    Text.jsonQuotedChar c = [c] ∧ c ≠ '"' ∧ c ≠ '\\' ∨
      ∃ escaped, Text.jsonQuotedChar c = '\\' :: escaped ∧
        ∀ pos rest, ∃ pos', escape ⟨pos, escaped ++ rest⟩ = .ok (c, ⟨pos', rest⟩) := by
  unfold Text.jsonQuotedChar
  split
  all_goals first | exact .inr ⟨_, rfl, fun pos rest => ⟨_, rfl⟩⟩ | skip
  next hquote hbackslash _ _ _ =>
    split
    · next hc => exact .inr ⟨_, rfl, fun pos rest => escape_control hc⟩
    · exact .inl ⟨rfl, hquote, hbackslash⟩

theorem jsonQuotedChar_ne_nil (c : Char) : Text.jsonQuotedChar c ≠ [] := by
  rcases jsonQuotedChar_spec c with ⟨h, -⟩ | ⟨_, h, -⟩ <;> rw [h] <;> exact List.cons_ne_nil _ _

/-- A quoted text is read up to its closing quote. -/
theorem stringBody_quoted (start fuel pos : Nat) {text : List Char} (hfuel : (text.flatMap Text.jsonQuotedChar).length < fuel) :
    ∃ pos', stringBody '"' start fuel ⟨pos, text.flatMap Text.jsonQuotedChar ++ '"' :: rest⟩ =
      .ok (text, ⟨pos', rest⟩) := by
  induction text generalizing fuel pos with
  | nil =>
    obtain ⟨fuel, rfl⟩ : ∃ n, fuel = n + 1 := ⟨fuel - 1, by simp at hfuel; omega⟩
    exact ⟨_, rfl⟩
  | cons c text ih =>
    have hpos := List.length_pos_of_ne_nil (jsonQuotedChar_ne_nil c)
    rw [List.flatMap_cons, List.length_append] at hfuel
    obtain ⟨fuel, rfl⟩ : ∃ n, fuel = n + 1 := ⟨fuel - 1, by omega⟩
    rw [List.flatMap_cons, List.append_assoc]
    rcases jsonQuotedChar_spec c with ⟨hself, hquote, hbackslash⟩ | ⟨escaped, hself, hescape⟩
    · obtain ⟨pos', hrest⟩ := ih fuel (pos + c.utf8Size) (by omega)
      refine ⟨pos', ?_⟩
      rw [hself, List.singleton_append, stringBody]
      simp only [Cursor.next?, if_neg hquote, if_neg hbackslash, bind, Except.bind, hrest]
      rfl
    · obtain ⟨behind, hescape⟩ := hescape (pos + '\\'.utf8Size) (text.flatMap Text.jsonQuotedChar ++ '"' :: rest)
      obtain ⟨pos', hrest⟩ := ih fuel behind (by omega)
      refine ⟨pos', ?_⟩
      rw [hself, List.cons_append, stringBody]
      simp only [Cursor.next?, bind, Except.bind, hescape, hrest]
      rfl

theorem stringToken_quoted (pos : Nat) (s : String) (rest : List Char) :
    ∃ pos', stringToken '"' ⟨pos, (Text.jsonQuoted s).toList ++ rest⟩ = .ok (s.toList, ⟨pos', rest⟩) := by
  have htext : (Text.jsonQuoted s).toList ++ rest = '"' :: (s.toList.flatMap Text.jsonQuotedChar ++ '"' :: rest) := by
    simp [Text.jsonQuoted]
  rw [htext]
  exact stringBody_quoted pos _ _ (by simp)

/-! Numbers. -/

theorem upTo_append (start stop : Nat) (text rest : List Char) :
    Cursor.upTo ⟨start, text ++ rest⟩ ⟨stop, rest⟩ = text := by
  rw [Cursor.upTo, List.length_append, Nat.add_sub_cancel]
  exact List.take_left

theorem isIdentContinue_of_isDigit {c : Char} (h : Number.isDigit c = true) : isIdentContinue c = true := by
  simp [isIdentContinue, Text.isAlphanumeric, isAscii_of_isDigit h, Text.isAsciiWord, Text.isAsciiDigit, h]

theorem skipExponent_of_ends (hrest : Ends rest) : skipExponent ⟨pos, rest⟩ = ⟨pos, rest⟩ := by
  cases rest with
  | nil => rfl
  | cons c rest =>
    have hletter : ∀ d : Char, isIdentContinue d = true → (c == d) = false := fun d hd =>
      beq_eq_false_iff_ne.2 fun he => by rw [← he, hrest c rfl] at hd; cases hd
    simp [skipExponent, Cursor.next?, hletter 'e' (by decide), hletter 'E' (by decide)]

/-- A positional text is passed over as a whole. -/
theorem skipDecimal_positional (pos : Nat) {text : List Char} (h : Number.IsPositional text) (hrest : Ends rest)
    (hpoint : rest.head? ≠ some '.') : ∃ pos', skipDecimal ⟨pos, text ++ rest⟩ = ⟨pos', rest⟩ := by
  obtain ⟨whole, fraction, rfl, -, hwhole, hfraction⟩ := h
  have hend : ∀ c ∈ rest.head?, Number.isDigit c = false := fun c hc => by
    by_contra hdigit
    have := isIdentContinue_of_isDigit (by simpa using hdigit)
    rw [hrest c hc] at this
    cases this
  rw [skipDecimal, List.append_assoc]
  rcases hfraction with rfl | ⟨places, rfl, hplaces⟩
  · have hspan := span_append pos hwhole hend
    rw [List.nil_append, hspan]
    exact ⟨_, by rw [Cursor.peek?, if_neg hpoint, skipExponent_of_ends hrest]⟩
  · have hdot : ∀ c ∈ ('.' :: places ++ rest).head?, Number.isDigit c = false := fun c hc => by cases hc; decide
    have hspan := span_append pos hwhole hdot
    rw [hspan]
    have hpeek : Cursor.peek? ⟨pos + Cursor.byteSize whole, '.' :: places ++ rest⟩ = some '.' := rfl
    have hdrop : Cursor.drop 1 ⟨pos + Cursor.byteSize whole, '.' :: places ++ rest⟩ =
        ⟨pos + Cursor.byteSize whole + 1, places ++ rest⟩ := rfl
    dsimp only
    rw [if_pos hpeek, hdrop, span_append _ hplaces hend]
    exact ⟨_, skipExponent_of_ends hrest⟩

/-- No letter follows the first digit of a positional text. -/
theorem not_startsWith_positional (pos : Nat) {text : List Char} (h : Number.IsPositional text) (hrest : Ends rest) {d : Char}
    (hdigit : Number.isDigit d = false) (hpoint : d ≠ '.') (hcontinue : isIdentContinue d = true) :
    Cursor.startsWith ⟨pos, text ++ rest⟩ (String.ofList ['0', d]) = false := by
  obtain ⟨whole, fraction, rfl, hne, hwhole, hfraction⟩ := h
  obtain ⟨c, whole, rfl⟩ := List.exists_cons_of_ne_nil hne
  have hsecond : ∀ e ∈ (whole ++ (fraction ++ rest)).head?, e ≠ d := by
    rintro e he rfl
    cases whole with
    | cons w whole =>
      cases he
      rw [hwhole e (by simp)] at hdigit
      cases hdigit
    | nil =>
      rcases hfraction with rfl | ⟨places, rfl, -⟩
      · rw [hrest e he] at hcontinue
        cases hcontinue
      · cases he
        exact hpoint rfl
  rw [Cursor.startsWith, String.toList_ofList, List.append_assoc, List.cons_append]
  cases hbehind : whole ++ (fraction ++ rest) with
  | nil => simp [List.isPrefixOf]
  | cons e behind =>
    have hed : (d == e) = false := beq_eq_false_iff_ne.2 (hsecond e (by rw [hbehind]; rfl)).symm
    simp [List.isPrefixOf, hed]

theorem numberToken_positional (pos : Nat) {text : List Char} {x : Float} (h : Number.IsPositional text)
    (hread : Number.decimal? text = some x) (hrest : Ends rest) (hpoint : rest.head? ≠ some '.') :
    ∃ pos', numberToken ⟨pos, text ++ rest⟩ = .ok (x, ⟨pos', rest⟩) := by
  obtain ⟨pos', hskip⟩ := skipDecimal_positional pos h hrest hpoint
  have hstart : Cursor.nextIs ⟨pos', rest⟩ isIdentStart = false := by
    cases rest with
    | nil => rfl
    | cons d rest =>
      refine Bool.eq_false_iff.2 fun hd => ?_
      have hcontinue := isIdentContinue_of_isIdentStart (c := d) hd
      rw [hrest d rfl] at hcontinue
      cases hcontinue
  have hhex := not_startsWith_positional pos h hrest (d := 'x') (by decide) (by decide) (by decide)
  have hHex := not_startsWith_positional pos h hrest (d := 'X') (by decide) (by decide) (by decide)
  refine ⟨pos', ?_⟩
  rw [numberToken, hhex, hHex, hskip]
  dsimp only
  rw [hstart, upTo_append, hread]
  rfl

theorem not_isBlank_of_isIdentContinue {c : Char} (h : isIdentContinue c = true) : Text.isBlank c = false := by
  by_contra hblank
  rw [not_isIdentContinue_of_isBlank (by simpa using hblank)] at h
  cases h

/-- A positional text is the token of the number that is read from it. -/
theorem tokenAt_positional {text : List Char} {x : Float} (h : Number.IsPositional text)
    (hread : Number.decimal? text = some x) (hrest : Ends rest) (hpoint : rest.head? ≠ some '.') :
    ∃ c behind, text = c :: behind ∧ Text.isBlank c = false ∧
      ∀ pos, ∃ pos', tokenAt c ⟨pos, c :: (behind ++ rest)⟩ = .ok (.number x, ⟨pos', rest⟩) := by
  obtain ⟨c, behind, rfl, hc⟩ := h.exists_digit
  refine ⟨c, behind, rfl, not_isBlank_of_isIdentContinue (isIdentContinue_of_isDigit hc), fun pos => ?_⟩
  obtain ⟨pos', hnumber⟩ := numberToken_positional pos h hread hrest hpoint
  rw [List.cons_append] at hnumber
  exact ⟨pos', by rw [tokenAt, hc, hnumber]; rfl⟩

/-! Marks. -/

/-- A mark is found where it is written, if the next character does not join it. -/
theorem punctuator?_written (mark : Punctuator) (h : ∀ c ∈ rest.head?, mark.apart c = true) :
    punctuator? ⟨pos, mark.text.toList ++ rest⟩ = some mark := by
  cases rest with
  | nil => cases mark <;> rfl
  | cons c rest =>
    have hc := h c rfl
    cases mark <;> first | rfl | simp_all [punctuator?, optionalDot?, Cursor.startsWith, punctuators, Punctuator.text,
      Punctuator.apart, Cursor.nextIs, Cursor.drop, Cursor.peek?, List.isPrefixOf, @eq_comm Char '=' c,
      @eq_comm Char '?' c, @eq_comm Char '.' c]

end

end Expr

end ViewBinding
