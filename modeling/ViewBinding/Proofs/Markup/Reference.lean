import ViewBinding.Proofs.Markup.Read

/-! Texts that are escaped are read back. Each reference that is written stands for one character, whatever follows
it, and the characters that markup is made of stand in no text that is escaped. -/
namespace ViewBinding.Markup

variable {name rest : List Char} {c : Char}

theorem decodeAfter_eq_drop (skip : Nat) (text : List Char) : decodeAfter skip text = decode (text.drop skip) := by
  induction text generalizing skip with
  | nil => simp [decode, decodeAfter]
  | cons c text ih =>
    cases skip with
    | zero => rfl
    | succ skip => exact ih skip

theorem decode_cons_of_ne (h : c ≠ '&') (rest : List Char) : decode (c :: rest) = c :: decode rest := by
  rw [decode, decodeAfter, if_neg h, decode]

/-- A name that a semicolon ends. -/
theorem referenceName?_append (hname : ∀ d ∈ name, (d != ';' && d != '&') = true) (rest : List Char) :
    referenceName? (name ++ ';' :: rest) = some name := by
  have hspan := span_of_forall hname (show (';' != ';' && ';' != '&') = false by decide) rest
  simp [referenceName?, hspan.1]

/-- A reference stands for its character. -/
theorem decode_reference (hname : ∀ d ∈ name, (d != ';' && d != '&') = true) (hc : reference? name = some c)
    (rest : List Char) : decode ('&' :: (name ++ ';' :: rest)) = c :: decode rest := by
  have hdrop : (name ++ ';' :: rest).drop (name.length + 1) = rest := by simp
  rw [decode, decodeAfter, if_pos rfl, referenceName?_append hname]
  simp only [hc, decodeAfter_eq_drop, hdrop]

/-- Some text is left of a text with references. -/
theorem decode_ne_nil (c : Char) (rest : List Char) : decode (c :: rest) ≠ [] := by
  rw [decode, decodeAfter]
  split
  · split
    · split <;> simp
    · simp
  · simp

/-- A way to write a character, which is read the same whatever follows. -/
def Spelling (c : Char) (s : List Char) : Prop := ∀ rest, decode (s ++ rest) = c :: decode rest

theorem spelling_self (h : c ≠ '&') : Spelling c [c] := decode_cons_of_ne h

theorem spelling_reference (name : List Char) (hname : (name.all fun d => d != ';' && d != '&') = true)
    (hc : reference? name = some c) : Spelling c ('&' :: (name ++ [';'])) := by
  intro rest
  rw [List.cons_append, List.append_assoc]
  exact decode_reference (List.all_eq_true.1 hname) hc rest

theorem spelling_escapeChar (c : Char) : Spelling c (escapeChar c) := by
  unfold escapeChar
  split
  · exact spelling_reference ['a', 'm', 'p'] rfl rfl
  · exact spelling_reference ['l', 't'] rfl rfl
  · exact spelling_reference ['g', 't'] rfl rfl
  · next h _ _ => exact spelling_self h

/-- How a character is written inside double quotes. -/
def escapeQuoted (c : Char) : List Char := if c = '"' then "&quot;".toList else escapeChar c

theorem spelling_escapeQuoted (c : Char) : Spelling c (escapeQuoted c) := by
  unfold escapeQuoted
  split
  · next h =>
    subst h
    exact spelling_reference ['q', 'u', 'o', 't'] rfl rfl
  · exact spelling_escapeChar c

/-- A text whose characters are spelled out is read back. -/
theorem decode_flatMap {spell : Char → List Char} (h : ∀ c, Spelling c (spell c)) (text : List Char) :
    decode (text.flatMap spell) = text := by
  induction text with
  | nil => rfl
  | cons c text ih => rw [List.flatMap_cons, h c, ih]

theorem toList_escapeText (s : String) : (escapeText s).toList = s.toList.flatMap escapeChar := by
  simp [escapeText]

theorem toList_escapeAttribute (s : String) : (escapeAttribute s).toList = s.toList.flatMap escapeQuoted := by
  rw [escapeAttribute, String.toList_ofList]
  rfl

theorem decode_escapeText (s : String) : decode (escapeText s).toList = s.toList := by
  rw [toList_escapeText, decode_flatMap spelling_escapeChar]

theorem decode_escapeAttribute (s : String) : decode (escapeAttribute s).toList = s.toList := by
  rw [toList_escapeAttribute, decode_flatMap spelling_escapeQuoted]

theorem lt_notMem_escapeChar (c : Char) : '<' ∉ escapeChar c := by
  unfold escapeChar
  split
  · decide
  · decide
  · decide
  · next h _ => simpa using Ne.symm h

theorem quote_notMem_escapeQuoted (c : Char) : '"' ∉ escapeQuoted c := by
  unfold escapeQuoted escapeChar
  split
  · decide
  · next h =>
    split
    · decide
    · decide
    · decide
    · simpa using Ne.symm h

/-- No bracket opens in a text that is escaped. -/
theorem lt_notMem_escapeText (s : String) : '<' ∉ (escapeText s).toList := by
  rw [toList_escapeText, List.mem_flatMap]
  rintro ⟨c, -, hc⟩
  exact lt_notMem_escapeChar c hc

/-- No quote ends a value that is escaped. -/
theorem quote_notMem_escapeAttribute (s : String) : '"' ∉ (escapeAttribute s).toList := by
  rw [toList_escapeAttribute, List.mem_flatMap]
  rintro ⟨c, -, hc⟩
  exact quote_notMem_escapeQuoted c hc

theorem escapeText_append (s t : String) : escapeText (s ++ t) = escapeText s ++ escapeText t := by
  refine String.toList_injective ?_
  rw [String.toList_append, toList_escapeText, toList_escapeText, toList_escapeText, String.toList_append,
    List.flatMap_append]

theorem toList_escapeText_ne_nil {s : String} (h : s ≠ "") : (escapeText s).toList ≠ [] := by
  intro hnil
  have hread := decode_escapeText s
  rw [hnil] at hread
  exact h (String.toList_injective hread.symm)

end ViewBinding.Markup
