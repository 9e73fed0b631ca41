import Mathlib.Tactic
import ViewBinding.Binding.Basic
import ViewBinding.Binding.Split
import ViewBinding.Proofs.Expr.Path

/-! Where a text is cut: a stretch without a cut of its own stays in front of the first part of the rest. -/
namespace ViewBinding.Binding

variable {c : Char} {separator text rest front behind : List Char} {parts : List (List Char)} {s t u : Nesting}

/-- From `s` the scan comes through `text` into the state `t`, and no cut falls into it when `rest` is behind it. -/
def Passes (separator : List Char) (s : Nesting) (text rest : List Char) (t : Nesting) : Prop :=
  splitFrom separator 0 s (text ++ rest) = text.foldr consHead (splitFrom separator 0 t rest)

theorem Passes.nil : Passes separator s [] rest s := rfl

theorem Passes.append (hfront : Passes separator s front (behind ++ rest) t)
    (hbehind : Passes separator t behind rest u) : Passes separator s (front ++ behind) rest u := by
  rw [Passes, List.append_assoc, hfront, hbehind, List.foldr_append]

theorem Passes.cons (hc : ¬(s = .start ∧ separator.isPrefixOf (c :: (text ++ rest)) = true))
    (h : Passes separator (s.step c) text rest t) : Passes separator s (c :: text) rest t := by
  rw [Passes, List.cons_append, splitFrom, if_neg hc, h, List.foldr_cons]

/-- No cut falls where the separator does not start. -/
theorem Passes.of_notMem (h : c ∉ text) : Passes (c :: separator) s text rest (s.after text) := by
  induction text generalizing s with
  | nil => exact .nil
  | cons d text ih =>
    rw [List.mem_cons, not_or] at h
    exact .cons (by simp [List.isPrefixOf, h.1]) (ih h.2)

/-- A character that nesting does not heed. -/
def isPlain (c : Char) : Bool := c != '\\' && !isQuote c && !isOpening c && !isClosing c

theorem step_of_isPlain (h : isPlain c = true) (hquote : s.quote = none) (hescaped : s.escaped = false) : s.step c = s := by
  simp only [isPlain, Bool.and_eq_true, bne_iff_ne, Bool.not_eq_true'] at h
  obtain ⟨⟨⟨hback, hnoQuote⟩, hopening⟩, hclosing⟩ := h
  simp [Nesting.step, hquote, hescaped, hback, hnoQuote, hopening, hclosing]

theorem after_of_isPlain (h : ∀ d ∈ text, isPlain d = true) (hquote : s.quote = none) (hescaped : s.escaped = false) :
    s.after text = s := by
  induction text with
  | nil => rfl
  | cons d text ih =>
    rw [Nesting.after, List.foldl_cons, step_of_isPlain (h d (by simp)) hquote hescaped]
    exact ih fun e he => h e (by simp [he])

theorem Passes.of_isPlain (hplain : ∀ d ∈ text, isPlain d = true) (hc : c ∉ text) (hquote : s.quote = none)
    (hescaped : s.escaped = false) : Passes (c :: separator) s text rest s := by
  have h : Passes (c :: separator) s text rest (s.after text) := .of_notMem hc
  rwa [after_of_isPlain hplain hquote hescaped] at h

theorem foldr_consHead (text part : List Char) (parts : List (List Char)) :
    text.foldr consHead (part :: parts) = (text ++ part) :: parts := by
  induction text with
  | nil => rfl
  | cons c text ih => rw [List.foldr_cons, ih]; rfl

theorem splitFrom_of_passes (h : Passes separator s text [] t) : splitFrom separator 0 s text = [text] := by
  rw [Passes, List.append_nil, splitFrom, foldr_consHead, List.append_nil] at h
  exact h

/-- A text in which no separator starts is one part. -/
theorem splitFrom_of_notMem (h : c ∉ text) (s : Nesting) : splitFrom (c :: separator) 0 s text = [text] :=
  splitFrom_of_passes (.of_notMem h)

/-- The separator itself is left out. -/
theorem splitFrom_separator (c : Char) (separator rest : List Char) :
    splitFrom (c :: separator) 0 .start (c :: separator ++ rest) = [] :: splitFrom (c :: separator) 0 .start rest := by
  have hskip : ∀ skipped : List Char, splitFrom (c :: separator) skipped.length .start (skipped ++ rest) =
      splitFrom (c :: separator) 0 .start rest := by
    intro skipped
    induction skipped with
    | nil => rfl
    | cons d skipped ih => rw [List.length_cons, List.cons_append, splitFrom, ih]
  have hfront : (c :: separator).isPrefixOf (c :: (separator ++ rest)) = true := by simp
  rw [List.cons_append, splitFrom, if_pos ⟨rfl, hfront⟩, List.length_cons, Nat.add_sub_cancel, hskip]

/-- The first part ends at the first separator. -/
theorem splitTopLevel_append (h : Passes (c :: separator) .start front (c :: separator ++ rest) .start) :
    splitTopLevel (c :: separator) (front ++ (c :: separator ++ rest)) =
      front :: splitTopLevel (c :: separator) rest := by
  rw [splitTopLevel, h, splitFrom_separator, foldr_consHead, List.append_nil, splitTopLevel]

/-- Parts that the scan passes are cut as they have been joined. -/
theorem splitTopLevel_intercalate (hne : parts ≠ [])
    (h : ∀ part ∈ parts, ∀ rest, Passes (c :: separator) .start part rest .start) :
    splitTopLevel (c :: separator) ((c :: separator).intercalate parts) = parts := by
  induction parts with
  | nil => exact absurd rfl hne
  | cons part parts ih =>
    have hpart := h part (by simp)
    cases parts with
    | nil => rw [List.intercalate_singleton]; exact splitFrom_of_passes (hpart [])
    | cons next parts =>
      have hrest := ih (by simp) fun p hp => h p (List.mem_cons_of_mem _ hp)
      rw [List.intercalate_cons_cons, List.append_assoc, splitTopLevel_append (hpart _), hrest]

/-- Nor is there a cut in what such parts and a link between them make up. -/
theorem Passes.intercalate {link : List Char} (hlink : ∀ rest, Passes separator s link rest s)
    (h : ∀ part ∈ parts, ∀ rest, Passes separator s part rest s) (rest : List Char) :
    Passes separator s (link.intercalate parts) rest s := by
  induction parts with
  | nil => exact .nil
  | cons part parts ih =>
    have hpart := h part (by simp)
    cases parts with
    | nil => rw [List.intercalate_singleton]; exact hpart rest
    | cons next parts =>
      have hrest := ih fun p hp => h p (List.mem_cons_of_mem _ hp)
      rw [List.intercalate_cons_cons]
      exact ((hpart _).append (hlink _)).append hrest

/-- Only a backslash starts an escape. -/
theorem unescapeFrom_cons {d : Char} (hd : d ≠ '\\') (quote : Option Char) :
    unescapeFrom quote (d :: rest) = d :: unescapeFrom (quoteAfter quote d) rest := by
  rw [unescapeFrom.eq_def]
  split
  · next heq => exact absurd heq (by simp)
  · next heq => exact absurd (List.cons.inj heq).1 hd
  · next heq =>
    obtain ⟨rfl, rfl⟩ := List.cons.inj heq
    rfl

end ViewBinding.Binding

/-! Entries without quotes, brackets, escapes and white space read as they are written. -/
namespace ViewBinding.Binding

variable {text : List Char}

/-- Without a backslash there are no escapes. -/
theorem unescapeFrom_of_notMem (h : '\\' ∉ text) (quote : Option Char) : unescapeFrom quote text = text := by
  induction text generalizing quote with
  | nil => rfl
  | cons d text ih =>
    rw [List.mem_cons, not_or] at h
    rw [unescapeFrom_cons (Ne.symm h.1), ih h.2]

/-- A character that stands for itself in a field of an entry. -/
def isBare (c : Char) : Bool := isPlain c && c != ',' && c != ':' && !Text.isBlank c

theorem spec_of_isBare {d : Char} (h : isBare d = true) :
    isPlain d = true ∧ d ≠ ',' ∧ d ≠ ':' ∧ Text.isBlank d = false := by
  simpa [isBare, and_assoc] using h

/-- Such a field stays as it is. -/
theorem unescape_trim_of_isBare {field : List Char} (h : ∀ d ∈ field, isBare d = true) :
    unescape (Text.trim field) = field := by
  rw [Text.trim_of_forall fun d hd => (spec_of_isBare (h d hd)).2.2.2, unescape, unescapeFrom_of_notMem]
  intro hmem
  exact absurd (h _ hmem) (by decide)

/-- Fields that are not empty make up an entry, if there are as many as its kind has. -/
theorem parseEntry_of_fields {kind : BindingKind} {entry : List Char} {parts : List (List Char)} {b : Binding}
    (hparts : fields entry = parts) (hfull : parts.any (·.isEmpty) = false)
    (hb : ofFields? kind (parts.map String.ofList) = some b) : parseEntry kind entry = .ok b := by
  simp only [parseEntry, hparts, hfull, Bool.false_eq_true, if_false, hb]

theorem parseAll_of_mem {kind : BindingKind} (hkind : kind ∈ [.attr, .value, .event]) (raw : String) : parseAll kind raw =
    ((splitTopLevel [','] raw.toList).filter fun entry => !(Text.trim entry).isEmpty).map (parseEntry kind) := by
  simp only [List.mem_cons, List.not_mem_nil, or_false] at hkind
  rcases hkind with rfl | rfl | rfl <;> rfl

/-- A target and the expression behind it, where neither separator cuts the expression and no escape is in it. -/
theorem parseAll_pair {kind : BindingKind} {target expression : String} (hkind : kind ∈ [.value, .event])
    (htarget : ∀ d ∈ target.toList, isBare d = true) (ht : target ≠ "") (he : expression ≠ "")
    (hcomma : Passes [','] .start expression.toList [] .start) (hcolons : Passes [':', ':'] .start expression.toList [] .start)
    (hread : unescape (Text.trim expression.toList) = expression.toList) :
    parseAll kind (target ++ "::" ++ expression) = [.ok ⟨kind, some target, expression, none⟩] := by
  have hplain : ∀ d ∈ target.toList, isPlain d = true := fun d hd => (spec_of_isBare (htarget d hd)).1
  have htext : (target ++ "::" ++ expression).toList = target.toList ++ ([':', ':'] ++ expression.toList) := by simp
  have hentries : splitTopLevel [','] (target ++ "::" ++ expression).toList = [(target ++ "::" ++ expression).toList] := by
    have hfront : Passes [','] .start target.toList ([':', ':'] ++ expression.toList ++ []) .start :=
      .of_isPlain hplain (fun hmem => (spec_of_isBare (htarget _ hmem)).2.1 rfl) rfl rfl
    have hlink : Passes [','] .start [':', ':'] (expression.toList ++ []) .start :=
      .of_isPlain (List.all_eq_true.1 rfl) (by decide) rfl rfl
    rw [htext]
    exact splitFrom_of_passes (hfront.append (hlink.append hcomma))
  have hfields : fields (target ++ "::" ++ expression).toList = [target.toList, expression.toList] := by
    have hfront : Passes [':', ':'] .start target.toList ([':', ':'] ++ expression.toList) .start :=
      .of_isPlain hplain (fun hmem => (spec_of_isBare (htarget _ hmem)).2.2.1 rfl) rfl rfl
    rw [fields, htext, splitTopLevel_append hfront, splitTopLevel, splitFrom_of_passes hcolons]
    simp [unescape_trim_of_isBare htarget, hread]
  have hentry : parseEntry kind (target ++ "::" ++ expression).toList = .ok ⟨kind, some target, expression, none⟩ := by
    refine parseEntry_of_fields hfields (by simp [ht, he]) ?_
    simp only [List.mem_cons, List.not_mem_nil, or_false] at hkind
    rcases hkind with rfl | rfl <;> simp [ofFields?]
  have hfull : Text.trim (target ++ "::" ++ expression).toList ≠ [] :=
    Text.trim_ne_nil (c := ':') (by simp [htext]) (by decide +kernel)
  rw [parseAll_of_mem (List.mem_cons_of_mem _ hkind), hentries, List.filter_cons, if_pos (by simpa using hfull), List.filter_nil,
    List.map_singleton, hentry]

/-- A property and the text that it is bound to. -/
theorem parseAll_value {property expression : String} (hproperty : ∀ d ∈ property.toList, isBare d = true)
    (hexpression : ∀ d ∈ expression.toList, isBare d = true) (hp : property ≠ "") (he : expression ≠ "") :
    parseAll .value (property ++ "::" ++ expression) = [.ok ⟨.value, some property, expression, none⟩] := by
  have hplain : ∀ d ∈ expression.toList, isPlain d = true := fun d hd => (spec_of_isBare (hexpression d hd)).1
  exact parseAll_pair (by decide) hproperty hp he
    (.of_isPlain hplain (fun hmem => (spec_of_isBare (hexpression _ hmem)).2.1 rfl) rfl rfl)
    (.of_isPlain hplain (fun hmem => (spec_of_isBare (hexpression _ hmem)).2.2.1 rfl) rfl rfl)
    (unescape_trim_of_isBare hexpression)

/-- A class without white space stands for itself if none of the characters that entries heed is in it. -/
theorem isBare_of_class {p : Char → Bool} {d : Char} (hblank : ∀ e, Text.isBlank e = true → p e = false)
    (hapart : ['\\', '\'', '"', '\x60', '(', '[', '\x7b', ')', ']', '\x7d', ',', ':'].all (!p ·) = true) (h : p d = true) :
    isBare d = true := by
  have hspecial : ∀ e ∈ ['\\', '\'', '"', '\x60', '(', '[', '\x7b', ')', ']', '\x7d', ',', ':'], d ≠ e := by
    rintro e he rfl
    have hout := List.all_eq_true.1 hapart d he
    rw [h] at hout
    cases hout
  have hnotBlank : Text.isBlank d = false := by
    by_contra hd
    rw [hblank d (by simpa using hd)] at h
    cases h
  simp only [List.forall_mem_cons] at hspecial
  simp [isBare, isPlain, isQuote, isOpening, isClosing, hspecial, hnotBlank]

/-- The characters of names stand for themselves. -/
theorem isBare_of_isIdentContinue {d : Char} (h : Expr.isIdentContinue d = true) : isBare d = true :=
  isBare_of_class (fun _ => Expr.not_isIdentContinue_of_isBlank) (by decide +kernel) h

end ViewBinding.Binding
