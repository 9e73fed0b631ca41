import ViewBinding.Proofs.Binding.Written

/-! The parts of a text are independent of each other. Every cut leaves the scan where it has started, so a part is read as if it
stood alone, and nothing but the separators is lost. -/
namespace ViewBinding.Binding

variable {c : Char} {separator text part : List Char} {s : Nesting} {parts : List (List Char)}

/-! Parts alone. -/

/-- A part that no cut falls into when the scan starts at `s`. -/
def Uncut (separator : List Char) (s : Nesting) (part : List Char) : Prop := splitFrom separator 0 s part = [part]

theorem Uncut.cons (hcut : ¬(s = .start ∧ separator.isPrefixOf (c :: part) = true)) (h : Uncut separator (s.step c) part) :
    Uncut separator s (c :: part) := by
  rw [Uncut, splitFrom, if_neg hcut, h]
  rfl

/-- The first part belongs to the start of the scan and all others to the start of a text. -/
theorem uncut_splitFrom (separator : List Char) (skip : Nat) (s : Nesting) (text : List Char) :
    ∃ first others, splitFrom separator skip s text = first :: others ∧ first <+: text.drop skip ∧
      Uncut separator s first ∧ ∀ part ∈ others, Uncut separator .start part := by
  induction text generalizing skip s with
  | nil => exact ⟨[], [], by simp [splitFrom], by simp, rfl, by simp⟩
  | cons c text ih =>
    cases skip with
    | succ skip =>
      rw [splitFrom, List.drop_succ_cons]
      exact ih skip s
    | zero =>
      rw [splitFrom, List.drop_zero]
      split
      · next hcut =>
        obtain ⟨first, others, hparts, -, hfirst, hothers⟩ := ih (separator.length - 1) s
        refine ⟨[], first :: others, by rw [hparts], List.nil_prefix, rfl, ?_⟩
        rw [hcut.1] at hfirst
        exact List.forall_mem_cons.2 ⟨hfirst, hothers⟩
      · next hcut =>
        obtain ⟨first, others, hparts, hbegins, hfirst, hothers⟩ := ih 0 (s.step c)
        rw [List.drop_zero] at hbegins
        have hlonger : c :: first <+: c :: text := List.cons_prefix_cons.2 ⟨rfl, hbegins⟩
        refine ⟨c :: first, others, by rw [hparts]; rfl, hlonger, hfirst.cons ?_, hothers⟩
        -- a separator that starts the part would have started the text
        rintro ⟨hstart, hcuts⟩
        exact hcut ⟨hstart, List.isPrefixOf_iff_prefix.2 ((List.isPrefixOf_iff_prefix.1 hcuts).trans hlonger)⟩

theorem splitTopLevel_of_mem (h : part ∈ splitTopLevel separator text) : splitTopLevel separator part = [part] := by
  obtain ⟨first, others, hparts, -, hfirst, hothers⟩ := uncut_splitFrom separator 0 .start text
  rw [splitTopLevel, hparts] at h
  rcases List.mem_cons.1 h with rfl | h
  · exact hfirst
  · exact hothers part h

theorem splitFrom_ne_nil (separator : List Char) (skip : Nat) (s : Nesting) (text : List Char) :
    splitFrom separator skip s text ≠ [] := by
  obtain ⟨first, others, hparts, -⟩ := uncut_splitFrom separator skip s text
  rw [hparts]
  exact List.cons_ne_nil first others

/-! Joining. -/

theorem intercalate_consHead (c : Char) (hne : parts ≠ []) :
    separator.intercalate (consHead c parts) = c :: separator.intercalate parts := by
  obtain ⟨part, parts, rfl⟩ := List.exists_cons_of_ne_nil hne
  cases parts with
  | nil => simp [consHead]
  | cons next parts =>
    rw [consHead, List.intercalate_cons_cons, List.intercalate_cons_cons]
    rfl

/-- Joined by the separator, the parts are the text behind what was to be skipped. -/
theorem intercalate_splitFrom (hne : separator ≠ []) (skip : Nat) (s : Nesting) (text : List Char) :
    separator.intercalate (splitFrom separator skip s text) = text.drop skip := by
  induction text generalizing skip s with
  | nil => simp [splitFrom]
  | cons c text ih =>
    cases skip with
    | succ skip => rw [splitFrom, ih, List.drop_succ_cons]
    | zero =>
      rw [splitFrom, List.drop_zero]
      split
      · next hcut =>
        obtain ⟨rest, hrest⟩ := List.isPrefixOf_iff_prefix.1 hcut.2
        obtain ⟨d, separator, rfl⟩ := List.exists_cons_of_ne_nil hne
        obtain ⟨rfl, rfl⟩ := List.cons.inj hrest
        rw [List.intercalate_cons_of_ne_nil (splitFrom_ne_nil _ _ _ _), ih, List.length_cons, Nat.add_sub_cancel]
        exact congrArg (d :: separator ++ ·) List.drop_left
      · rw [intercalate_consHead c (splitFrom_ne_nil _ _ _ _), ih, List.drop_zero]

/-! Lists of entries. -/

theorem consHead_append (c : Char) (hne : parts ≠ []) (others : List (List Char)) :
    consHead c (parts ++ others) = consHead c parts ++ others := by
  cases parts with
  | nil => exact absurd rfl hne
  | cons part parts => rfl

/-- A separator of one character, where everything is closed, cuts apart what is in front of it and what is behind it. -/
theorem splitFrom_append_cons (hplain : isPlain c = true) (h : s.after text = .start) (rest : List Char) :
    splitFrom [c] 0 s (text ++ c :: rest) = splitFrom [c] 0 s text ++ splitFrom [c] 0 .start rest := by
  induction text generalizing s with
  | nil =>
    obtain rfl : s = .start := h
    exact splitFrom_separator c [] rest
  | cons d text ih =>
    have hsame : ∀ others : List Char, [c].isPrefixOf (d :: others) = (c == d) := by simp [List.isPrefixOf]
    rw [List.cons_append, splitFrom, splitFrom, hsame, hsame]
    split
    · next hcut =>
      -- the separator leaves the scan at the start, so what follows it is closed as well
      obtain ⟨rfl, hd⟩ := hcut
      obtain rfl := eq_of_beq hd
      have hstart : Nesting.start.step c = .start := step_of_isPlain hplain rfl rfl
      have hafter : Nesting.start.after text = .start := by rwa [Nesting.after, List.foldl_cons, hstart] at h
      show [] :: splitFrom [c] 0 .start (text ++ c :: rest) = [] :: splitFrom [c] 0 .start text ++ _
      rw [ih hafter]
      rfl
    · have hafter : (s.step d).after text = .start := h
      rw [ih hafter, consHead_append d (splitFrom_ne_nil _ _ _ _)]

theorem parseAll_append_of_closed {kind : BindingKind} (hkind : kind ∈ [.attr, .value, .event]) {a : String}
    (ha : Nesting.start.after a.toList = .start) (b : String) :
    parseAll kind (a ++ "," ++ b) = parseAll kind a ++ parseAll kind b := by
  have htext : (a ++ "," ++ b).toList = a.toList ++ ',' :: b.toList := by simp
  rw [parseAll_of_mem hkind, parseAll_of_mem hkind, parseAll_of_mem hkind, htext, splitTopLevel,
    splitFrom_append_cons rfl ha, List.filter_append, List.map_append, splitTopLevel, splitTopLevel]

/--
Entries are independent. In front of a comma let quotes and brackets be closed, with no backslash left over for the comma; then
the entries are those in front of it and those behind it, malformed ones included. The parts of any text make up the text again,
and each of them is the only part of itself.
-/
theorem entries_independent :
    (∀ kind ∈ [BindingKind.attr, .value, .event], ∀ a : String, Nesting.start.after a.toList = .start → ∀ b : String,
      parseAll kind (a ++ "," ++ b) = parseAll kind a ++ parseAll kind b) ∧
    ∀ separator ∈ [[','], [':', ':']], ∀ text : List Char,
      separator.intercalate (splitTopLevel separator text) = text ∧
        ∀ part ∈ splitTopLevel separator text, splitTopLevel separator part = [part] := by
  refine ⟨fun kind hkind a ha b => parseAll_append_of_closed hkind ha b, fun separator hseparator text => ⟨?_, ?_⟩⟩
  · have hne : separator ≠ [] := by
      rintro rfl
      simp at hseparator
    exact intercalate_splitFrom hne 0 .start text
  · intro part hpart
    exact splitTopLevel_of_mem hpart

/-- Commas in quotes, in brackets and behind a backslash, and a backslash in front of a character of several bytes. -/
def closedEntries : String := "title::f('x, ]', [1, 2])::upper, alt::\\é\\, b"

theorem entries_independent_closed : Nesting.start.after closedEntries.toList = .start ∧
    parseAll .attr (closedEntries ++ "," ++ "id, ,lang::[") = parseAll .attr closedEntries ++ parseAll .attr "id, ,lang::[" ∧
    parseAll .attr closedEntries =
      [.ok ⟨.attr, some "title", "f('x, ]', [1, 2])", some "upper"⟩, .ok ⟨.attr, some "alt", "\\é, b", none⟩] ∧
    parseAll .attr "id, ,lang::[" = [.error (.malformed .attr "id"), .ok ⟨.attr, some "lang", "[", none⟩] ∧
    [':', ':'].intercalate (splitTopLevel [':', ':'] "a:::'b::c'".toList) = "a:::'b::c'".toList ∧
    splitTopLevel [':', ':'] ":'b::c'".toList = [":'b::c'".toList] :=
  ⟨by decide, entries_independent.1 .attr (by decide) closedEntries (by decide) _, by decide +kernel, by decide +kernel,
    (entries_independent.2 [':', ':'] (by decide) "a:::'b::c'".toList).1,
    (entries_independent.2 [':', ':'] (by decide) "a:::'b::c'".toList).2 _ (by decide)⟩

end ViewBinding.Binding
