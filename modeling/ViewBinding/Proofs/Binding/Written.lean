import ViewBinding.Proofs.Binding.Entry

/-!
Entries in writing: with a backslash before every comma, colon and backslash of a field, the attribute reads
back as the entries that it was written from.
-/
namespace ViewBinding.Binding

variable {c d : Char} {separator text field rest : List Char} {kind : BindingKind}

/-- A character that is neither a quote nor a bracket. -/
def isUnnested (c : Char) : Bool := !isQuote c && !isOpening c && !isClosing c

/-- A backslash before every character that can have one. -/
def escape (field : List Char) : List Char :=
  field.flatMap fun c => if isEscapable c then ['\\', c] else [c]

theorem escape_cons (c : Char) (field : List Char) :
    escape (c :: field) = (if isEscapable c then ['\\', c] else [c]) ++ escape field := List.flatMap_cons

theorem escape_concat (field : List Char) (c : Char) :
    escape (field ++ [c]) = escape field ++ if isEscapable c then ['\\', c] else [c] := by simp [escape]

theorem not_isQuote_of_isUnnested (h : isUnnested c = true) : isQuote c = false := by
  simp only [isUnnested, Bool.and_eq_true, Bool.not_eq_true'] at h
  exact h.1.1

theorem isPlain_of_isUnnested (h : isUnnested c = true) (hc : c ≠ '\\') : isPlain c = true := by
  simpa [isUnnested, isPlain, hc] using h

/-- A backslash takes the character behind it out of play. -/
theorem Passes.escaped (hc : c ≠ '\\') : Passes (c :: separator) .start ['\\', d] rest .start :=
  .cons (by simp [List.isPrefixOf, hc]) (.cons (by simp [Nesting.step, Nesting.start]) .nil)

theorem Passes.escape (hc : isEscapable c = true) (hne : c ≠ '\\') (h : ∀ d ∈ field, isUnnested d = true) :
    Passes (c :: separator) .start (escape field) rest .start := by
  induction field with
  | nil => exact .nil
  | cons d field ih =>
    rw [escape_cons]
    refine .append ?_ (ih fun e he => h e (by simp [he]))
    split
    · exact .escaped hne
    · next hd =>
      have hdc : c ≠ d := fun heq => hd (heq ▸ hc)
      have hback : d ≠ '\\' := fun heq => hd (heq ▸ rfl)
      refine .cons (by simp [List.isPrefixOf, hdc]) ?_
      rw [step_of_isPlain (isPlain_of_isUnnested (h d (by simp)) hback) rfl rfl]
      exact .nil

theorem unescapeFrom_escaped (hd : isEscapable d = true) :
    unescapeFrom none ('\\' :: d :: rest) = d :: unescapeFrom none rest := by
  rw [unescapeFrom, if_pos (by simpa using hd)]

theorem unescape_escape (h : ∀ d ∈ field, isUnnested d = true) : unescape (escape field) = field := by
  rw [unescape]
  induction field with
  | nil => rfl
  | cons d field ih =>
    have hfield := ih fun e he => h e (by simp [he])
    rw [escape_cons]
    split
    · next hd => rw [List.cons_append, List.singleton_append, unescapeFrom_escaped hd, hfield]
    · next hd =>
      have hback : d ≠ '\\' := fun heq => hd (heq ▸ rfl)
      rw [List.singleton_append, unescapeFrom_cons hback, quoteAfter,
        if_neg (by simp [not_isQuote_of_isUnnested (h d (by simp))]), hfield]

/-- A text that can be written into a field. -/
structure IsField (text : List Char) : Prop where
  ne_nil : text ≠ []
  head : ∀ c ∈ text.head?, Text.isBlank c = false
  last : ∀ c ∈ text.getLast?, Text.isBlank c = false
  unnested : ∀ c ∈ text, isUnnested c = true

instance : DecidablePred IsField := fun text =>
  decidable_of_iff (text ≠ [] ∧ text.head?.all (!Text.isBlank ·) = true ∧ text.getLast?.all (!Text.isBlank ·) = true ∧
      text.all isUnnested = true)
    ⟨fun ⟨hne, hhead, hlast, hunnested⟩ =>
        ⟨hne, by simpa [Option.all_eq_true] using hhead, by simpa [Option.all_eq_true] using hlast,
          List.all_eq_true.1 hunnested⟩,
      fun h => ⟨h.ne_nil, by simpa [Option.all_eq_true] using h.head, by simpa [Option.all_eq_true] using h.last,
        List.all_eq_true.2 h.unnested⟩⟩

theorem IsField.head_escape (h : IsField text) : ∀ c ∈ (escape text).head?, Text.isBlank c = false := by
  cases text with
  | nil => exact absurd rfl h.ne_nil
  | cons d text =>
    have hd : Text.isBlank d = false := h.head d rfl
    rw [escape_cons]
    split <;> simp [hd, show Text.isBlank '\\' = false by decide +kernel]

theorem IsField.last_escape (h : IsField text) : ∀ c ∈ (escape text).getLast?, Text.isBlank c = false := by
  obtain ⟨front, d, rfl⟩ := List.eq_nil_or_concat' text |>.resolve_left h.ne_nil
  have hd : Text.isBlank d = false := h.last d (by simp)
  rw [escape_concat]
  split <;> simp [hd]

theorem IsField.trim_escape (h : IsField text) : Text.trim (escape text) = escape text :=
  Text.trim_of_ends h.head_escape h.last_escape

theorem IsField.unescape_trim (h : IsField text) : unescape (Text.trim (escape text)) = text := by
  rw [h.trim_escape, unescape_escape h.unnested]

/-- The fields of an entry in the order in which they stand. -/
def fieldTexts (b : Binding) : List (List Char) :=
  (b.target.toList ++ b.expression :: b.pipe.toList).map String.toList

/-- An entry as it is written. -/
def writtenEntry (b : Binding) : List Char := [':', ':'].intercalate (b.fieldTexts.map escape)

/-- The text of an attribute with these entries. -/
def written (bs : List Binding) : String := String.ofList ([','].intercalate (bs.map writtenEntry))

/-- An entry of a kind that names a target, with fields that can be written. Only attributes have pipes. -/
structure IsWritable (kind : BindingKind) (b : Binding) : Prop where
  kind_eq : b.kind = kind
  target_ne : b.target ≠ none
  pipe_eq : kind ≠ .attr → b.pipe = none
  isField : ∀ text ∈ b.fieldTexts, IsField text

instance (kind : BindingKind) : DecidablePred (IsWritable kind) := fun b =>
  decidable_of_iff (b.kind = kind ∧ b.target ≠ none ∧ (kind ≠ .attr → b.pipe = none) ∧
      ∀ text ∈ b.fieldTexts, IsField text)
    ⟨fun ⟨hkind, htarget, hpipe, hfield⟩ => ⟨hkind, htarget, hpipe, hfield⟩,
      fun h => ⟨h.kind_eq, h.target_ne, h.pipe_eq, h.isField⟩⟩

theorem IsWritable.isField_of_mem {b : Binding} (h : b.IsWritable kind) : ∀ part ∈ b.fieldTexts.map escape,
    ∃ text, IsField text ∧ part = escape text := by
  intro part hpart
  obtain ⟨text, htext, rfl⟩ := List.mem_map.1 hpart
  exact ⟨text, h.isField text htext, rfl⟩

/-- No comma of an entry cuts the list of entries. -/
theorem IsWritable.passes {b : Binding} (h : b.IsWritable kind) (rest : List Char) :
    Passes [','] .start b.writtenEntry rest .start := by
  refine .intercalate (fun _ => .of_isPlain (List.all_eq_true.1 rfl) (by decide) rfl rfl) (fun part hpart rest => ?_) rest
  obtain ⟨text, htext, rfl⟩ := h.isField_of_mem part hpart
  exact .escape rfl (by decide) htext.unnested

theorem IsWritable.fields {b : Binding} (h : b.IsWritable kind) : Binding.fields b.writtenEntry = b.fieldTexts := by
  have hcut : splitTopLevel [':', ':'] b.writtenEntry = b.fieldTexts.map escape := by
    refine splitTopLevel_intercalate (by simp [fieldTexts]) fun part hpart rest => ?_
    obtain ⟨text, htext, rfl⟩ := h.isField_of_mem part hpart
    exact .escape rfl (by decide) htext.unnested
  rw [Binding.fields, hcut, List.map_map]
  conv_rhs => rw [← List.map_id b.fieldTexts]
  exact List.map_congr_left fun text htext => (h.isField text htext).unescape_trim

/-- The fields say which entry it is. -/
theorem IsWritable.ofFields? {b : Binding} (hkind : kind ∈ [.attr, .value, .event]) (h : b.IsWritable kind) :
    Binding.ofFields? kind (b.fieldTexts.map String.ofList) = some b := by
  obtain ⟨bkind, target, expression, pipe⟩ := b
  obtain ⟨rfl, htarget, hpipe, -⟩ := h
  obtain ⟨target, rfl⟩ := Option.ne_none_iff_exists'.1 htarget
  simp only [List.mem_cons, List.not_mem_nil, or_false] at hkind
  rcases hkind with rfl | rfl | rfl
  · cases pipe <;> simp [fieldTexts, Binding.ofFields?]
  · obtain rfl : pipe = none := hpipe (by simp)
    simp [fieldTexts, Binding.ofFields?]
  · obtain rfl : pipe = none := hpipe (by simp)
    simp [fieldTexts, Binding.ofFields?]

theorem IsWritable.parseEntry {b : Binding} (hkind : kind ∈ [.attr, .value, .event]) (h : b.IsWritable kind) :
    Binding.parseEntry kind b.writtenEntry = .ok b := by
  have hfull : b.fieldTexts.any (·.isEmpty) = false := by
    rw [List.any_eq_false]
    intro text htext
    simpa using (h.isField text htext).ne_nil
  exact parseEntry_of_fields h.fields hfull (h.ofFields? hkind)

theorem mem_intercalate {link part : List Char} {parts : List (List Char)} (hpart : part ∈ parts) (hc : c ∈ part) :
    c ∈ link.intercalate parts := by
  induction parts with
  | nil => simp at hpart
  | cons first parts ih =>
    cases parts with
    | nil => simpa [List.mem_singleton.1 hpart] using hc
    | cons next parts =>
      rw [List.intercalate_cons_cons]
      rcases List.mem_cons.1 hpart with rfl | hmem
      · simp [hc]
      · exact List.mem_append_right _ (ih hmem)

/-- A written entry is not blank. -/
theorem IsWritable.trim_ne_nil {b : Binding} (h : b.IsWritable kind) : Text.trim b.writtenEntry ≠ [] := by
  have hmem : b.expression.toList ∈ b.fieldTexts := by simp [fieldTexts]
  have htext := h.isField _ hmem
  have hescape : escape b.expression.toList ≠ [] := fun hnil => htext.ne_nil (by
    rw [← unescape_escape htext.unnested, hnil]
    rfl)
  obtain ⟨c, others, hcons⟩ := List.exists_cons_of_ne_nil hescape
  have hblank : Text.isBlank c = false := htext.head_escape c (by simp [hcons])
  exact Text.trim_ne_nil (mem_intercalate (List.mem_map_of_mem hmem) (by simp [hcons])) hblank

theorem splitTopLevel_written {bs : List Binding} (hne : bs ≠ []) (h : ∀ b ∈ bs, b.IsWritable kind) :
    splitTopLevel [','] (written bs).toList = bs.map writtenEntry := by
  rw [written, String.toList_ofList]
  refine splitTopLevel_intercalate (by simpa using hne) fun part hpart rest => ?_
  obtain ⟨b, hb, rfl⟩ := List.mem_map.1 hpart
  exact (h b hb).passes rest

/-- Entries read back as they were written. -/
theorem parseAll_written {bs : List Binding} (hkind : kind ∈ [.attr, .value, .event]) (hne : bs ≠ [])
    (h : ∀ b ∈ bs, b.IsWritable kind) : parseAll kind (written bs) = bs.map .ok := by
  have hfull : ∀ entry ∈ bs.map writtenEntry, (!(Text.trim entry).isEmpty) = true := by
    intro entry hentry
    obtain ⟨b, hb, rfl⟩ := List.mem_map.1 hentry
    simpa using (h b hb).trim_ne_nil
  rw [parseAll_of_mem hkind, splitTopLevel_written hne h, List.filter_eq_self.2 hfull, List.map_map]
  exact List.map_congr_left fun b hb => (h b hb).parseEntry hkind

/-- Runs of backslashes, colons and commas beside a character of several bytes. -/
def runsOfMarks : List Binding :=
  [⟨.attr, some "\\\\:é,", "::,\\\\\\ x", some "p\\"⟩, ⟨.attr, some ",", "é:\\:", none⟩]

theorem parseAll_runsOfMarks : written runsOfMarks = "\\\\\\\\\\:é\\,::\\:\\:\\,\\\\\\\\\\\\ x::p\\\\,\\,::é\\:\\\\\\:" ∧
    parseAll .attr (written runsOfMarks) = runsOfMarks.map .ok :=
  ⟨by decide +kernel, parseAll_written (by decide) (by decide) (by decide +kernel)⟩

end ViewBinding.Binding
