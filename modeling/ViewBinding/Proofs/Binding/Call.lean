import ViewBinding.Proofs.Binding.Source
import ViewBinding.Proofs.Binding.Written

/-! Handlers with an argument. Inside its parentheses the scan is one bracket deeper than in the argument alone, so nothing is cut
there, and the last parenthesis is the one that ends the call. -/
namespace ViewBinding.Binding

variable {c : Char} {separator text name front behind rest : List Char} {argument : Option (List Char)}
  {result : HandlerCall} {s : Nesting}

/-! Names. -/

/-- A letter, an underscore or a dollar sign, and behind it characters of words and dollar signs. -/
def isHandlerName : List Char → Bool
  | c :: rest => isNameStart c && rest.all isNameContinue
  | [] => false

theorem isNameContinue_of_isNameStart (h : isNameStart c = true) : isNameContinue c = true := by
  simp only [isNameStart, Bool.or_eq_true, beq_iff_eq] at h
  rcases h with (h | rfl) | rfl
  · simp [isNameContinue, Text.isWord, Text.isAscii_of_isAsciiLetter h, Text.isAsciiWord, h]
  · decide
  · decide

theorem isNameContinue_of_isBlank (h : Text.isBlank c = true) : isNameContinue c = false := by
  rw [isNameContinue, Text.isWord_of_isBlank h, Bool.false_or, beq_eq_false_iff_ne]
  rintro rfl
  cases h

theorem isBare_of_isNameContinue (h : isNameContinue c = true) : isBare c = true :=
  isBare_of_class (fun _ => isNameContinue_of_isBlank) (by decide +kernel) h

theorem isNameContinue_of_mem (hname : isHandlerName name = true) : ∀ c ∈ name, isNameContinue c = true := by
  cases name with
  | nil => cases hname
  | cons c rest =>
    rw [isHandlerName, Bool.and_eq_true, List.all_eq_true] at hname
    exact List.forall_mem_cons.2 ⟨isNameContinue_of_isNameStart hname.1, hname.2⟩

theorem not_isBlank_of_mem (hname : isHandlerName name = true) (hc : c ∈ name) : Text.isBlank c = false :=
  (spec_of_isBare (isBare_of_isNameContinue (isNameContinue_of_mem hname c hc))).2.2.2

/-! The form of a call. -/

/-- The parentheses and what stands in them. -/
def parentheses : Option (List Char) → List Char
  | some inner => '(' :: inner ++ [')']
  | none => []

theorem getLast?_parentheses (front inner : List Char) : (front ++ parentheses (some inner)).getLast? = some ')' := by
  rw [parentheses, ← List.append_assoc, List.getLast?_concat]

/-- A name between white space, and maybe parentheses behind it and behind more white space. -/
inductive Reads : List Char → List Char → Option (List Char) → Prop
  | name {front name behind : List Char} : (∀ c ∈ front, Text.isBlank c = true) → isHandlerName name = true →
      (∀ c ∈ behind, Text.isBlank c = true) → Reads (front ++ name ++ behind) name none
  | call {front name middle inner behind : List Char} : (∀ c ∈ front, Text.isBlank c = true) → isHandlerName name = true →
      (∀ c ∈ middle, Text.isBlank c = true) → (∀ c ∈ behind, Text.isBlank c = true) →
      Reads (front ++ (name ++ (middle ++ parentheses (some inner))) ++ behind) name (some inner)

/-- What a handler is called with. Blank parentheses hold no argument. -/
def callOf (name : List Char) (argument : Option (List Char)) : HandlerCall :=
  ⟨String.ofList name, ((argument.map Text.trim).filter (!·.isEmpty)).map String.ofList⟩

theorem parenthesized?_eq_some_iff {inner : List Char} :
    parenthesized? text = some inner ↔ text = parentheses (some inner) := by
  constructor
  · intro h
    unfold parenthesized? at h
    split at h
    · next rest =>
      split at h
      · next hlast =>
        obtain rfl := Option.some.inj h
        rw [parentheses, List.cons_append, List.dropLast_append_getLast? _ hlast]
      · cases h
    · cases h
  · rintro rfl
    simp [parentheses, parenthesized?]

theorem callOf_some (name inner : List Char) : callOf name (some inner) =
    ⟨String.ofList name, if (Text.trim inner).isEmpty then none else some (String.ofList (Text.trim inner))⟩ := by
  cases h : (Text.trim inner).isEmpty <;> simp [callOf, Option.filter, h]

/-- Behind the longest name there are parentheses, or there is nothing. -/
theorem handlerCall?_eq_some_of_trim (htrim : Text.trim text = c :: rest) (hc : isNameStart c = true) :
    handlerCall? text = some result ↔ ∃ argument,
      Text.trimStart Text.isBlank (rest.dropWhile isNameContinue) = parentheses argument ∧
        callOf (c :: rest.takeWhile isNameContinue) argument = result := by
  simp only [handlerCall?, htrim, hc, if_true, ← callOf_some]
  generalize Text.trimStart Text.isBlank (rest.dropWhile isNameContinue) = behind
  split
  · next hempty =>
    obtain rfl := List.isEmpty_iff.1 hempty
    rw [Option.some.injEq]
    refine ⟨fun h => ⟨none, rfl, h⟩, ?_⟩
    rintro ⟨_ | inner, hnone, h⟩
    · exact h
    · cases hnone
  · next hne =>
    simp only [Option.map_eq_some_iff, parenthesized?_eq_some_iff]
    constructor
    · rintro ⟨inner, hinner, h⟩
      exact ⟨some inner, hinner, h⟩
    · rintro ⟨_ | inner, hinner, h⟩
      · exact absurd (List.isEmpty_iff.2 hinner) hne
      · exact ⟨inner, hinner, h⟩

/-- A name ends in front of anything that is no part of names. -/
theorem handlerCall?_append (hname : isHandlerName name = true) (hfront : ∀ c ∈ front, Text.isBlank c = true)
    (hbehind : ∀ c ∈ behind, Text.isBlank c = true) (hends : ∀ c ∈ rest.head?, isNameContinue c = false)
    (hlast : ∀ c ∈ (name ++ rest).getLast?, Text.isBlank c = false)
    (hrest : Text.trimStart Text.isBlank rest = parentheses argument) :
    handlerCall? (front ++ (name ++ rest) ++ behind) = some (callOf name argument) := by
  cases name with
  | nil => cases hname
  | cons c more =>
    have hmore : ∀ d ∈ more, isNameContinue d = true := fun d hd => isNameContinue_of_mem hname d (List.mem_cons_of_mem c hd)
    have htrim : Text.trim (front ++ (c :: more ++ rest) ++ behind) = c :: (more ++ rest) := by
      refine Text.trim_append hfront hbehind (List.cons_ne_nil _ _) (fun d hd => ?_) hlast
      obtain rfl := Option.some.inj hd
      exact not_isBlank_of_mem hname (by simp)
    rw [isHandlerName, Bool.and_eq_true] at hname
    refine (handlerCall?_eq_some_of_trim htrim hname.1).2 ⟨argument, ?_, ?_⟩
    · rwa [List.dropWhile_append_of_pos hmore, Text.dropWhile_of_head hends]
    · rw [List.takeWhile_append_of_pos hmore, Text.takeWhile_of_head hends, List.append_nil]

/-- What has the form of a call is read as this call. -/
theorem Reads.handlerCall? (h : Reads text name argument) : Binding.handlerCall? text = some (callOf name argument) := by
  cases h with
  | name hfront hname hbehind =>
    have hlast : ∀ d ∈ (name ++ []).getLast?, Text.isBlank d = false := fun d hd =>
      not_isBlank_of_mem hname (by simpa using List.mem_of_mem_getLast? hd)
    have hnone : Text.trimStart Text.isBlank [] = parentheses none := rfl
    simpa using handlerCall?_append hname hfront hbehind (by simp) hlast hnone
  | @call _ _ middle inner _ hfront hname hmiddle hbehind =>
    have hopening : ∀ c ∈ (parentheses (some inner)).head?, c = '(' := by simp [parentheses]
    refine handlerCall?_append hname hfront hbehind ?_ ?_ ?_
    · cases middle with
      | nil =>
        intro d hd
        rw [hopening d hd]
        decide
      | cons d middle =>
        intro e he
        obtain rfl := Option.some.inj he
        exact isNameContinue_of_isBlank (hmiddle d (by simp))
    · rw [← List.append_assoc, getLast?_parentheses]
      intro d hd
      obtain rfl := Option.some.inj hd
      decide
    · rw [Text.trimStart, List.dropWhile_append_of_pos hmiddle, Text.dropWhile_of_head]
      intro d hd
      rw [hopening d hd]
      decide

/-- What is read as a call has the form of one. -/
theorem exists_reads (h : handlerCall? text = some result) :
    ∃ name argument, Reads text name argument ∧ callOf name argument = result := by
  cases htrim : Text.trim text with
  | nil => simp [handlerCall?, htrim] at h
  | cons c rest =>
    have hc : isNameStart c = true := by
      by_contra hc
      simp [handlerCall?, htrim, hc] at h
    obtain ⟨argument, hargument, hcall⟩ := (handlerCall?_eq_some_of_trim htrim hc).1 h
    obtain ⟨front, behind, htext, hfront, hbehind⟩ := Text.exists_trim text
    have hname : isHandlerName (c :: rest.takeWhile isNameContinue) = true := by
      rw [isHandlerName, hc, Bool.true_and, List.all_eq_true]
      exact fun d hd => List.mem_takeWhile_imp hd
    refine ⟨c :: rest.takeWhile isNameContinue, argument, ?_, hcall⟩
    have hmiddle : ∀ d ∈ (rest.dropWhile isNameContinue).takeWhile Text.isBlank, Text.isBlank d = true :=
      fun d hd => List.mem_takeWhile_imp hd
    have hrest : rest = rest.takeWhile isNameContinue ++
        ((rest.dropWhile isNameContinue).takeWhile Text.isBlank ++ parentheses argument) := by
      rw [← hargument, Text.trimStart, List.takeWhile_append_dropWhile, List.takeWhile_append_dropWhile]
    generalize rest.takeWhile isNameContinue = more at hname hrest ⊢
    generalize (rest.dropWhile isNameContinue).takeWhile Text.isBlank = middle at hmiddle hrest
    rw [htext, htrim, hrest]
    cases argument with
    | none => simpa [parentheses] using Reads.name hfront hname (List.forall_mem_append.2 ⟨hmiddle, hbehind⟩)
    | some inner => exact .call hfront hname hmiddle hbehind

/-- The form of a call determines its parts, and a text of another form is no call. -/
theorem handlerCall?_eq_some_iff :
    handlerCall? text = some result ↔ ∃ name argument, Reads text name argument ∧ callOf name argument = result := by
  refine ⟨exists_reads, ?_⟩
  rintro ⟨name, argument, h, rfl⟩
  exact h.handlerCall?

/-! The scan inside parentheses. -/

namespace Nesting

/-- The same place one bracket deeper. -/
def deepen (s : Nesting) : Nesting := { s with depth := s.depth + 1 }

/-- Whether `c` closes a bracket that has not been opened. -/
def overdraws (s : Nesting) (c : Char) : Bool := !s.escaped && s.quote.isNone && isClosing c && s.depth == 0

/-- Every bracket that a text closes has been opened before. -/
def covers (s : Nesting) : List Char → Bool
  | [] => true
  | c :: rest => !s.overdraws c && (s.step c).covers rest

theorem deepen_ne_start (s : Nesting) : s.deepen ≠ .start := fun h => absurd (congrArg depth h) (Nat.succ_ne_zero s.depth)

theorem step_deepen (h : s.overdraws c = false) : s.deepen.step c = (s.step c).deepen := by
  obtain ⟨quote, depth, escaped⟩ := s
  cases escaped with
  | true => rfl
  | false =>
    by_cases hback : c = '\\'
    · simp [step, deepen, hback]
    · cases quote with
      | some q =>
        simp only [step, deepen, hback, Bool.false_eq_true, if_false]
        split_ifs <;> rfl
      | none =>
        have hdepth : isClosing c = true → depth ≠ 0 := by simpa [overdraws] using h
        simp only [step, deepen, hback, Bool.false_eq_true, if_false]
        split_ifs with hquote hopening hclosing
        · rfl
        · rfl
        -- a bracket is closed that is open, so the depths stay one apart
        · rw [Nat.sub_add_cancel (Nat.pos_of_ne_zero (hdepth hclosing)), Nat.add_sub_cancel]
        · rfl

end Nesting

/-- One bracket deeper there are no cuts, and the scan gets where it would get otherwise. -/
theorem Passes.deepen (h : s.covers text = true) : Passes separator s.deepen text rest (s.after text).deepen := by
  induction text generalizing s with
  | nil => exact .nil
  | cons c text ih =>
    rw [Nesting.covers, Bool.and_eq_true, Bool.not_eq_true'] at h
    refine .cons (fun hcut => s.deepen_ne_start hcut.1) ?_
    rw [Nesting.step_deepen h.1]
    exact ih h.2

variable {inner : List Char}

/-- A call is never cut at something that is neither a part of its name nor its parenthesis. -/
theorem Passes.call (hname : isHandlerName name = true) (hcovers : Nesting.start.covers inner = true)
    (hafter : Nesting.start.after inner = .start) (hc : isNameContinue c = false) (hne : c ≠ '(') :
    Passes (c :: separator) .start (name ++ parentheses (some inner)) rest .start := by
  have hplain : ∀ d ∈ name, isPlain d = true := fun d hd =>
    (spec_of_isBare (isBare_of_isNameContinue (isNameContinue_of_mem hname d hd))).1
  have hmem : c ∉ name := fun hmem => by
    rw [isNameContinue_of_mem hname c hmem] at hc
    cases hc
  refine .append (.of_isPlain hplain hmem rfl rfl) (.cons (by simp [List.isPrefixOf, hne]) ?_)
  refine .append (.deepen hcovers) (.cons (fun hcut => Nesting.deepen_ne_start _ hcut.1) ?_)
  rw [hafter]
  exact .nil

theorem unescape_trim_call (hname : isHandlerName name = true) (hback : '\\' ∉ inner) :
    unescape (Text.trim (name ++ parentheses (some inner))) = name ++ parentheses (some inner) := by
  have htrim : Text.trim (name ++ parentheses (some inner)) = name ++ parentheses (some inner) := by
    refine Text.trim_of_ends (fun c hc => ?_) (fun c hc => ?_)
    · cases name with
      | nil => cases hname
      | cons d more =>
        obtain rfl := Option.some.inj hc
        exact not_isBlank_of_mem hname (by simp)
    · rw [getLast?_parentheses] at hc
      obtain rfl := Option.some.inj hc
      decide
  have hnone : '\\' ∉ name := fun hmem => absurd (isNameContinue_of_mem hname _ hmem) (by decide)
  rw [htrim, unescape, unescapeFrom_of_notMem]
  simp [parentheses, hback, hnone]

theorem reads_call (hname : isHandlerName name = true) (inner : List Char) :
    Reads (name ++ parentheses (some inner)) name (some inner) := by
  have hnone : ∀ c ∈ ([] : List Char), Text.isBlank c = true := by simp
  simpa using @Reads.call [] name [] inner [] hnone hname hnone hnone

/--
A call as the handler of an event. Let the argument be without backslashes, let it close its quotes and brackets, and let it close
no bracket that it has not opened. Whatever else is in it, the entry is a single one with the whole call, and its argument is what
stands between the parentheses, without white space at its ends.
-/
theorem parseAll_event_call {event handler argument : String} (hevent : event ≠ "")
    (hletters : ∀ c ∈ event.toList, Text.isAsciiLetter c = true) (hname : isHandlerName handler.toList = true)
    (hback : '\\' ∉ argument.toList) (hcovers : Nesting.start.covers argument.toList = true)
    (hafter : Nesting.start.after argument.toList = .start) :
    parseAll .event (event ++ "::" ++ (handler ++ "(" ++ argument ++ ")")) =
        [.ok ⟨.event, some event, handler ++ "(" ++ argument ++ ")", none⟩] ∧
      handlerCall (handler ++ "(" ++ argument ++ ")") =
        .ok ⟨handler, if trimmed argument = "" then none else some (trimmed argument)⟩ := by
  have hcall : (handler ++ "(" ++ argument ++ ")").toList = handler.toList ++ parentheses (some argument.toList) := by
    simp [parentheses]
  have hbare : ∀ c ∈ event.toList, isBare c = true := fun c hc =>
    isBare_of_isIdentContinue (isIdentContinue_of_isAsciiLetter (hletters c hc))
  have hempty : trimmed argument = "" ↔ (Text.trim argument.toList).isEmpty = true := by simp [trimmed]
  constructor
  · refine parseAll_pair (by decide) hbare hevent (by simp) ?_ ?_ ?_
    · rw [hcall]
      exact .call hname hcovers hafter (by decide) (by decide)
    · rw [hcall]
      exact .call hname hcovers hafter (by decide) (by decide)
    · rw [hcall]
      exact unescape_trim_call hname hback
  · have hsome := (reads_call hname argument.toList).handlerCall?
    rw [callOf_some, String.ofList_toList] at hsome
    simp only [handlerCall, hcall, hsome, hempty]
    rfl

/-- Separators, quotes, parentheses and a line end in an argument. -/
def crowdedArgument : String := " [1, 2], f(')', \"::\"),\n$item::id "

theorem parseAll_event_call_crowded :
    parseAll .event ("click" ++ "::" ++ ("$save_2" ++ "(" ++ crowdedArgument ++ ")")) =
      [.ok ⟨.event, some "click", "$save_2" ++ "(" ++ crowdedArgument ++ ")", none⟩] ∧
    handlerCall ("$save_2" ++ "(" ++ crowdedArgument ++ ")") = .ok ⟨"$save_2", some "[1, 2], f(')', \"::\"),\n$item::id"⟩ := by
  have htrimmed : trimmed crowdedArgument = "[1, 2], f(')', \"::\"),\n$item::id" := by decide +kernel
  have h := @parseAll_event_call "click" "$save_2" crowdedArgument (by decide) (List.all_eq_true.1 (by decide)) (by decide)
    (by decide) (by decide) (by decide)
  rw [htrimmed] at h
  exact h

end ViewBinding.Binding
