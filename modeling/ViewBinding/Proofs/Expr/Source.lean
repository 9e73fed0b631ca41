import ViewBinding.Proofs.Expr.Reading
import ViewBinding.Proofs.Expr.Written

/-! Every expression has a source text that is read as this expression: the tokens of the expression, every part of it
in parentheses, written one after the other. -/
namespace ViewBinding

def BinaryOp.mark : BinaryOp → Punctuator
  | .add => .plus
  | .sub => .minus
  | .mul => .star
  | .div => .slash
  | .rem => .percent
  | .lt => .lt
  | .gt => .gt
  | .le => .le
  | .ge => .ge
  | .looseEq => .eq
  | .looseNe => .ne
  | .strictEq => .strictEq
  | .strictNe => .strictNe

def LogicalOp.mark : LogicalOp → Punctuator
  | .and => .and
  | .or => .or
  | .nullish => .nullish

def UnaryOp.token : UnaryOp → Token
  | .not => .punct .not
  | .neg => .punct .minus
  | .plus => .punct .plus
  | .typeOf => .ident "typeof"

namespace Expr

mutual

/-- The tokens of an expression. -/
def tokensOf : Expr → List Token
  | .number x => [.number x]
  | .string s => [.string s]
  | .bool b => [.ident (if b then "true" else "false")]
  | .null => [.ident "null"]
  | .undefined => [.ident "undefined"]
  | .ident name => [.ident name]
  | .template segments => [.template (partsOf segments)]
  | .array items => .punct .lbracket :: (separated (groupedAll items) ++ [.punct .rbracket])
  | .object entries => .punct .lbrace :: (separated (entriesTokens entries) ++ [.punct .rbrace])
  | .member owner property optional =>
    grouped (tokensOf owner) ++ [.punct (if optional then .optionalDot else .dot), .ident property]
  | .index owner key optional =>
    grouped (tokensOf owner) ++
      (optionalMark optional ++ .punct .lbracket :: (grouped (tokensOf key) ++ [.punct .rbracket]))
  | .call callee args optional =>
    grouped (tokensOf callee) ++
      (optionalMark optional ++ .punct .lparen :: (separated (groupedAll args) ++ [.punct .rparen]))
  | .unary op operand => op.token :: grouped (tokensOf operand)
  | .binary op left right => grouped (tokensOf left) ++ .punct op.mark :: grouped (tokensOf right)
  | .logical op left right => grouped (tokensOf left) ++ .punct op.mark :: grouped (tokensOf right)
  | .conditional test consequent alternate =>
    grouped (tokensOf test) ++
      .punct .question :: (grouped (tokensOf consequent) ++ .punct .colon :: grouped (tokensOf alternate))
  | .assign target value => grouped (tokensOf target) ++ .punct .assign :: grouped (tokensOf value)
  | .sequence items => separated (groupedAll items)

def groupedAll : List Expr → List (List Token)
  | [] => []
  | item :: rest => grouped (tokensOf item) :: groupedAll rest

/-- A key stands in quotes in front of its value. -/
def entriesTokens : List (String × Expr) → List (List Token)
  | [] => []
  | (key, value) :: rest => (.string key :: .punct .colon :: grouped (tokensOf value)) :: entriesTokens rest

def partsOf : List TemplateSegment → List TemplatePart
  | [] => []
  | .text text :: rest => .text text.toList :: partsOf rest
  | .hole expr :: rest => .source ((grouped (tokensOf expr)).flatMap Token.written) :: partsOf rest

end

/-- The source text of an expression. -/
def source (expr : Expr) : String := String.ofList ((tokensOf expr).flatMap Token.written)

/-- The names that stand for something else than a variable. -/
def isReserved (name : String) : Bool := name ∈ ["true", "false", "null", "undefined", "typeof"]

mutual

/--
Whether an expression has a source text. Its numbers are finite, have no sign and are read as what they are from their
texts, names are names, the texts of templates are neither empty nor adjacent, assignments have targets and sequences at
least two items.
-/
def Printable : Expr → Prop
  | .number x => (∃ m e, Number.decode x = .finite false m e) ∧ Number.decimal? (Number.text x).toList = some x
  | .string _ | .bool _ | .null | .undefined => True
  | .ident name => isName name.toList = true ∧ isReserved name = false
  | .template segments => PrintableSegments segments
  | .array items => PrintableAll items
  | .object entries => PrintableEntries entries
  | .member owner property _ => Printable owner ∧ isName property.toList = true
  | .index owner key _ => Printable owner ∧ Printable key
  | .call callee args _ => Printable callee ∧ PrintableAll args
  | .unary _ operand => Printable operand
  | .binary _ left right => Printable left ∧ Printable right
  | .logical _ left right => Printable left ∧ Printable right
  | .conditional test consequent alternate => Printable test ∧ Printable consequent ∧ Printable alternate
  | .assign target value => target.isTarget = true ∧ Printable target ∧ Printable value
  | .sequence items => 2 ≤ items.length ∧ PrintableAll items

def PrintableAll : List Expr → Prop
  | [] => True
  | item :: rest => Printable item ∧ PrintableAll rest

def PrintableEntries : List (String × Expr) → Prop
  | [] => True
  | (_, value) :: rest => Printable value ∧ PrintableEntries rest

def PrintableSegments : List TemplateSegment → Prop
  | [] => True
  | .text text :: rest => text ≠ "" ∧ (∀ next, rest.head? ≠ some (.text next)) ∧ PrintableSegments rest
  | .hole expr :: rest => Printable expr ∧ PrintableSegments rest

end

/-! The source text is cut into the tokens of the expression. -/

/-- Marks that may be written next to any token. -/
def isDelimiter : Punctuator → Bool
  | .lparen | .rparen | .lbracket | .rbracket | .comma | .colon => true
  | _ => false

theorem apart_delimiter {mark : Punctuator} (h : isDelimiter mark = true) (t : Token) : Apart t (.punct mark) := by
  intro c hc
  have hclass : isIdentContinue c = false ∧ c ∉ ['.', '?', '='] := by
    cases mark <;> first
      | (simp only [Token.written, Punctuator.text, String.reduceToList, List.head?_cons, Option.mem_some_iff] at hc
         subst hc
         decide)
      | cases h
  exact apart_of hclass.1 hclass.2 t

theorem delimiter_apart {mark : Punctuator} (h : isDelimiter mark = true) (t : Token) : Apart (.punct mark) t := by
  intro c _
  cases mark <;> first | rfl | cases h

theorem clean_delimiter {mark : Punctuator} (h : isDelimiter mark = true) : Clean [.punct mark] := by
  refine clean_token trivial fun found he => ?_
  cases he
  cases mark <;> first | rfl | cases h

section
variable {tokens behind : List Token}

theorem Clean.delimiter_cons (h : Clean tokens) (mark : Punctuator) (hmark : isDelimiter mark = true) :
    Clean (.punct mark :: tokens) :=
  (clean_delimiter hmark).append h fun t ht u _ => by
    cases ht
    exact delimiter_apart hmark u

theorem Clean.append_delimiter (h : Clean tokens) (mark : Punctuator) (hmark : isDelimiter mark = true) :
    Clean (tokens ++ [.punct mark]) :=
  h.append (clean_delimiter hmark) fun t _ u hu => by
    cases hu
    exact apart_delimiter hmark t

theorem Clean.grouped (h : Clean tokens) : Clean (grouped tokens) :=
  (h.append_delimiter _ rfl).delimiter_cons _ rfl

/-- Anything may be written behind an operand in parentheses. -/
theorem Clean.grouped_append (h : Clean tokens) (hbehind : Clean behind) : Clean (Expr.grouped tokens ++ behind) := by
  refine h.grouped.append hbehind fun t ht u _ => ?_
  have hlast : (Expr.grouped tokens).getLast? = some (.punct .rparen) := by
    rw [Expr.grouped, ← List.cons_append]
    exact List.getLast?_concat
  rw [hlast] at ht
  cases ht
  exact delimiter_apart rfl u

/-- An operator stands in front of an operand in parentheses. -/
theorem Clean.operator {t : Token} (h : Clean tokens) (ht : Clean [t]) : Clean (t :: Expr.grouped tokens) :=
  ht.append h.grouped fun u _ v hv => by
    cases hv
    exact apart_delimiter rfl u

theorem Clean.separated {parts : List (List Token)} (h : ∀ part ∈ parts, Clean part) : Clean (separated parts) := by
  induction parts with
  | nil => exact clean_nil
  | cons part parts ih =>
    have hpart := h part (by simp)
    cases parts with
    | nil => rwa [Expr.separated, List.intercalate_singleton]
    | cons next parts =>
      have hmore := ih fun part hp => h part (List.mem_cons_of_mem _ hp)
      rw [separated_cons part (List.cons_ne_nil next parts)]
      refine hpart.append (hmore.delimiter_cons _ rfl) fun t _ u hu => ?_
      cases hu
      exact apart_delimiter rfl t

end

theorem clean_mark {mark : Punctuator} (h : isBrace mark = false) : Clean [.punct mark] :=
  clean_token trivial fun found he => by cases he; exact h

theorem clean_name {name : String} (h : isName name.toList = true) : Clean [.ident name] :=
  clean_token h fun mark he => by cases he

theorem isBrace_mark_binary (op : BinaryOp) : isBrace op.mark = false := by cases op <;> rfl

theorem isBrace_mark_logical (op : LogicalOp) : isBrace op.mark = false := by cases op <;> rfl

theorem clean_unary (op : UnaryOp) : Clean [op.token] := by
  cases op with
  | typeOf => exact clean_name (by decide)
  | not | neg | plus => exact clean_mark rfl

/-- The mark of an access in front of a bracket. -/
theorem clean_optionalMark (optional : Bool) {mark : Punctuator} (hmark : isDelimiter mark = true)
    {tokens : List Token} (h : Clean (.punct mark :: tokens)) :
    Clean (optionalMark optional ++ .punct mark :: tokens) := by
  cases optional with
  | false => exact h
  | true =>
    refine (clean_mark rfl).append h fun t _ u hu => ?_
    cases hu
    exact apart_delimiter hmark t

/-- A name may be written behind a dot. -/
theorem clean_property (optional : Bool) {name : String} (h : isName name.toList = true) :
    Clean [.punct (if optional then .optionalDot else .dot), .ident name] := by
  have hdot : Clean [.punct (if optional then .optionalDot else .dot)] := clean_mark (by cases optional <;> rfl)
  refine hdot.append (clean_name h) fun t ht u hu c hc => ?_
  cases ht
  cases hu
  obtain ⟨d, text, htext⟩ : ∃ d text, name.toList = d :: text :=
    List.exists_cons_of_ne_nil fun he => by rw [he] at h; cases h
  rw [Token.written, htext] at hc
  cases hc
  rw [htext, isName, Bool.and_eq_true] at h
  cases optional <;> simp [Token.apart, Punctuator.apart, not_isDigit_of_isIdentStart h.1]

theorem head?_partsOf {segments : List TemplateSegment} (h : ∀ next, segments.head? ≠ some (.text next))
    (next : List Char) : (partsOf segments).head? ≠ some (.text next) := by
  match segments, h with
  | [], _ => exact fun he => by cases he
  | .text text :: _, h => exact absurd rfl (h text)
  | .hole _ :: _, _ => exact fun he => by cases he

mutual

/-- The source text of an expression is cut into its tokens. -/
theorem clean_tokensOf : ∀ expr, Printable expr → Clean (tokensOf expr)
  | .number _, h => clean_token h fun mark he => by cases he
  | .string _, _ => clean_token trivial fun mark he => by cases he
  | .bool b, _ => clean_name (by cases b <;> decide)
  | .null, _ => clean_name (by decide)
  | .undefined, _ => clean_name (by decide)
  | .ident _, h => clean_name h.1
  | .template segments, h => clean_token (alternating_partsOf segments h) fun mark he => by cases he
  | .array items, h => ((Clean.separated (clean_groupedAll items h)).append_delimiter _ rfl).delimiter_cons _ rfl
  | .object entries, h => (Clean.separated (clean_entriesTokens entries h)).braces
  | .member owner _ optional, h => (clean_tokensOf owner h.1).grouped_append (clean_property optional h.2)
  | .index owner key optional, h =>
    (clean_tokensOf owner h.1).grouped_append
      (clean_optionalMark optional rfl (((clean_tokensOf key h.2).grouped.append_delimiter _ rfl).delimiter_cons _ rfl))
  | .call callee args optional, h =>
    (clean_tokensOf callee h.1).grouped_append
      (clean_optionalMark optional rfl
        (((Clean.separated (clean_groupedAll args h.2)).append_delimiter _ rfl).delimiter_cons _ rfl))
  | .unary op operand, h => (clean_tokensOf operand h).operator (clean_unary op)
  | .binary op left right, h =>
    (clean_tokensOf left h.1).grouped_append ((clean_tokensOf right h.2).operator (clean_mark (isBrace_mark_binary op)))
  | .logical op left right, h =>
    (clean_tokensOf left h.1).grouped_append ((clean_tokensOf right h.2).operator (clean_mark (isBrace_mark_logical op)))
  | .conditional test consequent alternate, h => by
    have hchoice := (clean_tokensOf consequent h.2.1).grouped_append
      ((clean_tokensOf alternate h.2.2).grouped.delimiter_cons .colon rfl)
    refine (clean_tokensOf test h.1).grouped_append ((clean_mark rfl).append hchoice fun t _ u hu => ?_)
    cases hu
    exact apart_delimiter rfl t
  | .assign target value, h =>
    (clean_tokensOf target h.2.1).grouped_append ((clean_tokensOf value h.2.2).operator (clean_mark rfl))
  | .sequence items, h => Clean.separated (clean_groupedAll items h.2)

theorem clean_groupedAll : ∀ items, PrintableAll items → ∀ part ∈ groupedAll items, Clean part
  | [], _, part, hpart => by cases hpart
  | item :: rest, h, part, hpart => by
    rcases List.mem_cons.1 hpart with rfl | hpart
    · exact (clean_tokensOf item h.1).grouped
    · exact clean_groupedAll rest h.2 part hpart

theorem clean_entriesTokens : ∀ entries, PrintableEntries entries → ∀ part ∈ entriesTokens entries, Clean part
  | [], _, part, hpart => by cases hpart
  | (key, value) :: rest, h, part, hpart => by
    rcases List.mem_cons.1 hpart with rfl | hpart
    · have hvalue := (clean_tokensOf value h.1).grouped.delimiter_cons .colon rfl
      refine (clean_token (t := .string key) trivial fun mark he => by cases he).append hvalue fun t ht u _ c _ => ?_
      cases ht
      rfl
    · exact clean_entriesTokens rest h.2 part hpart

theorem alternating_partsOf : ∀ segments, PrintableSegments segments → Alternating (partsOf segments)
  | [], _ => trivial
  | .text _ :: rest, h =>
    ⟨fun he => h.1 (String.toList_eq_nil_iff.1 he), head?_partsOf h.2.1, alternating_partsOf rest h.2.2⟩
  | .hole expr :: rest, h => ⟨(clean_tokensOf expr h.1).grouped.passes, alternating_partsOf rest h.2⟩

end

/-! The tokens of an expression are read as this expression. -/

section
variable {readSource : String → Except ParseError Expr} {tokens : List Token} {expr : Expr}

theorem Reads.sequence_of_operand (h : ReadsUnary readSource tokens expr) : ReadsSequence readSource tokens expr :=
  ((h.toInfix 0).toConditional.mono (by decide)).toAssignment.toSequence

theorem Reads.sequence_of_access {t : Token} (h : ReadsPostfix readSource (t :: tokens) expr)
    (ht : unaryOp? t = none) : ReadsSequence readSource (t :: tokens) expr :=
  (h.toUnary ht).sequence_of_operand

theorem Reads.sequence_of_operators (h : ReadsInfix readSource 0 tokens expr) : ReadsSequence readSource tokens expr :=
  (h.toConditional.mono (by decide)).toAssignment.toSequence

theorem unaryOp?_token (op : UnaryOp) : unaryOp? op.token = some op := by cases op <;> rfl

theorem exists_ofMark?_binary (op : BinaryOp) :
    ∃ tightness, Infix.ofMark? op.mark = some (.binary op, tightness) := by
  cases op <;> exact ⟨_, rfl⟩

theorem exists_ofMark?_logical (op : LogicalOp) :
    ∃ tightness, Infix.ofMark? op.mark = some (.logical op, tightness) := by
  cases op <;> exact ⟨_, rfl⟩

theorem reads_ident {name : String} (h : isReserved name = false) :
    unaryOp? (.ident name) = none ∧ ofName name = .ident name := by
  simp only [isReserved, decide_eq_false_iff_not, List.mem_cons, List.not_mem_nil, or_false, not_or] at h
  obtain ⟨htrue, hfalse, hnull, hundefined, htypeof⟩ := h
  constructor
  · rw [unaryOp?.eq_def]
    split <;> first | rfl | simp_all
  · rw [ofName.eq_def]
    split <;> first | rfl | simp_all

end

theorem length_le_flatMap {α β : Type} (f : α → List β) {x : α} {xs : List α} (h : x ∈ xs) :
    (f x).length ≤ (xs.flatMap f).length := by
  rw [List.length_flatMap]
  exact List.single_le_sum (fun n _ => Nat.zero_le n) _ (List.mem_map_of_mem h)

/-- Whether no token among the given ones has a source text longer than `d`. -/
def Bounded (d : Nat) (tokens : List Token) : Prop := ∀ t ∈ tokens, t.written.length ≤ d

section
variable {d : Nat} {t : Token} {tokens behind : List Token}

theorem bounded_cons : Bounded d (t :: tokens) ↔ t.written.length ≤ d ∧ Bounded d tokens := List.forall_mem_cons

theorem bounded_append : Bounded d (tokens ++ behind) ↔ Bounded d tokens ∧ Bounded d behind := List.forall_mem_append

theorem Bounded.of_grouped (h : Bounded d (grouped tokens)) : Bounded d tokens :=
  (bounded_append.1 (bounded_cons.1 h).2).1

theorem Bounded.of_separated {parts : List (List Token)} (h : Bounded d (separated parts)) :
    ∀ part ∈ parts, Bounded d part := by
  intro part hpart
  induction parts with
  | nil => cases hpart
  | cons next parts ih =>
    cases parts with
    | nil =>
      rw [separated, List.intercalate_singleton] at h
      obtain rfl := List.mem_singleton.1 hpart
      exact h
    | cons _ parts =>
      rw [separated_cons next (List.cons_ne_nil _ parts), bounded_append, bounded_cons] at h
      rcases List.mem_cons.1 hpart with rfl | hpart
      · exact h.1
      · exact ih h.2.2 hpart

end

/-- A source text within a bound on the nesting is read as what its tokens are read as. -/
theorem parseNested_written {d : Nat} {tokens : List Token} {expr : Expr} (hclean : Clean tokens)
    (hread : ReadsSequence (parseNested d) tokens expr) :
    parseNested (d + 1) (String.ofList (tokens.flatMap Token.written)) = .ok expr := by
  obtain ⟨ts, hts, htokens⟩ := (cuts_written hclean.writable hclean.apart).tokens_eq
  rw [parseNested, hts]
  exact parseTokens_of_reads hread htokens

/-- Whether tokens in parentheses read as an expression. -/
def ReadsGrouped (readSource : String → Except ParseError Expr) (tokens : List Token) (expr : Expr) : Prop :=
  ReadsPrimary readSource tokens expr ∧ ∃ inside, tokens = grouped inside

theorem ReadsGrouped.item {readSource : String → Except ParseError Expr} {close : Punctuator} {tokens : List Token}
    {expr : Expr} (hclose : close ≠ .lparen) (h : ReadsGrouped readSource tokens expr) :
    ReadsItem readSource close tokens expr := by
  obtain ⟨hread, inside, rfl⟩ := h
  exact hread.item hclose

theorem ReadsGrouped.toAssignment {readSource : String → Except ParseError Expr} {tokens : List Token} {expr : Expr}
    (h : ReadsGrouped readSource tokens expr) : ReadsAssignment readSource tokens expr := by
  obtain ⟨hread, inside, rfl⟩ := h
  exact hread.assignment_grouped

mutual

/-- The tokens of an expression are read as this expression, if the depth suffices for their substitutions. -/
theorem reads_tokensOf : ∀ expr, Printable expr → ∀ d, Bounded d (tokensOf expr) →
    ReadsSequence (parseNested d) (tokensOf expr) expr
  | .number x, _, d, _ => (reads_token (t := .number x) rfl).toPostfix.sequence_of_access rfl
  | .string s, _, d, _ => (reads_token (t := .string s) rfl).toPostfix.sequence_of_access rfl
  | .bool b, _, d, _ => by
    cases b with
    | false => exact (reads_token (t := .ident "false") rfl).toPostfix.sequence_of_access rfl
    | true => exact (reads_token (t := .ident "true") rfl).toPostfix.sequence_of_access rfl
  | .null, _, d, _ => (reads_token (t := .ident "null") rfl).toPostfix.sequence_of_access rfl
  | .undefined, _, d, _ => (reads_token (t := .ident "undefined") rfl).toPostfix.sequence_of_access rfl
  | .ident name, h, d, _ => by
    obtain ⟨hunary, hname⟩ := reads_ident h.2
    exact (reads_token (t := .ident name) hname.symm).toPostfix.sequence_of_access hunary
  | .template segments, h, d, hd => by
    have hlength : (Token.template (partsOf segments)).written.length ≤ d := (bounded_cons.1 hd).1
    have hsegments := templateSegments_partsOf segments h d fun part hpart => by
      have hpart := length_le_flatMap TemplatePart.written hpart
      simp only [Token.written, List.length_cons, List.length_append] at hlength
      omega
    exact (reads_token (t := .template (partsOf segments)) ⟨segments, hsegments, rfl⟩).toPostfix.sequence_of_access rfl
  | .array items, h, d, hd => by
    rw [tokensOf, bounded_cons, bounded_append] at hd
    have hitems := reads_groupedAll items h d hd.2.1.of_separated
    exact (reads_array (hitems.imp fun _ _ h => ReadsGrouped.item (by decide) h)).toPostfix.sequence_of_access rfl
  | .object entries, h, d, hd => by
    rw [tokensOf, bounded_cons, bounded_append] at hd
    have hentries := reads_entriesTokens entries h d hd.2.1.of_separated
    exact (reads_object hentries).toPostfix.sequence_of_access rfl
  | .member owner property optional, h, d, hd => by
    rw [tokensOf, bounded_append] at hd
    have howner := reads_tokensOf owner h.1 d hd.1.of_grouped
    exact (reads_member property optional howner.grouped).sequence_of_access rfl
  | .index owner key optional, h, d, hd => by
    rw [tokensOf, bounded_append, bounded_append, bounded_cons, bounded_append] at hd
    have howner := reads_tokensOf owner h.1 d hd.1.of_grouped
    have hkey := reads_tokensOf key h.2 d hd.2.2.2.1.of_grouped
    exact (reads_index optional howner.grouped hkey.grouped.assignment_grouped).sequence_of_access rfl
  | .call callee args optional, h, d, hd => by
    rw [tokensOf, bounded_append, bounded_append, bounded_cons, bounded_append] at hd
    have hcallee := reads_tokensOf callee h.1 d hd.1.of_grouped
    have hargs := reads_groupedAll args h.2 d hd.2.2.2.1.of_separated
    exact (reads_call optional hcallee.grouped (hargs.imp fun _ _ h => ReadsGrouped.item (by decide) h)).sequence_of_access rfl
  | .unary op operand, h, d, hd => by
    rw [tokensOf, bounded_cons] at hd
    have hoperand := reads_tokensOf operand h d hd.2.of_grouped
    exact (reads_unary (unaryOp?_token op) hoperand.grouped.unary_grouped).sequence_of_operand
  | .binary op left right, h, d, hd => by
    rw [tokensOf, bounded_append, bounded_cons] at hd
    have hleft := reads_tokensOf left h.1 d hd.1.of_grouped
    have hright := reads_tokensOf right h.2 d hd.2.2.of_grouped
    obtain ⟨tightness, hop⟩ := exists_ofMark?_binary op
    exact (reads_operator hop hleft.grouped.unary_grouped hright.grouped.unary_grouped).sequence_of_operators
  | .logical op left right, h, d, hd => by
    rw [tokensOf, bounded_append, bounded_cons] at hd
    have hleft := reads_tokensOf left h.1 d hd.1.of_grouped
    have hright := reads_tokensOf right h.2 d hd.2.2.of_grouped
    obtain ⟨tightness, hop⟩ := exists_ofMark?_logical op
    exact (reads_operator hop hleft.grouped.unary_grouped hright.grouped.unary_grouped).sequence_of_operators
  | .conditional test consequent alternate, h, d, hd => by
    rw [tokensOf, bounded_append, bounded_cons, bounded_append, bounded_cons] at hd
    have htest := reads_tokensOf test h.1 d hd.1.of_grouped
    have hconsequent := reads_tokensOf consequent h.2.1 d hd.2.2.1.of_grouped
    have halternate := reads_tokensOf alternate h.2.2 d hd.2.2.2.2.of_grouped
    exact (reads_conditional htest.grouped.unary_grouped hconsequent.grouped.assignment_grouped
      halternate.grouped.assignment_grouped).toAssignment.toSequence
  | .assign target value, h, d, hd => by
    rw [tokensOf, bounded_append, bounded_cons] at hd
    have htarget := reads_tokensOf target h.2.1 d hd.1.of_grouped
    have hvalue := reads_tokensOf value h.2.2 d hd.2.2.of_grouped
    exact (reads_assign h.1 htarget.grouped.unary_grouped hvalue.grouped.assignment_grouped).toSequence
  | .sequence items, h, d, hd => by
    have hitems := reads_groupedAll items h.2 d hd.of_separated
    exact reads_sequence h.1 (hitems.imp fun _ _ h => ReadsGrouped.toAssignment h)

theorem reads_groupedAll : ∀ items, PrintableAll items → ∀ d, (∀ part ∈ groupedAll items, Bounded d part) →
    List.Forall₂ (ReadsGrouped (parseNested d)) (groupedAll items) items
  | [], _, _, _ => .nil
  | item :: rest, h, d, hd =>
    .cons ⟨(reads_tokensOf item h.1 d (hd _ List.mem_cons_self).of_grouped).grouped, _, rfl⟩
      (reads_groupedAll rest h.2 d fun part hpart => hd part (List.mem_cons_of_mem _ hpart))

theorem reads_entriesTokens : ∀ entries, PrintableEntries entries → ∀ d,
    (∀ part ∈ entriesTokens entries, Bounded d part) →
    List.Forall₂ (ReadsEntry (parseNested d)) (entriesTokens entries) entries
  | [], _, _, _ => .nil
  | (key, value) :: rest, h, d, hd => by
    have hvalue := (bounded_cons.1 (bounded_cons.1 (hd _ List.mem_cons_self)).2).2.of_grouped
    exact .cons ⟨_, rfl, (reads_tokensOf value h.1 d hvalue).grouped.assignment_grouped⟩
      (reads_entriesTokens rest h.2 d fun part hpart => hd part (List.mem_cons_of_mem _ hpart))

theorem templateSegments_partsOf : ∀ segments, PrintableSegments segments → ∀ d,
    (∀ part ∈ partsOf segments, part.written.length < d) →
    templateSegments (parseNested d) (partsOf segments) = .ok segments
  | [], _, _, _ => rfl
  | .text text :: rest, h, d, hd => by
    have hrest := templateSegments_partsOf rest h.2.2 d fun part hpart => hd part (List.mem_cons_of_mem _ hpart)
    rw [partsOf, templateSegments, hrest, String.ofList_toList]
    rfl
  | .hole expr :: rest, h, d, hd => by
    have hrest := templateSegments_partsOf rest h.2 d fun part hpart => hd part (List.mem_cons_of_mem _ hpart)
    have hlength := hd _ List.mem_cons_self
    simp only [TemplatePart.written, List.length_cons, List.length_append] at hlength
    obtain ⟨d, rfl⟩ : ∃ n, d = n + 1 := ⟨d - 1, by omega⟩
    have hbound : Bounded d (grouped (tokensOf expr)) := fun t ht => by
      have hwritten := length_le_flatMap Token.written ht
      omega
    have hexpr := parseNested_written (clean_tokensOf expr h.1).grouped
      (reads_tokensOf expr h.1 d hbound.of_grouped).grouped.assignment_grouped.toSequence
    rw [partsOf, templateSegments, hexpr, hrest]
    rfl

end

/-- The source text of an expression is read as this expression. -/
theorem parse_source {expr : Expr} (h : Printable expr) : parse expr.source = .ok expr := by
  rw [parse, source]
  refine parseNested_written (clean_tokensOf expr h) (reads_tokensOf expr h _ fun t ht => ?_)
  rw [String.length_ofList]
  exact length_le_flatMap Token.written ht

example : source (.binary .add (.ident "a") (.template [.text "`", .hole (.object [("k", .number 1)])])) =
    "(a)+(`\\`$\x7b(\x7b\"k\":(1)\x7d)\x7d`)" := by
  decide +kernel

theorem parse_source_assign :
    let target := Expr.index (.member (.ident "model") "rows" true) (.string "\"") false
    let shown := Expr.template [.text "a`", .hole (.object [("k", .array [.string "\x7d", .template []])]), .hole .null]
    let value := Expr.conditional (.binary .le (.number 1.5) (.unary .typeOf (.ident "x"))) shown
      (.sequence [.undefined, .call (.ident "f") [.bool true, .number 0] true])
    parse (source (.assign target value)) = .ok (.assign target value) := by
  have hone : Printable (.number 1.5) := ⟨⟨6755399441055744, -52, by decide +kernel⟩, by decide +kernel⟩
  have hzero : Printable (.number 0) := ⟨⟨0, -1074, by decide +kernel⟩, by decide +kernel⟩
  have hname : ∀ name ∈ ["model", "x", "f"], Printable (.ident name) := by
    simp only [Printable]
    decide
  have htarget : Printable (.index (.member (.ident "model") "rows" true) (.string "\"") false) :=
    ⟨⟨hname "model" (by simp), by decide⟩, trivial⟩
  have htext : ("a`" : String) ≠ "" := by decide
  have hshown : Printable (.template [.text "a`", .hole (.object [("k", .array [.string "\x7d", .template []])]),
      .hole .null]) :=
    ⟨htext, fun next he => (by cases he), ⟨⟨trivial, trivial, trivial⟩, trivial⟩, trivial, trivial⟩
  exact parse_source ⟨rfl, htarget, ⟨hone, hname "x" (by simp)⟩, hshown, by simp, trivial,
    ⟨hname "f" (by simp), trivial, hzero, trivial⟩, trivial⟩

end Expr

end ViewBinding
