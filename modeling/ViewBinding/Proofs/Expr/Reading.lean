import Mathlib.Tactic
import ViewBinding.Expr.Parser

/-! How the reader of expressions takes sequences of tokens. Each stage of reading ends before a token with which it
cannot go on, and from what the parts of an expression read as follows what the whole reads as. -/
namespace ViewBinding.Expr

variable {α : Type}

/-- The stage of reading that goes on with a token, the accesses that bind most tightly being the last one. -/
def stageOf : Token → Nat
  | .punct .comma => 1
  | .punct .assign => 2
  | .punct .question => 3
  | .punct .dot | .punct .optionalDot | .punct .lbracket | .punct .lparen => 5
  | .punct mark => if (Infix.ofMark? mark).isSome then 4 else 0
  | _ => 0

/-- Whether none of the stages from `stage` on goes on with what follows. -/
def Stops (stage : Nat) (rest : List Located) : Prop := ∀ t ∈ rest.head?, stageOf t.token < stage

theorem Stops.mono {m n : Nat} {rest : List Located} (h : Stops m rest) (hmn : m ≤ n) : Stops n rest :=
  fun t ht => (h t ht).trans_le hmn

theorem stops_cons {stage : Nat} {token : Token} {pos : Nat} {rest : List Located} (h : stageOf token < stage) :
    Stops stage (⟨token, pos⟩ :: rest) := by
  intro u hu
  cases hu
  exact h

theorem stageOf_le (token : Token) : stageOf token ≤ 5 := by
  unfold stageOf
  repeat' split
  all_goals decide

/-- Behind an operand whose last token closes it everything stops. -/
theorem stops_six (rest : List Located) : Stops 6 rest := fun t _ => Nat.lt_succ_of_le (stageOf_le t.token)

theorem after?_of_stops {stage : Nat} {mark : Punctuator} {rest : List Located} (h : Stops stage rest)
    (hmark : stage ≤ stageOf (.punct mark)) : after? mark rest = none := by
  rw [after?.eq_def]
  split
  · next found pos rest =>
    refine if_neg fun he => ?_
    have hlt : stageOf (.punct found) < stage := h _ rfl
    rw [he] at hlt
    omega
  · rfl

theorem after?_cons (mark : Punctuator) (pos : Nat) (rest : List Located) :
    after? mark (⟨.punct mark, pos⟩ :: rest) = some rest := if_pos rfl

theorem after?_of_ne {mark : Punctuator} {token : Token} {pos : Nat} {rest : List Located} (h : token ≠ .punct mark) :
    after? mark (⟨token, pos⟩ :: rest) = none := by
  cases token with
  | punct found => exact if_neg fun he => h (congrArg Token.punct he)
  | _ => rfl

theorem expectMark_cons (mark : Punctuator) (pos : Nat) (rest : List Located) :
    expectMark mark (⟨.punct mark, pos⟩ :: rest) = .ok rest := by
  rw [expectMark, after?_cons]

/-- A located sequence of tokens starts with a located token. -/
theorem exists_located {ts : List Located} {t : Token} {tokens : List Token} (h : ts.map (·.token) = t :: tokens) :
    ∃ pos rest, ts = ⟨t, pos⟩ :: rest ∧ rest.map (·.token) = tokens := by
  obtain ⟨⟨_, pos⟩, rest, rfl, rfl, hrest⟩ := List.map_eq_cons_iff.1 h
  exact ⟨pos, rest, rfl, hrest⟩

/--
Whether a reader takes the given tokens, and nothing of what follows them, if the stages from `stage` on stop there.
The reader needs ten calls for each token and some more.
-/
def Reads (reader : Nat → List Located → Except ParseError (Parsed α)) (more stage : Nat) (tokens : List Token)
    (result : α) : Prop :=
  ∀ fuel ts rest, 10 * tokens.length + more ≤ fuel → ts.map (·.token) = tokens → Stops stage rest →
    reader fuel (ts ++ rest) = .ok (result, rest)

theorem Reads.mono {reader : Nat → List Located → Except ParseError (Parsed α)} {more m n : Nat} {tokens : List Token}
    {result : α} (h : Reads reader more n tokens result) (hmn : m ≤ n) : Reads reader more m tokens result :=
  fun fuel ts rest hfuel hts hrest => h fuel ts rest hfuel hts (hrest.mono hmn)

section
variable (readSource : String → Except ParseError Expr) {tokens : List Token} {expr : Expr}

abbrev ReadsPrimary (tokens : List Token) (expr : Expr) : Prop := Reads (primaryExpr readSource) 1 6 tokens expr

abbrev ReadsPostfix (tokens : List Token) (expr : Expr) : Prop := Reads (postfixExpr readSource) 2 5 tokens expr

abbrev ReadsUnary (tokens : List Token) (expr : Expr) : Prop := Reads (unaryExpr readSource) 3 5 tokens expr

abbrev ReadsInfix (level : Nat) (tokens : List Token) (expr : Expr) : Prop :=
  Reads (fun fuel => infixFrom readSource fuel level) 4 4 tokens expr

abbrev ReadsConditional (stage : Nat) (tokens : List Token) (expr : Expr) : Prop :=
  Reads (conditionalExpr readSource) 5 stage tokens expr

abbrev ReadsAssignment (tokens : List Token) (expr : Expr) : Prop := Reads (assignmentExpr readSource) 6 2 tokens expr

abbrev ReadsSequence (tokens : List Token) (expr : Expr) : Prop := Reads (sequenceExpr readSource) 7 1 tokens expr

variable {readSource}

theorem accesses_of_stops {fuel : Nat} {rest : List Located} (h : Stops 5 rest) (hfuel : 0 < fuel) :
    accesses readSource fuel expr rest = .ok (expr, rest) := by
  obtain ⟨fuel, rfl⟩ := Nat.exists_eq_succ_of_ne_zero hfuel.ne'
  rw [accesses.eq_def]
  dsimp only
  split <;> first | rfl | exact absurd (h _ rfl) (Nat.lt_irrefl 5)

theorem infixRest_of_stops {fuel level : Nat} {rest : List Located} (h : Stops 4 rest) (hfuel : 0 < fuel) :
    infixRest readSource fuel level expr rest = .ok (expr, rest) := by
  obtain ⟨fuel, rfl⟩ := Nat.exists_eq_succ_of_ne_zero hfuel.ne'
  rw [infixRest.eq_def]
  dsimp only
  split
  · next mark pos rest =>
    have hlt : stageOf (.punct mark) < 4 := h _ rfl
    have hmark : Infix.ofMark? mark = none := by
      cases mark <;> first | rfl | exact absurd hlt (by decide)
    rw [hmark]
  · rfl

/-! Each stage takes what the one below it takes. -/

theorem Reads.toPostfix (h : ReadsPrimary readSource tokens expr) : ReadsPostfix readSource tokens expr := by
  intro fuel ts rest hfuel hts hrest
  obtain ⟨fuel, rfl⟩ : ∃ n, fuel = n + 1 := ⟨fuel - 1, by omega⟩
  rw [postfixExpr, h fuel ts rest (by omega) hts (stops_six rest)]
  exact accesses_of_stops hrest (by omega)

theorem Reads.toUnary {t : Token} (h : ReadsPostfix readSource (t :: tokens) expr) (ht : unaryOp? t = none) :
    ReadsUnary readSource (t :: tokens) expr := by
  intro fuel ts rest hfuel hts hrest
  obtain ⟨fuel, rfl⟩ : ∃ n, fuel = n + 1 := ⟨fuel - 1, by omega⟩
  have hread := h fuel ts rest (by omega) hts hrest
  obtain ⟨⟨_, pos⟩, ts, rfl, rfl, -⟩ := List.map_eq_cons_iff.1 hts
  rw [List.cons_append, unaryExpr]
  simp only
  rw [ht]
  exact hread

theorem Reads.toInfix (h : ReadsUnary readSource tokens expr) (level : Nat) :
    ReadsInfix readSource level tokens expr := by
  intro fuel ts rest hfuel hts hrest
  obtain ⟨fuel, rfl⟩ : ∃ n, fuel = n + 1 := ⟨fuel - 1, by omega⟩
  dsimp only
  rw [infixFrom, h fuel ts rest (by omega) hts (hrest.mono (by omega))]
  exact infixRest_of_stops hrest (by omega)

theorem Reads.toConditional (h : ReadsInfix readSource 0 tokens expr) : ReadsConditional readSource 3 tokens expr := by
  intro fuel ts rest hfuel hts hrest
  obtain ⟨fuel, rfl⟩ : ∃ n, fuel = n + 1 := ⟨fuel - 1, by omega⟩
  have hread : infixFrom readSource fuel 0 (ts ++ rest) = .ok (expr, rest) :=
    h fuel ts rest (by omega) hts (hrest.mono (by omega))
  rw [conditionalExpr, hread]
  simp only [bind, Except.bind]
  rw [after?_of_stops hrest (by decide)]
  rfl

theorem Reads.toAssignment (h : ReadsConditional readSource 2 tokens expr) : ReadsAssignment readSource tokens expr := by
  intro fuel ts rest hfuel hts hrest
  obtain ⟨fuel, rfl⟩ : ∃ n, fuel = n + 1 := ⟨fuel - 1, by omega⟩
  rw [assignmentExpr, h fuel ts rest (by omega) hts hrest]
  simp only [bind, Except.bind]
  rw [after?_of_stops hrest (by decide)]
  rfl

theorem commaItems_of_stops {fuel : Nat} {rest : List Located} (h : Stops 1 rest) (hfuel : 0 < fuel) :
    commaItems readSource fuel rest = .ok ([], rest) := by
  obtain ⟨fuel, rfl⟩ := Nat.exists_eq_succ_of_ne_zero hfuel.ne'
  rw [commaItems, after?_of_stops h (by decide)]

theorem Reads.toSequence (h : ReadsAssignment readSource tokens expr) : ReadsSequence readSource tokens expr := by
  intro fuel ts rest hfuel hts hrest
  obtain ⟨fuel, rfl⟩ : ∃ n, fuel = n + 1 := ⟨fuel - 1, by omega⟩
  rw [sequenceExpr, h fuel ts rest (by omega) hts (hrest.mono (by omega))]
  simp only [bind, Except.bind]
  rw [commaItems_of_stops hrest (by omega)]
  rfl

/-! An operand in parentheses is taken by every stage. -/

/-- Tokens in parentheses. -/
def grouped (tokens : List Token) : List Token := .punct .lparen :: (tokens ++ [.punct .rparen])

theorem Reads.grouped (h : ReadsSequence readSource tokens expr) : ReadsPrimary readSource (grouped tokens) expr := by
  intro fuel ts rest hfuel hts _
  obtain ⟨pos, _, rfl, hinside⟩ := exists_located hts
  obtain ⟨inside, _, rfl, hin, hlast⟩ := List.map_eq_append_iff.1 hinside
  obtain ⟨closePos, _, rfl, hnil⟩ := exists_located hlast
  obtain rfl := List.map_eq_nil_iff.1 hnil
  simp only [Expr.grouped, List.length_cons, List.length_append] at hfuel
  obtain ⟨fuel, rfl⟩ : ∃ n, fuel = n + 1 := ⟨fuel - 1, by omega⟩
  have hread := h fuel inside (⟨.punct .rparen, closePos⟩ :: rest) (by omega) hin (stops_cons (by decide))
  simp only [List.cons_append, List.append_assoc, List.nil_append, primaryExpr, hread, expectMark_cons, bind,
    Except.bind]
  rfl

variable {left right : List Token} {a b c : Expr}

theorem Reads.unary_grouped (h : ReadsPrimary readSource (Expr.grouped tokens) expr) :
    ReadsUnary readSource (Expr.grouped tokens) expr :=
  h.toPostfix.toUnary rfl

theorem Reads.assignment_grouped (h : ReadsPrimary readSource (Expr.grouped tokens) expr) :
    ReadsAssignment readSource (Expr.grouped tokens) expr :=
  ((h.unary_grouped.toInfix 0).toConditional.mono (by decide)).toAssignment

/-! Operators. -/

theorem reads_unary {t : Token} {op : UnaryOp} (ht : unaryOp? t = some op) (h : ReadsUnary readSource tokens expr) :
    ReadsUnary readSource (t :: tokens) (.unary op expr) := by
  intro fuel ts rest hfuel hts hrest
  rw [List.length_cons] at hfuel
  obtain ⟨fuel, rfl⟩ : ∃ n, fuel = n + 1 := ⟨fuel - 1, by omega⟩
  obtain ⟨pos, behind, rfl, hbehind⟩ := exists_located hts
  rw [List.cons_append, unaryExpr]
  simp only
  rw [ht]
  simp only
  rw [h fuel behind rest (by omega) hbehind hrest]
  rfl

theorem stageOf_of_ofMark? {mark : Punctuator} {op : Infix × Nat} (h : Infix.ofMark? mark = some op) :
    stageOf (.punct mark) = 4 := by
  cases mark <;> first | rfl | cases h

theorem reads_operator {mark : Punctuator} {op : Infix} {tightness : Nat}
    (hmark : Infix.ofMark? mark = some (op, tightness)) (hleft : ReadsUnary readSource left a)
    (hright : ReadsUnary readSource right b) :
    ReadsInfix readSource 0 (left ++ .punct mark :: right) (op.apply a b) := by
  intro fuel ts rest hfuel hts hrest
  simp only [List.length_append, List.length_cons] at hfuel
  obtain ⟨fuel, rfl⟩ : ∃ n, fuel = n + 2 := ⟨fuel - 2, by omega⟩
  obtain ⟨front, _, rfl, hfront, hmarked⟩ := List.map_eq_append_iff.1 hts
  obtain ⟨pos, behind, rfl, hbehind⟩ := exists_located hmarked
  have hstops : Stops 5 (⟨.punct mark, pos⟩ :: behind ++ rest) :=
    stops_cons (by rw [stageOf_of_ofMark? hmark]; decide)
  have hread : infixFrom readSource fuel (tightness + 1) (behind ++ rest) = .ok (b, rest) :=
    hright.toInfix _ fuel behind rest (by omega) hbehind hrest
  dsimp only
  rw [infixFrom, List.append_assoc, hleft _ front _ (by omega) hfront hstops]
  simp only [bind, Except.bind]
  rw [List.cons_append, infixRest]
  simp only
  rw [hmark]
  simp only [Nat.not_lt_zero, if_false]
  rw [hread]
  exact infixRest_of_stops hrest (by omega)

theorem reads_conditional {test : List Token} (htest : ReadsUnary readSource test a)
    (hleft : ReadsAssignment readSource left b) (hright : ReadsAssignment readSource right c) :
    ReadsConditional readSource 2 (test ++ .punct .question :: (left ++ .punct .colon :: right)) (.conditional a b c) := by
  intro fuel ts rest hfuel hts hrest
  simp only [List.length_append, List.length_cons] at hfuel
  obtain ⟨fuel, rfl⟩ : ∃ n, fuel = n + 1 := ⟨fuel - 1, by omega⟩
  obtain ⟨front, _, rfl, hfront, hquestion⟩ := List.map_eq_append_iff.1 hts
  obtain ⟨pos, _, rfl, hchoice⟩ := exists_located hquestion
  obtain ⟨middle, _, rfl, hmiddle, hcolon⟩ := List.map_eq_append_iff.1 hchoice
  obtain ⟨colonPos, behind, rfl, hbehind⟩ := exists_located hcolon
  have htested := htest.toInfix 0 fuel front (⟨.punct .question, pos⟩ :: (middle ++ ⟨.punct .colon, colonPos⟩ ::
    (behind ++ rest))) (by omega) hfront (stops_cons (by decide))
  have hchosen := hleft fuel middle (⟨.punct .colon, colonPos⟩ :: (behind ++ rest)) (by omega) hmiddle
    (stops_cons (by decide))
  have hother := hright fuel behind rest (by omega) hbehind hrest
  dsimp only at htested
  simp only [conditionalExpr, List.append_assoc, List.cons_append, htested, after?_cons, hchosen, expectMark_cons,
    hother, bind, Except.bind]
  rfl

theorem reads_assign (ha : a.isTarget = true) (hleft : ReadsUnary readSource left a)
    (hright : ReadsAssignment readSource right b) :
    ReadsAssignment readSource (left ++ .punct .assign :: right) (.assign a b) := by
  intro fuel ts rest hfuel hts hrest
  simp only [List.length_append, List.length_cons] at hfuel
  obtain ⟨fuel, rfl⟩ : ∃ n, fuel = n + 1 := ⟨fuel - 1, by omega⟩
  obtain ⟨front, _, rfl, hfront, hassign⟩ := List.map_eq_append_iff.1 hts
  obtain ⟨pos, behind, rfl, hbehind⟩ := exists_located hassign
  have htarget := (hleft.toInfix 0).toConditional fuel front (⟨.punct .assign, pos⟩ :: (behind ++ rest)) (by omega) hfront
    (stops_cons (by decide))
  have hvalue := hright fuel behind rest (by omega) hbehind hrest
  simp only [assignmentExpr, List.append_assoc, List.cons_append, htarget, after?_cons, ha, hvalue, if_pos, bind,
    Except.bind]
  rfl

/-! Lists between commas. -/

/-- Tokens between commas. -/
def separated (parts : List (List Token)) : List Token := List.intercalate [.punct .comma] parts

theorem separated_cons {parts : List (List Token)} (part : List Token) (h : parts ≠ []) :
    separated (part :: parts) = part ++ .punct .comma :: separated parts := by
  rw [separated, List.intercalate_cons_of_ne_nil h, List.append_assoc]
  rfl

/-- A reader of lists takes what its items take, the commas between them and the mark that closes the list. -/
theorem reads_separated {β : Type} {reader : Nat → List Located → Except ParseError (Parsed (List β))}
    {close : Punctuator} (reading : List Token → β → Prop)
    (hnil : ∀ fuel pos rest, reader (fuel + 1) (⟨.punct close, pos⟩ :: rest) = .ok ([], rest))
    (hlast : ∀ tokens item, reading tokens item → ∀ fuel ts pos rest, 10 * tokens.length + 6 ≤ fuel →
      ts.map (·.token) = tokens → reader (fuel + 1) (ts ++ ⟨.punct close, pos⟩ :: rest) = .ok ([item], rest))
    (hmore : ∀ tokens item, reading tokens item → ∀ fuel ts pos rest more behind, 10 * tokens.length + 6 ≤ fuel →
      ts.map (·.token) = tokens → reader fuel rest = .ok (more, behind) →
      reader (fuel + 1) (ts ++ ⟨.punct .comma, pos⟩ :: rest) = .ok (item :: more, behind))
    {parts : List (List Token)} {list : List β} (h : List.Forall₂ reading parts list) :
    Reads reader 0 6 (separated parts ++ [.punct close]) list := by
  induction h with
  | nil =>
    intro fuel ts rest hfuel hts _
    obtain ⟨pos, _, rfl, hempty⟩ := exists_located hts
    obtain rfl := List.map_eq_nil_iff.1 hempty
    obtain ⟨fuel, rfl⟩ : ∃ n, fuel = n + 1 := ⟨fuel - 1, by simp [separated] at hfuel; omega⟩
    exact hnil fuel pos rest
  | @cons part item parts list hitem hitems ih =>
    intro fuel ts rest hfuel hts hrest
    rw [List.length_append, List.length_singleton] at hfuel
    obtain ⟨fuel, rfl⟩ : ∃ n, fuel = n + 1 := ⟨fuel - 1, by omega⟩
    cases hitems with
    | nil =>
      rw [separated, List.intercalate_singleton] at hfuel hts
      obtain ⟨front, _, rfl, hfront, hclose⟩ := List.map_eq_append_iff.1 hts
      obtain ⟨pos, _, rfl, hempty⟩ := exists_located hclose
      obtain rfl := List.map_eq_nil_iff.1 hempty
      rw [List.append_assoc]
      exact hlast part item hitem fuel front pos rest (by omega) hfront
    | @cons next _ more _ _ _ =>
      rw [separated_cons part (List.cons_ne_nil next more)] at hfuel hts
      rw [List.length_append, List.length_cons] at hfuel
      rw [List.append_assoc, List.cons_append] at hts
      obtain ⟨front, _, rfl, hfront, hcomma⟩ := List.map_eq_append_iff.1 hts
      obtain ⟨pos, behind, rfl, hbehind⟩ := exists_located hcomma
      have hothers := ih fuel behind rest (by rw [List.length_append, List.length_singleton]; omega) hbehind hrest
      rw [List.append_assoc]
      exact hmore part item hitem fuel front pos _ _ rest (by omega) hfront hothers

/-- Whether tokens read as an item that does not start like the end of a list. -/
def ReadsItem (readSource : String → Except ParseError Expr) (close : Punctuator) (tokens : List Token) (expr : Expr) :
    Prop :=
  ReadsAssignment readSource tokens expr ∧ ∃ t rest, tokens = t :: rest ∧ t ≠ .punct close

theorem Reads.item {close : Punctuator} (h : ReadsPrimary readSource (Expr.grouped tokens) expr)
    (hclose : close ≠ .lparen) : ReadsItem readSource close (Expr.grouped tokens) expr :=
  ⟨h.assignment_grouped, _, _, rfl, fun he => hclose (Token.punct.inj he).symm⟩

theorem ReadsItem.after?_eq_none {close : Punctuator} (h : ReadsItem readSource close tokens expr) {ts : List Located}
    (hts : ts.map (·.token) = tokens) (rest : List Located) : after? close (ts ++ rest) = none := by
  obtain ⟨-, t, others, rfl, ht⟩ := h
  obtain ⟨pos, behind, rfl, -⟩ := exists_located hts
  exact after?_of_ne ht

theorem reads_items {close : Punctuator} (hclose : stageOf (.punct close) = 0) {parts : List (List Token)}
    {exprs : List Expr} (h : List.Forall₂ (ReadsItem readSource close) parts exprs) :
    Reads (fun fuel => items readSource fuel close) 0 6 (separated parts ++ [.punct close]) exprs := by
  apply reads_separated (ReadsItem readSource close) ?_ ?_ ?_ h
  · intro fuel pos rest
    rw [items, after?_cons]
  · intro tokens item hitem fuel ts pos rest hfuel hts
    have hread := hitem.1 fuel ts (⟨.punct close, pos⟩ :: rest) hfuel hts (stops_cons (by rw [hclose]; decide))
    have hcomma : after? .comma (⟨.punct close, pos⟩ :: rest) = none :=
      after?_of_ne fun he => by rw [he] at hclose; cases hclose
    simp only [items, hitem.after?_eq_none hts, hread, hcomma, expectMark_cons, bind, Except.bind]
    rfl
  · intro tokens item hitem fuel ts pos rest more behind hfuel hts hmore
    have hread := hitem.1 fuel ts (⟨.punct .comma, pos⟩ :: rest) hfuel hts (stops_cons (by decide))
    simp only [items, hitem.after?_eq_none hts, hread, after?_cons, hmore, bind, Except.bind]
    rfl

theorem reads_array {parts : List (List Token)} {exprs : List Expr}
    (h : List.Forall₂ (ReadsItem readSource .rbracket) parts exprs) :
    ReadsPrimary readSource (.punct .lbracket :: (separated parts ++ [.punct .rbracket])) (.array exprs) := by
  intro fuel ts rest hfuel hts hrest
  rw [List.length_cons] at hfuel
  obtain ⟨fuel, rfl⟩ : ∃ n, fuel = n + 1 := ⟨fuel - 1, by omega⟩
  obtain ⟨pos, behind, rfl, hbehind⟩ := exists_located hts
  have hitems := reads_items rfl h fuel behind rest (by omega) hbehind hrest
  dsimp only at hitems
  simp only [List.cons_append, primaryExpr, hitems, bind, Except.bind]
  rfl

/-- Whether tokens read as a quoted key and its value. -/
def ReadsEntry (readSource : String → Except ParseError Expr) (tokens : List Token) (entry : String × Expr) : Prop :=
  ∃ value, tokens = .string entry.1 :: .punct .colon :: value ∧ ReadsAssignment readSource value entry.2

theorem ReadsEntry.exists_value {entry : String × Expr} (h : ReadsEntry readSource tokens entry) {fuel : Nat}
    {ts : List Located} (hfuel : 10 * tokens.length + 6 ≤ fuel) (hts : ts.map (·.token) = tokens) :
    ∃ pos valued, ts = ⟨.string entry.1, pos⟩ :: valued ∧ ∀ rest, Stops 2 rest →
      entryValue readSource fuel entry.1 (valued ++ rest) = .ok (entry.2, rest) := by
  obtain ⟨value, rfl, hread⟩ := h
  obtain ⟨pos, _, rfl, hcolon⟩ := exists_located hts
  obtain ⟨colonPos, behind, rfl, hbehind⟩ := exists_located hcolon
  simp only [List.length_cons] at hfuel
  obtain ⟨fuel, rfl⟩ : ∃ n, fuel = n + 1 := ⟨fuel - 1, by omega⟩
  refine ⟨pos, _, rfl, fun rest hrest => ?_⟩
  rw [List.cons_append, entryValue, after?_cons]
  exact hread fuel behind rest (by omega) hbehind hrest

theorem reads_entries {parts : List (List Token)} {pairs : List (String × Expr)}
    (h : List.Forall₂ (ReadsEntry readSource) parts pairs) :
    Reads (entries readSource) 0 6 (separated parts ++ [.punct .rbrace]) pairs := by
  apply reads_separated (ReadsEntry readSource) ?_ ?_ ?_ h
  · intro fuel pos rest
    rw [entries, after?_cons]
  · intro tokens entry hentry fuel ts pos rest hfuel hts
    obtain ⟨keyPos, valued, rfl, hvalue⟩ := hentry.exists_value hfuel hts
    have hread := hvalue (⟨.punct .rbrace, pos⟩ :: rest) (stops_cons (by decide))
    have hkey : after? .rbrace (⟨.string entry.1, keyPos⟩ :: (valued ++ ⟨.punct .rbrace, pos⟩ :: rest)) = none := rfl
    have hcomma : after? .comma (⟨.punct .rbrace, pos⟩ :: rest) = none := rfl
    simp only [List.cons_append, entries, hkey, objectKey, hread, hcomma, expectMark_cons, bind, Except.bind]
    rfl
  · intro tokens entry hentry fuel ts pos rest more behind hfuel hts hmore
    obtain ⟨keyPos, valued, rfl, hvalue⟩ := hentry.exists_value hfuel hts
    have hread := hvalue (⟨.punct .comma, pos⟩ :: rest) (stops_cons (by decide))
    have hkey : after? .rbrace (⟨.string entry.1, keyPos⟩ :: (valued ++ ⟨.punct .comma, pos⟩ :: rest)) = none := rfl
    simp only [List.cons_append, entries, hkey, objectKey, hread, after?_cons, hmore, bind, Except.bind]
    rfl

theorem reads_object {parts : List (List Token)} {pairs : List (String × Expr)}
    (h : List.Forall₂ (ReadsEntry readSource) parts pairs) :
    ReadsPrimary readSource (.punct .lbrace :: (separated parts ++ [.punct .rbrace])) (.object pairs) := by
  intro fuel ts rest hfuel hts hrest
  rw [List.length_cons] at hfuel
  obtain ⟨fuel, rfl⟩ : ∃ n, fuel = n + 1 := ⟨fuel - 1, by omega⟩
  obtain ⟨pos, behind, rfl, hbehind⟩ := exists_located hts
  have hentries := reads_entries h fuel behind rest (by omega) hbehind hrest
  simp only [List.cons_append, primaryExpr, hentries, bind, Except.bind]
  rfl

theorem separated_cons_eq (part : List Token) (parts : List (List Token)) :
    separated (part :: parts) = part ++ parts.flatMap (.punct .comma :: ·) := by
  induction parts generalizing part with
  | nil => simp [separated]
  | cons next parts ih => rw [separated_cons part (List.cons_ne_nil next parts), ih, List.flatMap_cons]; rfl

theorem reads_commaItems {parts : List (List Token)} {exprs : List Expr}
    (h : List.Forall₂ (ReadsAssignment readSource) parts exprs) :
    Reads (commaItems readSource) 1 1 (parts.flatMap (.punct .comma :: ·)) exprs := by
  induction h with
  | nil =>
    intro fuel ts rest hfuel hts hrest
    obtain rfl := List.map_eq_nil_iff.1 hts
    exact commaItems_of_stops hrest (by omega)
  | cons hitem hitems ih =>
    intro fuel ts rest hfuel hts hrest
    simp only [List.flatMap_cons, List.cons_append, List.length_cons, List.length_append] at hfuel hts
    obtain ⟨fuel, rfl⟩ : ∃ n, fuel = n + 1 := ⟨fuel - 1, by omega⟩
    obtain ⟨pos, _, rfl, hparts⟩ := exists_located hts
    obtain ⟨front, behind, rfl, hfront, hbehind⟩ := List.map_eq_append_iff.1 hparts
    have hstops : Stops 2 (behind ++ rest) := by
      cases hitems with
      | nil =>
        obtain rfl := List.map_eq_nil_iff.1 hbehind
        exact hrest.mono (by decide)
      | cons =>
        obtain ⟨commaPos, _, rfl, -⟩ := exists_located hbehind
        exact stops_cons (by decide)
    have hfirst := hitem fuel front (behind ++ rest) (by omega) hfront hstops
    have hmore := ih fuel behind rest (by omega) hbehind hrest
    rw [List.cons_append, List.append_assoc, commaItems, after?_cons]
    simp only [hfirst, hmore, bind, Except.bind]
    rfl

/-- At least two items between commas read as a sequence. -/
theorem reads_sequence {parts : List (List Token)} {exprs : List Expr} (hexprs : 2 ≤ exprs.length)
    (h : List.Forall₂ (ReadsAssignment readSource) parts exprs) :
    ReadsSequence readSource (separated parts) (.sequence exprs) := by
  cases h with
  | nil => simp at hexprs
  | @cons part expr parts exprs hitem hitems =>
    intro fuel ts rest hfuel hts hrest
    rw [separated_cons_eq] at hfuel hts
    rw [List.length_append] at hfuel
    obtain ⟨fuel, rfl⟩ : ∃ n, fuel = n + 1 := ⟨fuel - 1, by omega⟩
    obtain ⟨front, behind, rfl, hfront, hbehind⟩ := List.map_eq_append_iff.1 hts
    cases hitems with
    | nil => simp at hexprs
    | @cons next nextExpr parts exprs hnext hparts =>
      have hmore := reads_commaItems (hparts.cons hnext) fuel behind rest (by omega) hbehind hrest
      obtain ⟨pos, others, rfl, -⟩ := exists_located hbehind
      have hfirst := hitem fuel front (⟨.punct .comma, pos⟩ :: others ++ rest) (by omega) hfront (stops_cons (by decide))
      rw [List.append_assoc, sequenceExpr]
      simp only [hfirst, hmore, bind, Except.bind]
      rfl

/-! Accesses. -/

/-- The mark of an access that yields nothing if there is nothing to access. -/
def optionalMark (optional : Bool) : List Token := if optional then [.punct .optionalDot] else []

theorem reads_member (name : String) (optional : Bool) (h : ReadsPrimary readSource tokens expr) :
    ReadsPostfix readSource (tokens ++ [.punct (if optional then .optionalDot else .dot), .ident name])
      (.member expr name optional) := by
  intro fuel ts rest hfuel hts hrest
  simp only [List.length_append, List.length_cons] at hfuel
  obtain ⟨fuel, rfl⟩ : ∃ n, fuel = n + 2 := ⟨fuel - 2, by omega⟩
  obtain ⟨front, _, rfl, hfront, hdot⟩ := List.map_eq_append_iff.1 hts
  obtain ⟨pos, _, rfl, hident⟩ := exists_located hdot
  obtain ⟨namePos, _, rfl, hnil⟩ := exists_located hident
  obtain rfl := List.map_eq_nil_iff.1 hnil
  rw [postfixExpr, List.append_assoc, h _ front _ (by omega) hfront (stops_six _)]
  have hstop : ∀ e, accesses readSource fuel e rest = .ok (e, rest) := fun e => accesses_of_stops hrest (by omega)
  cases optional <;> exact hstop _

theorem reads_index {key : List Token} (optional : Bool) (h : ReadsPrimary readSource tokens a)
    (hkey : ReadsAssignment readSource key b) :
    ReadsPostfix readSource
      (tokens ++ (optionalMark optional ++ .punct .lbracket :: (key ++ [.punct .rbracket])))
      (.index a b optional) := by
  intro fuel ts rest hfuel hts hrest
  simp only [List.length_append, List.length_cons] at hfuel
  obtain ⟨fuel, rfl⟩ : ∃ n, fuel = n + 3 := ⟨fuel - 3, by omega⟩
  obtain ⟨front, _, rfl, hfront, haccess⟩ := List.map_eq_append_iff.1 hts
  obtain ⟨mark, _, rfl, hmark, hbracket⟩ := List.map_eq_append_iff.1 haccess
  obtain ⟨pos, _, rfl, hinside⟩ := exists_located hbracket
  obtain ⟨inside, _, rfl, hin, hclose⟩ := List.map_eq_append_iff.1 hinside
  obtain ⟨closePos, _, rfl, hnil⟩ := exists_located hclose
  obtain rfl := List.map_eq_nil_iff.1 hnil
  have hread := hkey fuel inside (⟨.punct .rbracket, closePos⟩ :: rest) (by omega) hin (stops_cons (by decide))
  have hbracketed : bracketed readSource (fuel + 1) (inside ++ ⟨.punct .rbracket, closePos⟩ :: rest) =
      .ok (b, rest) := by
    simp only [bracketed, hread, expectMark_cons, bind, Except.bind]
    rfl
  have hstop : ∀ e, accesses readSource (fuel + 1) e rest = .ok (e, rest) := fun e =>
    accesses_of_stops hrest (by omega)
  rw [postfixExpr, List.append_assoc, h _ front _ (by omega) hfront (stops_six _)]
  simp only [List.append_assoc, List.cons_append, List.nil_append, bind, Except.bind]
  cases optional with
  | false =>
    obtain rfl := List.map_eq_nil_iff.1 hmark
    rw [List.nil_append, accesses]
    simp only [hbracketed, bind, Except.bind]
    exact hstop _
  | true =>
    obtain ⟨markPos, _, rfl, hempty⟩ := exists_located hmark
    obtain rfl := List.map_eq_nil_iff.1 hempty
    rw [List.cons_append, List.nil_append, accesses]
    simp only [hbracketed, bind, Except.bind]
    exact hstop _

theorem reads_call {parts : List (List Token)} {args : List Expr} (optional : Bool)
    (h : ReadsPrimary readSource tokens a) (hargs : List.Forall₂ (ReadsItem readSource .rparen) parts args) :
    ReadsPostfix readSource
      (tokens ++ (optionalMark optional ++ .punct .lparen :: (separated parts ++ [.punct .rparen])))
      (.call a args optional) := by
  intro fuel ts rest hfuel hts hrest
  simp only [List.length_append, List.length_cons] at hfuel
  obtain ⟨fuel, rfl⟩ : ∃ n, fuel = n + 2 := ⟨fuel - 2, by omega⟩
  obtain ⟨front, _, rfl, hfront, haccess⟩ := List.map_eq_append_iff.1 hts
  obtain ⟨mark, _, rfl, hmark, hparen⟩ := List.map_eq_append_iff.1 haccess
  obtain ⟨pos, inside, rfl, hinside⟩ := exists_located hparen
  have hread := reads_items rfl hargs fuel inside rest
    (by simp only [List.length_append, List.length_cons]; omega) hinside (stops_six rest)
  have hstop : ∀ e, accesses readSource fuel e rest = .ok (e, rest) := fun e => accesses_of_stops hrest (by omega)
  dsimp only at hread
  rw [postfixExpr, List.append_assoc, h _ front _ (by omega) hfront (stops_six _)]
  simp only [List.append_assoc, List.cons_append, bind, Except.bind]
  cases optional with
  | false =>
    obtain rfl := List.map_eq_nil_iff.1 hmark
    rw [List.nil_append, accesses]
    simp only [hread, bind, Except.bind]
    exact hstop _
  | true =>
    obtain ⟨markPos, _, rfl, hempty⟩ := exists_located hmark
    obtain rfl := List.map_eq_nil_iff.1 hempty
    rw [List.cons_append, List.nil_append, accesses]
    simp only [hread, bind, Except.bind]
    exact hstop _

/-! Expressions of one token. -/

/-- The expression that a token stands for. -/
def ReadsAs (readSource : String → Except ParseError Expr) : Token → Expr → Prop
  | .number x, expr => expr = .number x
  | .string s, expr => expr = .string s
  | .ident name, expr => expr = ofName name
  | .template parts, expr => ∃ segments, templateSegments readSource parts = .ok segments ∧ expr = .template segments
  | _, _ => False

theorem reads_token {t : Token} (h : ReadsAs readSource t expr) : ReadsPrimary readSource [t] expr := by
  intro fuel ts rest hfuel hts _
  obtain ⟨pos, _, rfl, hnil⟩ := exists_located hts
  obtain rfl := List.map_eq_nil_iff.1 hnil
  obtain ⟨fuel, rfl⟩ : ∃ n, fuel = n + 1 := ⟨fuel - 1, by omega⟩
  cases t with
  | number | string | ident => cases h; rfl
  | template parts =>
    obtain ⟨segments, hsegments, rfl⟩ := h
    simp only [List.cons_append, primaryExpr, hsegments, bind, Except.bind]
    rfl
  | punct | eof => cases h

/-- The tokens of a whole text read as the expression that they read as in front of the end. -/
theorem parseTokens_of_reads (h : ReadsSequence readSource tokens expr) {ts : List Located}
    (hts : ts.map (·.token) = tokens ++ [.eof]) : parseTokens readSource ts = .ok expr := by
  obtain ⟨front, _, rfl, hfront, heof⟩ := List.map_eq_append_iff.1 hts
  obtain ⟨pos, _, rfl, hnil⟩ := exists_located heof
  obtain rfl := List.map_eq_nil_iff.1 hnil
  have hlength : front.length = tokens.length := by rw [← hfront, List.length_map]
  have hread := h (10 * (front ++ [Located.mk .eof pos]).length + 10) front [Located.mk .eof pos]
    (by rw [List.length_append]; omega) hfront (stops_cons (by decide))
  rw [parseTokens, hread]
  rfl

end

end ViewBinding.Expr
