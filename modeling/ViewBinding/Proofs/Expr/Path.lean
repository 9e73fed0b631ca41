import ViewBinding.Expr.Parser
import ViewBinding.Proofs.Text.Blank
import ViewBinding.View.Path

/-! Dotted paths as expressions. A text whose parts between dots are names reads as a chain of properties. -/
namespace ViewBinding.Expr

/-- A name as the reader of expressions takes it. -/
def isName : List Char → Bool
  | [] => false
  | c :: rest => isIdentStart c && rest.all isIdentContinue

/-- The pieces of a dotted text, one after the other. -/
def dotted : List (List Char) → List Char
  | [] => []
  | [piece] => piece
  | piece :: pieces => piece ++ '.' :: dotted pieces

/-- The name in a piece. -/
def nameOf (piece : List Char) : String := String.ofList (Text.trim piece)

/-- The tokens of properties that follow one another up to the end. -/
def propertyTokens : List String → List Token
  | [] => [.eof]
  | name :: names => .punct .dot :: .ident name :: propertyTokens names

/-- The expression that follows properties from an expression. -/
def chain (start : Expr) (names : List String) : Expr :=
  names.foldl (fun expr name => .member expr name false) start

theorem dotted_splitOn (text : List Char) : dotted (Text.splitOn (· == '.') text) = text := by
  induction text with
  | nil => rfl
  | cons c text ih =>
    rw [Text.splitOn]
    cases hsplit : Text.splitOn (· == '.') text with
    | nil => exact absurd hsplit (Text.splitOn_ne_nil _ text)
    | cons piece pieces =>
      rw [hsplit] at ih
      split
      · next hc => rw [dotted, ih, List.nil_append, beq_iff_eq.1 hc]; simp
      · simp only
        cases pieces with
        | nil => exact congrArg (c :: ·) ih
        | cons => exact congrArg (c :: ·) ih

section
variable {fuel pos : Nat} {blank name rest : List Char}

/-- Where a name ends: at the end, or before a character that no name has. -/
def Ends (rest : List Char) : Prop := ∀ c ∈ rest.head?, isIdentContinue c = false

theorem span_append (pos : Nat) {p : Char → Bool} {taken rest : List Char} (h : ∀ c ∈ taken, p c = true)
    (hrest : ∀ c ∈ rest.head?, p c = false) :
    Cursor.span p ⟨pos, taken ++ rest⟩ = (taken, ⟨pos + Cursor.byteSize taken, rest⟩) := by
  have hstop : rest.takeWhile p = [] ∧ rest.dropWhile p = rest := by
    cases rest with
    | nil => exact ⟨rfl, rfl⟩
    | cons c rest => simp [hrest c rfl]
  rw [Cursor.span, List.takeWhile_append_of_pos h, List.dropWhile_append_of_pos h, hstop.1, hstop.2, List.append_nil]

theorem tokenAt_name {c : Char} (hc : isIdentStart c = true) (hname : ∀ d ∈ name, isIdentContinue d = true)
    (hrest : Ends rest) :
    tokenAt c ⟨pos, c :: (name ++ rest)⟩ =
      .ok (.ident (String.ofList (c :: name)), ⟨pos + Cursor.byteSize (c :: name), rest⟩) := by
  have hplain : ∀ d : Char, isIdentStart d = false → (c == d) = false := fun d hd =>
    beq_eq_false_iff_ne.2 fun he => by rw [he, hd] at hc; cases hc
  have hspan := span_append pos
    (List.forall_mem_cons.2 ⟨isIdentContinue_of_isIdentStart hc, hname⟩) hrest
  rw [List.cons_append] at hspan
  rw [tokenAt, not_isDigit_of_isIdentStart hc, hplain '.' (by decide), hplain '\'' (by decide), hplain '"' (by decide),
    hplain backtick (by decide), hc, hspan]
  rfl

theorem tokenAt_dot (hrest : ∀ c ∈ rest.head?, Number.isDigit c = false) :
    tokenAt '.' ⟨pos, '.' :: rest⟩ = .ok (.punct .dot, ⟨pos + 1, rest⟩) := by
  have hnext : (Cursor.drop 1 ⟨pos, '.' :: rest⟩).nextIs Number.isDigit = false := by
    cases rest with
    | nil => rfl
    | cons c rest => exact hrest c rfl
  have hmark : punctuator? ⟨pos, '.' :: rest⟩ = some .dot := by
    simp [punctuator?, optionalDot?, Cursor.startsWith, punctuators, Punctuator.text]
  rw [tokenAt, hnext, hmark]
  rfl

theorem tokensFrom_blank (h : ∀ c ∈ blank, Text.isBlank c = true) :
    ∃ ts, tokensFrom fuel ⟨pos, blank⟩ = .ok ts ∧ ts.map (·.token) = [.eof] := by
  cases fuel with
  | zero => exact ⟨_, rfl, rfl⟩
  | succ fuel =>
    have hspan := span_append pos h (fun c hc => by cases (hc : c ∈ ([] : List Char).head?))
    rw [List.append_nil] at hspan
    refine ⟨[⟨.eof, pos + Cursor.byteSize blank⟩], ?_, rfl⟩
    rw [tokensFrom, hspan]
    rfl

/-- White space in front of a token is passed over. -/
theorem tokensFrom_step {c : Char} {token : Token} {next : Cursor} (h : ∀ d ∈ blank, Text.isBlank d = true)
    (hc : Text.isBlank c = false)
    (htoken : tokenAt c ⟨pos + Cursor.byteSize blank, c :: rest⟩ = .ok (token, next)) {tokens : List Token}
    (hnext : ∃ ts, tokensFrom fuel next = .ok ts ∧ ts.map (·.token) = tokens) :
    ∃ ts, tokensFrom (fuel + 1) ⟨pos, blank ++ c :: rest⟩ = .ok ts ∧ ts.map (·.token) = token :: tokens := by
  have hhead : ∀ d ∈ (c :: rest).head?, Text.isBlank d = false := fun d hd => by cases hd; exact hc
  have hspan := span_append pos h hhead
  obtain ⟨ts, hts, rfl⟩ := hnext
  refine ⟨⟨token, pos + Cursor.byteSize blank⟩ :: ts, ?_, rfl⟩
  rw [tokensFrom, hspan]
  simp only [Cursor.peek?, List.head?_cons]
  rw [htoken]
  simp only [bind, Except.bind]
  rw [hts]
  rfl

theorem exists_name {piece : List Char} (h : isName (Text.trim piece) = true) :
    ∃ front c name behind, piece = front ++ c :: (name ++ behind) ∧ Text.trim piece = c :: name ∧
      (∀ d ∈ front, Text.isBlank d = true) ∧ (∀ d ∈ behind, Text.isBlank d = true) ∧ isIdentStart c = true ∧
      ∀ d ∈ name, isIdentContinue d = true := by
  obtain ⟨front, behind, hpiece, hfront, hbehind⟩ := Text.exists_trim piece
  cases htrim : Text.trim piece with
  | nil => rw [htrim] at h; cases h
  | cons c name =>
    rw [htrim, isName, Bool.and_eq_true, List.all_eq_true] at h
    refine ⟨front, c, name, behind, ?_, rfl, hfront, hbehind, h.1, h.2⟩
    rw [hpiece, htrim]
    simp

theorem ends_append {behind rest : List Char} (h : ∀ d ∈ behind, Text.isBlank d = true) (hrest : Ends rest) :
    Ends (behind ++ rest) := by
  cases behind with
  | nil => exact hrest
  | cons d behind => exact fun c hc => by cases hc; exact not_isIdentContinue_of_isBlank (h d (by simp))

/-- No piece starts with a digit. -/
theorem not_isDigit_head_dotted {pieces : List (List Char)}
    (h : ∀ piece ∈ pieces, isName (Text.trim piece) = true) :
    ∀ c ∈ (dotted pieces).head?, Number.isDigit c = false := by
  cases pieces with
  | nil => simp [dotted]
  | cons piece pieces =>
    obtain ⟨front, c, name, behind, rfl, -, hfront, -, hc, -⟩ := exists_name (h piece (by simp))
    have hhead : ∀ d ∈ (front ++ c :: (name ++ behind)).head?, Number.isDigit d = false := by
      intro d hd
      cases front with
      | nil => cases hd; exact not_isDigit_of_isIdentStart hc
      | cons _ front => cases hd; exact not_isDigit_of_isBlank (hfront d (by simp))
    cases pieces with
    | nil => exact hhead
    | cons next pieces =>
      intro d hd
      refine hhead d ?_
      cases front <;> exact hd

/-- A text whose pieces hold names is cut into these names and the dots between them. -/
theorem tokensFrom_dotted (pos : Nat) {piece : List Char} {pieces : List (List Char)}
    (h : ∀ p ∈ piece :: pieces, isName (Text.trim p) = true) (hfuel : (dotted (piece :: pieces)).length < fuel) :
    ∃ ts, tokensFrom fuel ⟨pos, dotted (piece :: pieces)⟩ = .ok ts ∧
      ts.map (·.token) = .ident (nameOf piece) :: propertyTokens (pieces.map nameOf) := by
  induction pieces generalizing piece fuel pos with
  | nil =>
    obtain ⟨front, c, name, behind, hpiece, htrim, hfront, hbehind, hc, hname⟩ := exists_name (h piece (by simp))
    obtain ⟨fuel, rfl⟩ : ∃ n, fuel = n + 1 := Nat.exists_eq_succ_of_ne_zero (by omega)
    have hnil : Ends [] := fun c hc => by cases hc
    have hends : Ends behind := List.append_nil behind ▸ ends_append hbehind hnil
    rw [nameOf, htrim, dotted, hpiece]
    exact tokensFrom_step hfront (not_isBlank_of_isIdentStart hc) (tokenAt_name hc hname hends)
      (tokensFrom_blank hbehind)
  | cons next pieces ih =>
    obtain ⟨front, c, name, behind, hpiece, htrim, hfront, hbehind, hc, hname⟩ := exists_name (h piece (by simp))
    have htext : dotted (piece :: next :: pieces) =
        front ++ c :: (name ++ (behind ++ '.' :: dotted (next :: pieces))) := by
      simp [dotted, hpiece]
    rw [htext] at hfuel ⊢
    obtain ⟨fuel, rfl⟩ : ∃ n, fuel = n + 2 := ⟨fuel - 2, by simp at hfuel; omega⟩
    have hends : Ends (behind ++ '.' :: dotted (next :: pieces)) :=
      ends_append hbehind fun d hd => by cases hd; decide
    have hrest : ∀ p ∈ next :: pieces, isName (Text.trim p) = true := fun p hp => h p (List.mem_cons_of_mem _ hp)
    rw [nameOf, htrim]
    refine tokensFrom_step hfront (not_isBlank_of_isIdentStart hc) (tokenAt_name hc hname hends) ?_
    refine tokensFrom_step hbehind (by decide) (tokenAt_dot (not_isDigit_head_dotted hrest)) (ih _ hrest ?_)
    simp at hfuel
    omega

end

section
variable (readSource : String → Except ParseError Expr)

theorem accesses_names {names : List String} (expr : Expr) {fuel : Nat} {ts : List Located}
    (hfuel : names.length < fuel) (hts : ts.map (·.token) = propertyTokens names) :
    ∃ pos, accesses readSource fuel expr ts = .ok (chain expr names, [⟨.eof, pos⟩]) := by
  induction names generalizing expr fuel ts with
  | nil =>
    obtain ⟨fuel, rfl⟩ : ∃ n, fuel = n + 1 := Nat.exists_eq_succ_of_ne_zero (by omega)
    obtain ⟨⟨_, pos⟩, rest, rfl, rfl, hrest⟩ := List.map_eq_cons_iff.1 hts
    obtain rfl := List.map_eq_nil_iff.1 hrest
    exact ⟨pos, by simp [accesses, chain]⟩
  | cons name names ih =>
    obtain ⟨fuel, rfl⟩ : ∃ n, fuel = n + 1 := Nat.exists_eq_succ_of_ne_zero (by omega)
    obtain ⟨⟨_, dotPos⟩, rest, rfl, rfl, hrest⟩ := List.map_eq_cons_iff.1 hts
    obtain ⟨⟨_, namePos⟩, ts, rfl, rfl, htail⟩ := List.map_eq_cons_iff.1 hrest
    rw [accesses]
    exact ih _ (Nat.lt_of_succ_lt_succ hfuel) htail

/-- A name and the properties that follow it read as a chain. -/
theorem parseTokens_path {start : String} {names : List String} {ts : List Located}
    (hstart : unaryOp? (.ident start) = none)
    (hts : ts.map (·.token) = .ident start :: propertyTokens names) :
    parseTokens readSource ts = .ok (chain (ofName start) names) := by
  obtain ⟨⟨_, startPos⟩, rest, rfl, rfl, hrest⟩ := List.map_eq_cons_iff.1 hts
  have hlength : names.length ≤ rest.length := by
    have hl : ∀ names : List String, names.length ≤ (propertyTokens names).length := fun names => by
      induction names with
      | nil => simp [propertyTokens]
      | cons name names ih => simp only [propertyTokens, List.length_cons]; omega
    rw [← List.length_map (Located.token), hrest]
    exact hl names
  obtain ⟨n, hn⟩ : ∃ n, 10 * (rest.length + 1) + 10 = n + 9 := ⟨_, rfl⟩
  obtain ⟨pos, hpos⟩ := accesses_names readSource (ofName start) (show names.length < n + 3 by omega) hrest
  have hpostfix : postfixExpr readSource (n + 4) (⟨.ident start, startPos⟩ :: rest) =
      .ok (chain (ofName start) names, [⟨.eof, pos⟩]) := by
    rw [postfixExpr, primaryExpr]
    exact hpos
  have hunary : unaryExpr readSource (n + 5) (⟨.ident start, startPos⟩ :: rest) =
      .ok (chain (ofName start) names, [⟨.eof, pos⟩]) := by
    rw [unaryExpr]
    simp only
    rw [hstart]
    exact hpostfix
  have hinfix : infixFrom readSource (n + 6) 0 (⟨.ident start, startPos⟩ :: rest) =
      .ok (chain (ofName start) names, [⟨.eof, pos⟩]) := by
    rw [infixFrom, hunary]
    rfl
  have hconditional : conditionalExpr readSource (n + 7) (⟨.ident start, startPos⟩ :: rest) =
      .ok (chain (ofName start) names, [⟨.eof, pos⟩]) := by
    rw [conditionalExpr, hinfix]
    rfl
  have hassignment : assignmentExpr readSource (n + 8) (⟨.ident start, startPos⟩ :: rest) =
      .ok (chain (ofName start) names, [⟨.eof, pos⟩]) := by
    rw [assignmentExpr, hconditional]
    rfl
  rw [parseTokens, List.length_cons, hn, sequenceExpr, hassignment]
  rfl

end

/-- A text whose parts between dots are names reads as the chain of these names. -/
theorem parse_path {path start : String} {names : List String} (hpath : View.pathParts path = start :: names)
    (hnames : ∀ name ∈ start :: names, isName name.toList = true) (hstart : unaryOp? (.ident start) = none) :
    parse path = .ok (chain (ofName start) names) := by
  have hparts : (Text.splitOn (· == '.') path.toList).map nameOf = start :: names := hpath
  obtain ⟨piece, pieces, hsplit, rfl, rfl⟩ := List.map_eq_cons_iff.1 hparts
  have hpieces : ∀ p ∈ piece :: pieces, isName (Text.trim p) = true := fun p hp => by
    have := hnames (nameOf p) (by rw [← hparts, hsplit]; exact List.mem_map_of_mem hp)
    rwa [nameOf, String.toList_ofList] at this
  have htext : dotted (piece :: pieces) = path.toList := hsplit ▸ dotted_splitOn path.toList
  obtain ⟨ts, hts, htokens⟩ := tokensFrom_dotted 0 hpieces
    (show _ < path.length + 1 by rw [htext, String.length_toList]; omega)
  have hcut : tokens path = .ok ts := by rw [← hts, htext]; rfl
  rw [parse, parseNested, hcut]
  exact parseTokens_path _ hstart htokens

theorem isIdentContinue_of_isName {name : List Char} (h : isName name = true) {c : Char} (hc : c ∈ name) :
    isIdentContinue c = true := by
  cases name with
  | nil => cases h
  | cons d rest =>
    rw [isName, Bool.and_eq_true] at h
    rcases List.mem_cons.1 hc with rfl | hc
    · exact isIdentContinue_of_isIdentStart h.1
    · exact List.all_eq_true.1 h.2 c hc

/-- In a name there is neither white space nor a dot. -/
theorem plain_of_isName {name : List Char} (h : isName name = true) {c : Char} (hc : c ∈ name) :
    Text.isBlank c = false ∧ (c == '.') = false := by
  have hcontinue := isIdentContinue_of_isName h hc
  constructor
  · by_contra hblank
    rw [not_isIdentContinue_of_isBlank (by simpa using hblank)] at hcontinue
    cases hcontinue
  · refine beq_eq_false_iff_ne.2 fun he => ?_
    rw [he] at hcontinue
    exact absurd hcontinue (by decide)

theorem nameOf_of_isName {name : String} (h : isName name.toList = true) : nameOf name.toList = name := by
  rw [nameOf, Text.trim_of_forall fun c hc => (plain_of_isName h hc).1, String.ofList_toList]

theorem pathParts_of_isName {name : String} (h : isName name.toList = true) : View.pathParts name = [name] := by
  rw [View.pathParts, Text.splitOn_of_forall fun c hc => (plain_of_isName h hc).2]
  exact congrArg ([·]) (nameOf_of_isName h)

/-- The first part of a dotted path is the name in front of the first dot. -/
theorem pathParts_append {name rest : String} (h : isName name.toList = true) :
    View.pathParts (name ++ "." ++ rest) = name :: View.pathParts rest := by
  have htext : (name ++ "." ++ rest).toList = name.toList ++ '.' :: rest.toList := by simp
  rw [View.pathParts, htext, Text.splitOn_append_cons rfl, Text.splitOn_of_forall fun c hc => (plain_of_isName h hc).2]
  exact congrArg (· :: View.pathParts rest) (nameOf_of_isName h)

end ViewBinding.Expr
