import ViewBinding.Proofs.Expr.Depth
import ViewBinding.Proofs.Expr.Source

/-! How the operators between operands group: those that bind more tightly come first, and those that bind alike from the left. -/
namespace ViewBinding.Expr

def Infix.mark : Infix → Punctuator
  | .binary op => op.mark
  | .logical op => op.mark

/-- How tightly an operator binds. -/
def Infix.precedence : Infix → Nat
  | .logical .nullish => 1
  | .logical .or => 2
  | .logical .and => 3
  | .binary .looseEq | .binary .looseNe | .binary .strictEq | .binary .strictNe => 4
  | .binary .lt | .binary .gt | .binary .le | .binary .ge => 5
  | .binary .add | .binary .sub => 6
  | .binary .mul | .binary .div | .binary .rem => 7

theorem Infix.ofMark?_mark : ∀ op : Infix, Infix.ofMark? op.mark = some (op, op.precedence)
  | .binary op => by cases op <;> rfl
  | .logical op => by cases op <;> rfl

/-- Operands that operators join, and which of them each operator takes. -/
inductive OpTree where
  | operand (expr : Expr)
  | node (op : Infix) (left right : OpTree)

namespace OpTree

def expr : OpTree → Expr
  | .operand expr => expr
  | .node op left right => op.apply left.expr right.expr

/-- The operands and operators from left to right. -/
def inorder : OpTree → List (Expr ⊕ Infix)
  | .operand expr => [.inl expr]
  | .node op left right => left.inorder ++ .inr op :: right.inorder

/-- The operator that comes last. -/
def operator? : OpTree → Option Infix
  | .operand _ => none
  | .node op _ _ => some op

/-- Whether no operator on the left binds less tightly than the one that takes it, and each one on the right more tightly. -/
def Grouped : OpTree → Prop
  | .operand _ => True
  | .node op left right => left.Grouped ∧ right.Grouped ∧ (∀ o ∈ left.operator?, op.precedence ≤ o.precedence) ∧
      ∀ o ∈ right.operator?, op.precedence < o.precedence

variable {tree other left right : OpTree} {op o : Infix}

theorem exists_operator?_of_mem (h : .inr o ∈ tree.inorder) : ∃ op, tree.operator? = some op := by
  cases tree with
  | operand expr => simp [inorder] at h
  | node op left right => exact ⟨op, rfl⟩

/-- All operators of a grouped tree bind at least as tightly as the one that comes last. -/
theorem Grouped.precedence_le (h : tree.Grouped) (hop : tree.operator? = some op) (ho : .inr o ∈ tree.inorder) :
    op.precedence ≤ o.precedence := by
  induction tree generalizing op with
  | operand expr => cases hop
  | node op' left right ihl ihr =>
    obtain rfl : op' = op := Option.some.inj hop
    obtain ⟨hleft, hright, hle, hlt⟩ := h
    rcases List.mem_append.1 ho with hmem | hmem
    · obtain ⟨p, hp⟩ := exists_operator?_of_mem hmem
      exact (hle p hp).trans (ihl hleft hp hmem)
    · rcases List.mem_cons.1 hmem with he | hmem
      · exact (congrArg Infix.precedence (Sum.inr.inj he)).ge
      · obtain ⟨p, hp⟩ := exists_operator?_of_mem hmem
        exact (hlt p hp).le.trans (ihr hright hp hmem)

theorem Grouped.le_of_mem_left (h : (node op left right).Grouped) (ho : .inr o ∈ left.inorder) :
    op.precedence ≤ o.precedence :=
  h.precedence_le rfl (List.mem_append_left _ ho)

theorem Grouped.lt_of_mem_right (h : (node op left right).Grouped) (ho : .inr o ∈ right.inorder) :
    op.precedence < o.precedence := by
  obtain ⟨p, hp⟩ := exists_operator?_of_mem ho
  exact (h.2.2.2 p hp).trans_le (h.2.1.precedence_le hp ho)

/-- Two grouped trees of the same operands and operators have the same operator last. -/
theorem Grouped.not_between {left' right' : OpTree} {between : List (Expr ⊕ Infix)} (h : (node op left right).Grouped)
    (h' : (node o left' right').Grouped) (hleft : left'.inorder = left.inorder ++ .inr op :: between)
    (hright : right.inorder = between ++ .inr o :: right'.inorder) : False := by
  have hlt : op.precedence < o.precedence := h.lt_of_mem_right (by rw [hright]; simp)
  have hle : o.precedence ≤ op.precedence := h'.le_of_mem_left (by rw [hleft]; simp)
  omega

theorem inorder_ne_operand (expr : Expr) : (node op left right).inorder ≠ [.inl expr] := by
  intro h
  have hmem : .inr op ∈ (node op left right).inorder := by simp [inorder]
  rw [h] at hmem
  simp at hmem

/-- There is one way only to group operands and operators. -/
theorem Grouped.eq_of_inorder (h : tree.Grouped) (h' : other.Grouped) (he : tree.inorder = other.inorder) :
    tree = other := by
  induction tree generalizing other with
  | operand expr =>
    cases other with
    | operand expr' => simpa [inorder] using he
    | node op left right => exact absurd he.symm (inorder_ne_operand expr)
  | node op left right ihl ihr =>
    cases other with
    | operand expr => exact absurd he (inorder_ne_operand expr)
    | node op' left' right' =>
      have hsame : ∀ {a b : List (Expr ⊕ Infix)}, left.inorder = a → left'.inorder = a →
          .inr op :: right.inorder = b → .inr op' :: right'.inorder = b → node op left right = node op' left' right' := by
        rintro _ _ rfl hleft rfl hright
        obtain ⟨hop, hright⟩ := List.cons.inj hright
        rw [ihl h.1 h'.1 hleft.symm, ihr h.2.1 h'.2.1 hright.symm, Sum.inr.inj hop]
      rcases List.append_eq_append_iff.1 he with ⟨between, hleft, hright⟩ | ⟨between, hleft, hright⟩
      · cases between with
        | nil => exact hsame rfl (by rw [hleft, List.append_nil]) rfl hright.symm
        | cons x between =>
          obtain ⟨rfl, htail⟩ := List.cons.inj hright
          exact (h.not_between h' hleft htail).elim
      · cases between with
        | nil => exact hsame rfl (by rw [hleft, List.append_nil]) rfl hright
        | cons x between =>
          obtain ⟨rfl, htail⟩ := List.cons.inj hright
          exact (h'.not_between h hleft htail).elim

end OpTree

/-- Tokens that are read on their own, up to the last one, as a unary or postfix expression. -/
structure Operand where
  tokens : List Token
  expr : Expr
  isRead : ∃ fuel ts, ts.map (·.token) = tokens ∧ unaryExpr parse fuel ts = .ok (expr, [])

/-- An operator and the operand behind it. -/
abbrev Link := Infix × Operand

namespace Link

def tokens (link : Link) : List Token := .punct link.1.mark :: link.2.tokens

def inorder (link : Link) : List (Expr ⊕ Infix) := [.inr link.1, .inl link.2.expr]

end Link

/-- Operands with operators between them. -/
structure Chain where
  first : Operand
  links : List Link

namespace Chain

def tokens (chain : Chain) : List Token := chain.first.tokens ++ chain.links.flatMap Link.tokens

def inorder (chain : Chain) : List (Expr ⊕ Infix) := .inl chain.first.expr :: chain.links.flatMap Link.inorder

end Chain

/-- Whether a reader of operators takes the given tokens up to the links that are left, if no operator follows. -/
def ReadsUpTo (reader : Nat → List Located → Except ParseError (Parsed Expr)) (need : Nat) (tokens : List Token)
    (left : List Link) (expr : Expr) : Prop :=
  ∀ fuel ts rest, 10 * tokens.length + need ≤ fuel → ts.map (·.token) = tokens → Stops 4 rest →
    ∃ ts', ts'.map (·.token) = left.flatMap Link.tokens ∧ reader fuel (ts ++ rest) = .ok (expr, ts' ++ rest)

/--
Whether a reader of operators that bind at least as tightly as `level`, with `start` behind it, takes from some tokens and the
links after them the links up to the first one that does not bind so, and groups them.
-/
def Climbs (reader : Nat → List Located → Except ParseError (Parsed Expr)) (need level : Nat) (tokens : List Token)
    (start : List (Expr ⊕ Infix)) (links : List Link) : Prop :=
  ∃ (tree : OpTree) (taken left : List Link), links = taken ++ left ∧ tree.Grouped ∧
    (∀ o ∈ tree.operator?, level ≤ o.precedence) ∧ tree.inorder = start ++ taken.flatMap Link.inorder ∧
    (∀ link ∈ left.head?, link.1.precedence < level) ∧
    ReadsUpTo reader need (tokens ++ links.flatMap Link.tokens) left tree.expr

section
variable {readSource : String → Except ParseError Expr} {level : Nat} {links : List Link} {link : Link} {ts rest : List Located}

theorem stops_links (hts : ts.map (·.token) = links.flatMap Link.tokens) (hrest : Stops 4 rest) : Stops 5 (ts ++ rest) := by
  cases links with
  | nil =>
    obtain rfl := List.map_eq_nil_iff.1 hts
    exact hrest.mono (by decide)
  | cons link links =>
    obtain ⟨pos, behind, rfl, -⟩ := exists_located hts
    exact stops_cons (by rw [stageOf_of_ofMark? link.1.ofMark?_mark]; decide)

theorem endsBelow_links (hts : ts.map (·.token) = links.flatMap Link.tokens) (hrest : Stops 4 rest)
    (hlinks : ∀ link ∈ links.head?, link.1.precedence < level) : EndsBelow level (ts ++ rest) := by
  cases links with
  | nil =>
    obtain rfl := List.map_eq_nil_iff.1 hts
    exact hrest.endsBelow level
  | cons link links =>
    obtain ⟨pos, behind, rfl, -⟩ := exists_located hts
    intro t ht mark hmark op hop
    cases ht
    obtain rfl := Token.punct.inj hmark
    rw [link.1.ofMark?_mark] at hop
    cases hop
    exact hlinks link rfl

/-- The first operand is read in front of the first operator. -/
theorem climbs_infixFrom {operand : Operand} (hoperand : ReadsUnary readSource operand.tokens operand.expr)
    (h : Climbs (fun fuel => infixRest readSource fuel level operand.expr) 1 level [] [.inl operand.expr] links) :
    Climbs (fun fuel => infixFrom readSource fuel level) 4 level operand.tokens [.inl operand.expr] links := by
  obtain ⟨tree, taken, left, hlinks, hgrouped, hlevel, hinorder, hleft, hread⟩ := h
  refine ⟨tree, taken, left, hlinks, hgrouped, hlevel, hinorder, hleft, fun fuel ts rest hfuel hts hrest => ?_⟩
  obtain ⟨fuel, rfl⟩ : ∃ n, fuel = n + 1 := ⟨fuel - 1, by omega⟩
  obtain ⟨front, behind, rfl, hfront, hbehind⟩ := List.map_eq_append_iff.1 hts
  rw [List.length_append] at hfuel
  obtain ⟨ts', hts', hresult⟩ := hread fuel behind rest (by rw [List.nil_append]; omega) hbehind hrest
  refine ⟨ts', hts', ?_⟩
  dsimp only
  rw [infixFrom, List.append_assoc, hoperand fuel front _ (by omega) hfront (stops_links hbehind hrest)]
  exact hresult

/-- Nothing is taken in front of an operator that does not bind tightly enough. -/
theorem climbs_nothing {tree : OpTree} (hgrouped : tree.Grouped) (hlevel : ∀ o ∈ tree.operator?, level ≤ o.precedence)
    (hlinks : ∀ link ∈ links.head?, link.1.precedence < level) :
    Climbs (fun fuel => infixRest readSource fuel level tree.expr) 1 level [] tree.inorder links := by
  refine ⟨tree, [], links, rfl, hgrouped, hlevel, (List.append_nil _).symm, hlinks, fun fuel ts rest hfuel hts hrest => ?_⟩
  obtain ⟨fuel, rfl⟩ : ∃ n, fuel = n + 1 := ⟨fuel - 1, by omega⟩
  exact ⟨ts, hts, infixRest_of_endsBelow (endsBelow_links hts hrest hlinks) fuel⟩

/-- An operator that binds tightly enough, what it takes on its right, and what comes after that. -/
theorem readsUpTo_cons {op : Infix} {operand : Operand} {left last : List Link} {a b expr : Expr}
    (hop : ¬ op.precedence < level) (hsub : left.flatMap Link.tokens <:+ links.flatMap Link.tokens)
    (hright : ReadsUpTo (fun fuel => infixFrom readSource fuel (op.precedence + 1)) 4
      (operand.tokens ++ links.flatMap Link.tokens) left b)
    (hrest : ReadsUpTo (fun fuel => infixRest readSource fuel level (op.apply a b)) 1 (left.flatMap Link.tokens) last expr) :
    ReadsUpTo (fun fuel => infixRest readSource fuel level a) 1 (((op, operand) :: links).flatMap Link.tokens) last expr := by
  intro fuel ts rest hfuel hts hstops
  rw [List.flatMap_cons, Link.tokens, List.cons_append] at hfuel hts
  rw [List.length_cons] at hfuel
  dsimp only at hfuel hts
  have hshorter := hsub.length_le
  have hlength : (operand.tokens ++ links.flatMap Link.tokens).length = _ := List.length_append
  obtain ⟨fuel, rfl⟩ : ∃ n, fuel = n + 1 := ⟨fuel - 1, by omega⟩
  obtain ⟨pos, behind, rfl, hbehind⟩ := exists_located hts
  obtain ⟨between, hbetween, hreadRight⟩ := hright fuel behind rest (by omega) hbehind hstops
  obtain ⟨ts', hts', hreadRest⟩ := hrest fuel between rest (by omega) hbetween hstops
  refine ⟨ts', hts', ?_⟩
  simp only [List.cons_append, infixRest, op.ofMark?_mark, if_neg hop, hreadRight, bind, Except.bind]
  exact hreadRest

/--
What an operator takes on its right binds more tightly than this operator, and what comes after that does not. So whatever
is grouped already binds at least as tightly as the next operator.
-/
theorem climbs_infixRest (level : Nat) (tree : OpTree) (links : List Link)
    (hoperands : ∀ link ∈ links, ReadsUnary readSource link.2.tokens link.2.expr) (hgrouped : tree.Grouped)
    (hlevel : ∀ o ∈ tree.operator?, level ≤ o.precedence)
    (hlinks : ∀ link ∈ links.head?, ∀ o ∈ tree.operator?, link.1.precedence ≤ o.precedence) :
    Climbs (fun fuel => infixRest readSource fuel level tree.expr) 1 level [] tree.inorder links := by
  induction hn : links.length using Nat.strong_induction_on generalizing links level tree with
  | h n ih =>
    subst hn
    cases links with
    | nil => exact climbs_nothing hgrouped hlevel fun link hlink => by cases hlink
    | cons link links =>
      obtain ⟨op, operand⟩ := link
      by_cases hop : op.precedence < level
      · refine climbs_nothing hgrouped hlevel fun link hlink => ?_
        cases hlink
        exact hop
      · rw [List.forall_mem_cons] at hoperands
        obtain ⟨right, taken, left, rfl, hright, hover, hinorder, hbelow, hreadRight⟩ := climbs_infixFrom hoperands.1
          (ih links.length (by simp) (op.precedence + 1) (.operand operand.expr) links hoperands.2 trivial
            (fun o ho => by cases ho) (fun _ _ o ho => by cases ho) rfl)
        have hnode : (OpTree.node op tree right).Grouped :=
          ⟨hgrouped, hright, hlinks _ rfl, fun o ho => Nat.lt_of_succ_le (hover o ho)⟩
        obtain ⟨whole, more, last, hmore, hwhole, hwholeLevel, hwholeInorder, hlast, hreadRest⟩ := ih left.length
          (by simp) level _ left (fun link hlink => hoperands.2 link (List.mem_append_right _ hlink)) hnode
          (fun o ho => by cases ho; exact Nat.le_of_not_lt hop)
          (fun link hlink o ho => by cases ho; exact Nat.le_of_lt_succ (hbelow link hlink)) rfl
        refine ⟨whole, (op, operand) :: (taken ++ more), last, by simp [hmore], hwhole, hwholeLevel, ?_, hlast, ?_⟩
        · rw [hwholeInorder, OpTree.inorder, hinorder]
          simp [Link.inorder]
        · refine readsUpTo_cons hop ?_ hreadRight hreadRest
          rw [List.flatMap_append]
          exact List.suffix_append _ _

/-- The tokens of a chain are read as its operands and operators, grouped. -/
theorem exists_readsInfix (chain : Chain) (hfirst : ReadsUnary readSource chain.first.tokens chain.first.expr)
    (hlinks : ∀ link ∈ chain.links, ReadsUnary readSource link.2.tokens link.2.expr) :
    ∃ tree : OpTree, tree.inorder = chain.inorder ∧ tree.Grouped ∧ ReadsInfix readSource 0 chain.tokens tree.expr := by
  obtain ⟨tree, taken, left, htaken, hgrouped, -, hinorder, hleft, hread⟩ := climbs_infixFrom hfirst
    (climbs_infixRest 0 (.operand chain.first.expr) chain.links hlinks trivial
      (fun o ho => by cases ho) fun _ _ o ho => by cases ho)
  obtain rfl : left = [] := by
    cases left with
    | nil => rfl
    | cons link left => exact absurd (hleft link rfl) (Nat.not_lt_zero _)
  rw [List.append_nil] at htaken
  refine ⟨tree, ?_, hgrouped, fun fuel ts rest hfuel hts hrest => ?_⟩
  · rw [hinorder, Chain.inorder, htaken]
    rfl
  · obtain ⟨ts', hts', hresult⟩ := hread fuel ts rest hfuel hts hrest
    obtain rfl := List.map_eq_nil_iff.1 hts'
    exact hresult

end

/-- An operand is read in a text as it is read on its own. -/
theorem Operand.readsUnary (operand : Operand) {source : String} {ts : List Located} (h : Expr.tokens source = .ok ts)
    (hsub : operand.tokens ⊆ ts.map (·.token)) :
    ReadsUnary (parseNested source.length) operand.tokens operand.expr := by
  obtain ⟨fuel, front, hfront, hread⟩ := operand.isRead
  rw [← hfront] at hsub ⊢
  exact readsUnary_of_unaryExpr hread ((agrees_parse h).mono hsub)

/--
A text of operands with operators between them is an expression, and groups in the only way in which an operator takes those
that bind more tightly, and on its left those that bind alike.
-/
theorem parse_chain (chain : Chain) {source : String} {ts : List Located} (h : tokens source = .ok ts)
    (hts : ts.map (·.token) = chain.tokens ++ [.eof]) :
    ∃! tree : OpTree, parse source = .ok tree.expr ∧ tree.inorder = chain.inorder ∧ tree.Grouped := by
  have hsub : chain.tokens ⊆ ts.map (·.token) := by
    rw [hts]
    exact List.subset_append_left _ _
  have hfirst := chain.first.readsUnary h (List.Subset.trans (List.subset_append_left _ _) hsub)
  have hlinks : ∀ link ∈ chain.links, ReadsUnary (parseNested source.length) link.2.tokens link.2.expr := by
    intro link hlink
    refine link.2.readsUnary h (List.Subset.trans (fun t ht => ?_) hsub)
    exact List.mem_append_right _ (List.mem_flatMap_of_mem hlink (List.mem_cons_of_mem _ ht))
  obtain ⟨tree, hinorder, hgrouped, hread⟩ := exists_readsInfix chain hfirst hlinks
  refine ⟨tree, ⟨?_, hinorder, hgrouped⟩, fun other hother => ?_⟩
  · rw [parse, parseNested, h]
    exact parseTokens_of_reads hread.sequence_of_operators hts
  · exact hother.2.2.eq_of_inorder hgrouped (hother.2.1.trans hinorder.symm)

/-- The operand of tokens whose positions do not matter. -/
def Operand.ofTokens (tokens : List Token) (expr : Expr)
    (h : unaryExpr parse (10 * tokens.length + 10) (tokens.map (Located.mk · 0)) = .ok (expr, [])) : Operand :=
  ⟨tokens, expr, _, _, by simp [Function.comp_def], h⟩

theorem parse_chain_mixed :
    ∃ chain : Chain,
      chain.inorder = [.inl (.ident "a"), .inr (.logical .nullish), .inl (.ident "b"), .inr (.binary .sub),
        .inl (.unary .neg (.member (.ident "c") "d" true)), .inr (.binary .mul),
        .inl (.template [.text "x", .hole (.ident "e")]), .inr (.binary .sub), .inl (.ident "f")] ∧
      ∃! tree : OpTree, parse "a ?? b - -c?.d * `x$\x7be\x7d` - f" = .ok tree.expr ∧ tree.inorder = chain.inorder ∧
        tree.Grouped := by
  have htokens : tokens "a ?? b - -c?.d * `x$\x7be\x7d` - f" = .ok [⟨.ident "a", 0⟩, ⟨.punct .nullish, 2⟩,
      ⟨.ident "b", 5⟩, ⟨.punct .minus, 7⟩, ⟨.punct .minus, 9⟩, ⟨.ident "c", 10⟩, ⟨.punct .optionalDot, 11⟩, ⟨.ident "d", 13⟩,
      ⟨.punct .star, 15⟩, ⟨.template [.text ['x'], .source ['e']], 17⟩, ⟨.punct .minus, 25⟩, ⟨.ident "f", 27⟩,
      ⟨.eof, 28⟩] := by cbv
  let member : List Token := [.punct .minus, .ident "c", .punct .optionalDot, .ident "d"]
  let chain : Chain := ⟨.ofTokens [.ident "a"] (.ident "a") (by rfl),
    [(.logical .nullish, .ofTokens [.ident "b"] (.ident "b") (by rfl)),
      (.binary .sub, .ofTokens member (.unary .neg (.member (.ident "c") "d" true)) (by rfl)),
      (.binary .mul, .ofTokens [.template [.text ['x'], .source ['e']]] (.template [.text "x", .hole (.ident "e")]) (by rfl)),
      (.binary .sub, .ofTokens [.ident "f"] (.ident "f") (by rfl))]⟩
  exact ⟨chain, rfl, parse_chain chain htokens rfl⟩

end ViewBinding.Expr
