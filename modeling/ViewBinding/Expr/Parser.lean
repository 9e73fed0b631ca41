import ViewBinding.Expr.Basic
import ViewBinding.Expr.Scan

/-!
Reading expressions. `parse` reads a whole text.

The reader works on the list of tokens that are left. A bound on the depth of calls makes it total;
`parseTokens` starts with one that no list of that length uses up.
-/
namespace ViewBinding.Expr

/-- The binary and the logical operators. -/
inductive Infix where
  | binary (op : BinaryOp)
  | logical (op : LogicalOp)
  deriving Repr, DecidableEq

/-- The operator of a punctuator and how tightly it binds. -/
def Infix.ofMark? : Punctuator → Option (Infix × Nat)
  | .nullish => some (.logical .nullish, 1)
  | .or => some (.logical .or, 2)
  | .and => some (.logical .and, 3)
  | .eq => some (.binary .looseEq, 4)
  | .ne => some (.binary .looseNe, 4)
  | .strictEq => some (.binary .strictEq, 4)
  | .strictNe => some (.binary .strictNe, 4)
  | .lt => some (.binary .lt, 5)
  | .gt => some (.binary .gt, 5)
  | .le => some (.binary .le, 5)
  | .ge => some (.binary .ge, 5)
  | .plus => some (.binary .add, 6)
  | .minus => some (.binary .sub, 6)
  | .star => some (.binary .mul, 7)
  | .slash => some (.binary .div, 7)
  | .percent => some (.binary .rem, 7)
  | _ => none

def Infix.apply (left right : Expr) : Infix → Expr
  | .binary op => .binary op left right
  | .logical op => .logical op left right

/-- The operator that a token in front of an operand stands for. -/
def unaryOp? : Token → Option UnaryOp
  | .punct .not => some .not
  | .punct .minus => some .neg
  | .punct .plus => some .plus
  | .ident "typeof" => some .typeOf
  | _ => none

/-- Names of values that are no variables. -/
def ofName (name : String) : Expr :=
  match name with
  | "true" => .bool true
  | "false" => .bool false
  | "null" => .null
  | "undefined" => .undefined
  | _ => .ident name

/-- What was read, and the tokens that are left. -/
abbrev Parsed (α : Type) := α × List Located

/-- The tokens after the given mark, if it comes next. -/
def after? (mark : Punctuator) : List Located → Option (List Located)
  | ⟨.punct found, _⟩ :: rest => if found = mark then some rest else none
  | _ => none

def positionOf : List Located → Nat
  | t :: _ => t.pos
  | [] => 0

def expectMark (mark : Punctuator) (ts : List Located) : Except ParseError (List Located) :=
  match after? mark ts with
  | some rest => .ok rest
  | none => .error (.expectedMark mark (positionOf ts))

def propertyName (ts : List Located) : Except ParseError (Parsed String) :=
  match ts with
  | ⟨.ident name, _⟩ :: rest => .ok (name, rest)
  | _ => .error (.expectedProperty (positionOf ts))

def objectKey (ts : List Located) : Except ParseError (Parsed String) :=
  match ts with
  | ⟨.ident name, _⟩ :: rest => .ok (name, rest)
  | ⟨.string text, _⟩ :: rest => .ok (text, rest)
  | ⟨.number value, _⟩ :: rest => .ok (Number.text value, rest)
  | _ => .error (.expectedKey (positionOf ts))

section
variable (readSource : String → Except ParseError Expr)

/-- The segments of a template, the sources of its holes being read. -/
def templateSegments : List TemplatePart → Except ParseError (List TemplateSegment)
  | [] => .ok []
  | .text text :: parts => do
    let rest ← templateSegments parts
    return .text (String.ofList text) :: rest
  | .source source :: parts => do
    let expr ← readSource (String.ofList source)
    let rest ← templateSegments parts
    return .hole expr :: rest

mutual

/-- Items between commas; a single one stands for itself. -/
def sequenceExpr : Nat → List Located → Except ParseError (Parsed Expr)
  | 0, _ => .error .nestingBound
  | fuel + 1, ts => do
    let (first, ts) ← assignmentExpr fuel ts
    let (more, ts) ← commaItems fuel ts
    return (if more.isEmpty then first else .sequence (first :: more), ts)

def commaItems : Nat → List Located → Except ParseError (Parsed (List Expr))
  | 0, _ => .error .nestingBound
  | fuel + 1, ts =>
    match after? .comma ts with
    | none => .ok ([], ts)
    | some ts => do
      let (item, ts) ← assignmentExpr fuel ts
      let (more, ts) ← commaItems fuel ts
      return (item :: more, ts)

def assignmentExpr : Nat → List Located → Except ParseError (Parsed Expr)
  | 0, _ => .error .nestingBound
  | fuel + 1, ts => do
    let (target, ts) ← conditionalExpr fuel ts
    match after? .assign ts with
    | none => return (target, ts)
    | some ts =>
      if target.isTarget then
        let (value, ts) ← assignmentExpr fuel ts
        return (.assign target value, ts)
      else throw .invalidTarget

def conditionalExpr : Nat → List Located → Except ParseError (Parsed Expr)
  | 0, _ => .error .nestingBound
  | fuel + 1, ts => do
    let (test, ts) ← infixFrom fuel 0 ts
    match after? .question ts with
    | none => return (test, ts)
    | some ts =>
      let (consequent, ts) ← assignmentExpr fuel ts
      let ts ← expectMark .colon ts
      let (alternate, ts) ← assignmentExpr fuel ts
      return (.conditional test consequent alternate, ts)

/-- An operand and the operators after it that bind at least as tightly as `level`. -/
def infixFrom : Nat → Nat → List Located → Except ParseError (Parsed Expr)
  | 0, _, _ => .error .nestingBound
  | fuel + 1, level, ts => do
    let (left, ts) ← unaryExpr fuel ts
    infixRest fuel level left ts

def infixRest : Nat → Nat → Expr → List Located → Except ParseError (Parsed Expr)
  | 0, _, _, _ => .error .nestingBound
  | fuel + 1, level, left, ts =>
    match ts with
    | ⟨.punct mark, _⟩ :: rest =>
      match Infix.ofMark? mark with
      | some (op, tightness) =>
        if tightness < level then .ok (left, ts)
        else do
          let (right, ts) ← infixFrom fuel (tightness + 1) rest
          infixRest fuel level (op.apply left right) ts
      | none => .ok (left, ts)
    | _ => .ok (left, ts)

def unaryExpr : Nat → List Located → Except ParseError (Parsed Expr)
  | 0, _ => .error .nestingBound
  | fuel + 1, ts =>
    match ts with
    | ⟨token, _⟩ :: rest =>
      match unaryOp? token with
      | some op => do
        let (operand, ts) ← unaryExpr fuel rest
        return (.unary op operand, ts)
      | none => postfixExpr fuel ts
    | [] => postfixExpr fuel ts

def postfixExpr : Nat → List Located → Except ParseError (Parsed Expr)
  | 0, _ => .error .nestingBound
  | fuel + 1, ts => do
    let (expr, ts) ← primaryExpr fuel ts
    accesses fuel expr ts

/-- The accesses and calls that follow an expression. -/
def accesses : Nat → Expr → List Located → Except ParseError (Parsed Expr)
  | 0, _, _ => .error .nestingBound
  | fuel + 1, expr, ts =>
    match ts with
    | ⟨.punct .dot, _⟩ :: ts => do
      let (property, ts) ← propertyName ts
      accesses fuel (.member expr property false) ts
    | ⟨.punct .optionalDot, _⟩ :: ⟨.punct .lbracket, _⟩ :: ts => do
      let (key, ts) ← bracketed fuel ts
      accesses fuel (.index expr key true) ts
    | ⟨.punct .optionalDot, _⟩ :: ⟨.punct .lparen, _⟩ :: ts => do
      let (args, ts) ← items fuel .rparen ts
      accesses fuel (.call expr args true) ts
    | ⟨.punct .optionalDot, _⟩ :: ts => do
      let (property, ts) ← propertyName ts
      accesses fuel (.member expr property true) ts
    | ⟨.punct .lbracket, _⟩ :: ts => do
      let (key, ts) ← bracketed fuel ts
      accesses fuel (.index expr key false) ts
    | ⟨.punct .lparen, _⟩ :: ts => do
      let (args, ts) ← items fuel .rparen ts
      accesses fuel (.call expr args false) ts
    | _ => .ok (expr, ts)

/-- A key after its opening bracket. -/
def bracketed : Nat → List Located → Except ParseError (Parsed Expr)
  | 0, _ => .error .nestingBound
  | fuel + 1, ts => do
    let (key, ts) ← assignmentExpr fuel ts
    let ts ← expectMark .rbracket ts
    return (key, ts)

/-- Items up to a closing mark; a comma may stand behind the last one. -/
def items : Nat → Punctuator → List Located → Except ParseError (Parsed (List Expr))
  | 0, _, _ => .error .nestingBound
  | fuel + 1, close, ts =>
    match after? close ts with
    | some ts => .ok ([], ts)
    | none => do
      let (item, ts) ← assignmentExpr fuel ts
      match after? .comma ts with
      | some ts =>
        let (more, ts) ← items fuel close ts
        return (item :: more, ts)
      | none =>
        let ts ← expectMark close ts
        return ([item], ts)

/-- Entries of an object; a key without a value stands for the variable of its name. -/
def entries : Nat → List Located → Except ParseError (Parsed (List (String × Expr)))
  | 0, _ => .error .nestingBound
  | fuel + 1, ts =>
    match after? .rbrace ts with
    | some ts => .ok ([], ts)
    | none => do
      let (key, ts) ← objectKey ts
      let (value, ts) ← entryValue fuel key ts
      match after? .comma ts with
      | some ts =>
        let (more, ts) ← entries fuel ts
        return ((key, value) :: more, ts)
      | none =>
        let ts ← expectMark .rbrace ts
        return ([(key, value)], ts)

def entryValue : Nat → String → List Located → Except ParseError (Parsed Expr)
  | 0, _, _ => .error .nestingBound
  | fuel + 1, key, ts =>
    match after? .colon ts with
    | some ts => assignmentExpr fuel ts
    | none => .ok (.ident key, ts)

def primaryExpr : Nat → List Located → Except ParseError (Parsed Expr)
  | 0, _ => .error .nestingBound
  | fuel + 1, ts =>
    match ts with
    | ⟨.number value, _⟩ :: ts => .ok (.number value, ts)
    | ⟨.string value, _⟩ :: ts => .ok (.string value, ts)
    | ⟨.template parts, _⟩ :: ts => do
      let segments ← templateSegments readSource parts
      return (.template segments, ts)
    | ⟨.ident name, _⟩ :: ts => .ok (ofName name, ts)
    | ⟨.punct .lparen, _⟩ :: ts => do
      let (inner, ts) ← sequenceExpr fuel ts
      let ts ← expectMark .rparen ts
      return (inner, ts)
    | ⟨.punct .lbracket, _⟩ :: ts => do
      let (values, ts) ← items fuel .rbracket ts
      return (.array values, ts)
    | ⟨.punct .lbrace, _⟩ :: ts => do
      let (pairs, ts) ← entries fuel ts
      return (.object pairs, ts)
    | t :: _ => .error (.unexpected t)
    | [] => .error .unexpectedEnd

end

/-- Reads all tokens up to the end as one expression. -/
def parseTokens (ts : List Located) : Except ParseError Expr := do
  let (expr, rest) ← sequenceExpr readSource (10 * ts.length + 10) ts
  match rest with
  | ⟨.eof, _⟩ :: _ => return expr
  | t :: _ => throw (.unexpected t)
  | [] => return expr

end

/-- Reads a text whose templates are nested less than `depth` deep. -/
def parseNested : Nat → String → Except ParseError Expr
  | 0, _ => .error .nestingBound
  | depth + 1, source => do parseTokens (parseNested depth) (← tokens source)

/-- Reads a complete expression. A substitution is shorter than the text around it. -/
def parse (source : String) : Except ParseError Expr :=
  parseNested (source.length + 1) source

end ViewBinding.Expr
