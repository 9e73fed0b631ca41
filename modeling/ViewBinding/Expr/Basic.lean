/-!
Expressions of binding attributes. Parentheses leave no trace in them.
-/
namespace ViewBinding

inductive UnaryOp where
  | not | neg | plus | typeOf
  deriving Repr, DecidableEq

inductive BinaryOp where
  | add | sub | mul | div | rem
  | lt | gt | le | ge
  | looseEq | looseNe | strictEq | strictNe
  deriving Repr, DecidableEq

inductive LogicalOp where
  | and | or | nullish
  deriving Repr, DecidableEq

mutual

inductive Expr where
  | number (value : Float)
  | string (value : String)
  | bool (value : Bool)
  | null
  | undefined
  | ident (name : String)
  | template (segments : List TemplateSegment)
  | array (items : List Expr)
  | object (entries : List (String × Expr))
  | member (object : Expr) (property : String) (optional : Bool)
  | index (object : Expr) (key : Expr) (optional : Bool)
  | call (callee : Expr) (args : List Expr) (optional : Bool)
  | unary (op : UnaryOp) (operand : Expr)
  | binary (op : BinaryOp) (left right : Expr)
  | logical (op : LogicalOp) (left right : Expr)
  | conditional (test consequent alternate : Expr)
  | assign (target value : Expr)
  /-- Evaluates every item and yields the last. -/
  | sequence (items : List Expr)

inductive TemplateSegment where
  | text (text : String)
  | hole (expr : Expr)

end

instance : Inhabited Expr := ⟨.undefined⟩

/-- Only property and index accesses can be assigned to. -/
def Expr.isTarget : Expr → Bool
  | .member .. | .index .. => true
  | _ => false

end ViewBinding
