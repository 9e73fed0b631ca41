import ViewBinding.Error
import ViewBinding.Expr.Eval
import ViewBinding.Expr.Parser

/-!
Evaluating the source of an expression: reading it and computing its value in a scope.

A view model evaluates the same sources over and over, so it keeps the expressions that it has read.
-/
namespace ViewBinding

/-- The value of an expression that has been read, or the error of its source. -/
def evaluateRead (expr : Except Expr.ParseError Expr) (scope : Scope) (h : Heap) :
    Except Error Value × Heap :=
  match expr with
  | .error e => (.error (.expressionParse e), h)
  | .ok expr =>
    match (expr.eval scope).runIn h with
    | (result, h) => (liftError .expressionRuntime result, h)

/-- The value of a source and the heap afterwards, which keeps what was written before a failure. -/
def evaluate (source : String) (scope : Scope) (h : Heap) : Except Error Value × Heap :=
  evaluateRead (Expr.parse source) scope h

/-- The value of a source that sees no variables. -/
def literal (source : String) (h : Heap) : Except Error Value × Heap := evaluate source .empty h

/-- Expressions by their sources. A source that cannot be read is not kept. -/
structure ExprCache where
  parsed : List (String × Expr)
  correct : ∀ entry ∈ parsed, Expr.parse entry.1 = .ok entry.2

namespace ExprCache

def empty : ExprCache := ⟨[], fun _ h => absurd h List.not_mem_nil⟩

/-- Keeps an expression with its source. -/
def insert (c : ExprCache) (source : String) (expr : Expr) (h : Expr.parse source = .ok expr) : ExprCache :=
  ⟨(source, expr) :: c.parsed, fun entry hentry => by
    rcases List.mem_cons.1 hentry with rfl | hentry
    · exact h
    · exact c.correct entry hentry⟩

/-- Reads a source unless that has been done before. -/
def parse (c : ExprCache) (source : String) : Except Expr.ParseError Expr × ExprCache :=
  match c.parsed.lookup source with
  | some expr => (.ok expr, c)
  | none =>
    match h : Expr.parse source with
    | .ok expr => (.ok expr, c.insert source expr h)
    | .error e => (.error e, c)

/-- As `evaluate`, with the expressions that have been read before. -/
def evaluate (c : ExprCache) (source : String) (scope : Scope) (h : Heap) :
    (Except Error Value × Heap) × ExprCache :=
  match c.parse source with
  | (expr, c) => (evaluateRead expr scope h, c)

/-- What has been read before is what would be read again. -/
theorem fst_parse (c : ExprCache) (source : String) : (c.parse source).1 = Expr.parse source := by
  unfold parse
  cases hlookup : c.parsed.lookup source with
  | some expr =>
    obtain ⟨front, behind, heq, -⟩ := List.lookup_eq_some_iff.1 hlookup
    exact (c.correct (source, expr) (by simp [heq])).symm
  | none =>
    simp only
    split <;> next h => exact h.symm

theorem evaluate_eq (c : ExprCache) (source : String) (scope : Scope) (h : Heap) :
    c.evaluate source scope h = (ViewBinding.evaluate source scope h, (c.parse source).2) := by
  rw [ViewBinding.evaluate, ← c.fst_parse source]
  rfl

end ExprCache

end ViewBinding
