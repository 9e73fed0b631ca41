import ViewBinding.Binding.Basic
import ViewBinding.Expr.Token
import ViewBinding.Markup.Error
import ViewBinding.Tree.Error
import ViewBinding.Value.Error

/-!
All failures of the library, by kind and cause, with one wording for each.
-/
namespace ViewBinding

inductive Error where
  | htmlParse (cause : Markup.ParseError)
  | expressionParse (cause : Expr.ParseError)
  | expressionRuntime (cause : EvalError)
  | bindingSyntax (cause : Binding.SyntaxError)
  | unknownPipe (name : String)
  | handlerNotImplemented (handler : String)
  | selectorNotFound (selector : String)
  | unsupportedSelector (selector : String)
  | invalidTree (cause : Tree.Error)
  | typeMismatch (selector expected actual : String)
  | assertionFailed (selector expected actual snippet : String)

def Error.message : Error → String
  | .htmlParse cause => "html parse error: " ++ cause.message
  | .expressionParse cause => "expression parse error: " ++ cause.message
  | .expressionRuntime cause => "expression runtime error: " ++ cause.message
  | .bindingSyntax cause => "binding syntax error: " ++ cause.message
  | .unknownPipe name => "no pipe registered under name: " ++ name
  | .handlerNotImplemented handler => "event handler not implemented: " ++ handler
  | .selectorNotFound selector => "selector not found: " ++ selector
  | .unsupportedSelector selector => "unsupported selector: " ++ selector
  | .invalidTree cause => "invalid tree operation: " ++ cause.message
  | .typeMismatch selector expected actual =>
    s!"type mismatch for {selector}: expected {expected}, actual {actual}"
  | .assertionFailed selector expected actual snippet =>
    s!"assertion failed for {selector}: expected {expected}, actual {actual}, snippet {snippet}"

/-- Carries a result over to the errors of the library. -/
def liftError {ε α : Type} (wrap : ε → Error) : Except ε α → Except Error α
  | .ok a => .ok a
  | .error e => .error (wrap e)

end ViewBinding
