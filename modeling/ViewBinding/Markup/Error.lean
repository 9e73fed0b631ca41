/-!
The ways in which a text fails to be markup.
-/
namespace ViewBinding.Markup

inductive ParseError where
  | unclosedComment
  | unclosedDeclaration
  | unclosedElement (name : String)
  | unclosedStartTag (name : String)
  | unclosedEndTag (name : String)
  | unclosedValue
  | missingValue
  /-- A failure that an application reports in its own words. -/
  | described (text : String)
  deriving Repr, DecidableEq

def ParseError.message : ParseError → String
  | .unclosedComment => "unclosed HTML comment"
  | .unclosedDeclaration => "unclosed declaration tag"
  | .unclosedElement name => s!"unclosed <{name}>"
  | .unclosedStartTag name => s!"unclosed start tag <{name}>"
  | .unclosedEndTag name => s!"unclosed end tag </{name}"
  | .unclosedValue => "unclosed quoted attribute value"
  | .missingValue => "missing attribute value"
  | .described text => text

end ViewBinding.Markup
