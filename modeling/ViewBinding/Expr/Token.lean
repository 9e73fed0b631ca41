import ViewBinding.Number.Decimal
import ViewBinding.Text.Quoted

/-!
Tokens of expressions, and the ways in which a text fails to be an expression.
-/
namespace ViewBinding

inductive Punctuator where
  | lparen | rparen | lbracket | rbracket | lbrace | rbrace
  | comma | dot | optionalDot | question | colon
  | not | plus | minus | star | slash | percent
  | lt | gt | le | ge | eq | ne | strictEq | strictNe
  | and | or | nullish | assign
  deriving Repr, DecidableEq

def Punctuator.text : Punctuator → String
  | .lparen => "("
  | .rparen => ")"
  | .lbracket => "["
  | .rbracket => "]"
  | .lbrace => "\x7b"
  | .rbrace => "\x7d"
  | .comma => ","
  | .dot => "."
  | .optionalDot => "?."
  | .question => "?"
  | .colon => ":"
  | .not => "!"
  | .plus => "+"
  | .minus => "-"
  | .star => "*"
  | .slash => "/"
  | .percent => "%"
  | .lt => "<"
  | .gt => ">"
  | .le => "<="
  | .ge => ">="
  | .eq => "=="
  | .ne => "!="
  | .strictEq => "==="
  | .strictNe => "!=="
  | .and => "&&"
  | .or => "||"
  | .nullish => "??"
  | .assign => "="

/-- A part of a template: text with its escapes resolved, or the source of a substitution. -/
inductive TemplatePart where
  | text (text : List Char)
  | source (text : List Char)
  deriving Repr, DecidableEq

inductive Token where
  | number (value : Float)
  | string (value : String)
  | template (parts : List TemplatePart)
  | ident (name : String)
  | punct (mark : Punctuator)
  | eof

/-- A token and the byte at which it starts. -/
structure Located where
  token : Token
  pos : Nat

def TemplatePart.shown : TemplatePart → String
  | .text cs => "Text(" ++ Text.quoted (String.ofList cs) ++ ")"
  | .source cs => "Expr(" ++ Text.quoted (String.ofList cs) ++ ")"

/-- How messages show a token. -/
def Token.shown : Token → String
  | .number value => "Number(" ++ Number.literalText value ++ ")"
  | .string value => "Str(" ++ Text.quoted value ++ ")"
  | .template parts => "Template([" ++ ", ".intercalate (parts.map TemplatePart.shown) ++ "])"
  | .ident name => "Ident(" ++ Text.quoted name ++ ")"
  | .punct mark => mark.text
  | .eof => "Eof"

namespace Expr

/-- Why a text is no expression. Positions count bytes. -/
inductive ParseError where
  | unexpectedCharacter (c : Char) (pos : Nat)
  | unterminatedString (pos : Nat)
  | unterminatedTemplate (pos : Nat)
  | unterminatedSubstitution (pos : Nat)
  | danglingEscape (pos : Nat)
  | invalidHexEscape (pos : Nat)
  | invalidUnicodeEscape (pos : Nat)
  | invalidCodePoint (pos : Nat)
  | invalidHexLiteral (pos : Nat)
  | invalidNumber (pos : Nat)
  | identifierAfterNumber (pos : Nat)
  | unexpectedEnd
  | unexpectedToken (token : Token) (pos : Nat)
  | expectedMark (mark : Punctuator) (pos : Nat)
  | expectedProperty (pos : Nat)
  | expectedKey (pos : Nat)
  | invalidTarget
  /-- The bound on nesting is reached; the bound that a parse starts with never is. -/
  | nestingBound
  /-- A failure that an application reports in its own words. -/
  | described (text : String)

def ParseError.message : ParseError → String
  | .unexpectedCharacter c pos => s!"unexpected character '{c}' at {pos}"
  | .unterminatedString pos => s!"unterminated string literal at {pos}"
  | .unterminatedTemplate pos => s!"unterminated template literal at {pos}"
  | .unterminatedSubstitution pos => s!"unterminated template substitution at {pos}"
  | .danglingEscape pos => s!"dangling escape at {pos}"
  | .invalidHexEscape pos => s!"invalid hex escape at {pos}"
  | .invalidUnicodeEscape pos => s!"invalid unicode escape at {pos}"
  | .invalidCodePoint pos => s!"invalid code point escape at {pos}"
  | .invalidHexLiteral pos => s!"invalid hex literal at {pos}"
  | .invalidNumber pos => s!"invalid number literal at {pos}"
  | .identifierAfterNumber pos => s!"identifier directly after number at {pos}"
  | .unexpectedEnd => "unexpected end of expression"
  | .unexpectedToken (.punct mark) pos => s!"unexpected '{mark.text}' at {pos}"
  | .unexpectedToken token pos => s!"unexpected token {token.shown} at {pos}"
  | .expectedMark mark pos => s!"expected '{mark.text}' at {pos}"
  | .expectedProperty pos => s!"expected property name at {pos}"
  | .expectedKey pos => s!"expected object key at {pos}"
  | .invalidTarget => "assignment target must be a property or index access"
  | .nestingBound => "expression is nested too deeply"
  | .described text => text

/-- The error of a token where no expression can start or go on. -/
def ParseError.unexpected (t : Located) : ParseError :=
  match t.token with
  | .eof => .unexpectedEnd
  | token => .unexpectedToken token t.pos

end Expr

end ViewBinding
