import ViewBinding.Binding.Split
import ViewBinding.Text.Class

/-!
The entries of binding attributes.

A binding attribute of a view model holds entries between commas, and an entry fields between double
colons. A malformed entry is an error of its own and does not hide the others.
-/
namespace ViewBinding

inductive BindingKind where
  | attr | content | value | event | foreach
  deriving Repr, DecidableEq

namespace BindingKind

def suffix : BindingKind → String
  | .attr => "attr-bind"
  | .content => "content-bind"
  | .value => "js-bind"
  | .event => "event-bind"
  | .foreach => "foreach"

/-- The attribute that carries the bindings of a kind for the view model `name`. -/
def attributeName (kind : BindingKind) (name : String) : String := name ++ "-" ++ kind.suffix

/-- The form of an entry, as messages show it. -/
def grammar : BindingKind → String
  | .attr => "attribute::expression[::pipe]"
  | .content => "expression[::pipe]"
  | .value => "property::expression"
  | .event => "event::handler[(argument)]"
  | .foreach => "expression"

end BindingKind

/-- An entry. The target is the name of an attribute, a property or an event. -/
structure Binding where
  kind : BindingKind
  target : Option String
  expression : String
  pipe : Option String
  deriving Repr, DecidableEq

namespace Binding

inductive SyntaxError where
  | empty (kind : BindingKind)
  | malformed (kind : BindingKind) (entry : String)
  | invalidHandler (text : String)
  | unnamedModel
  | reservedName
  /-- A failure that an application reports in its own words. -/
  | described (text : String)
  deriving Repr, DecidableEq

def codeQuoted (s : String) : String := "\x60" ++ s ++ "\x60"

def SyntaxError.message : SyntaxError → String
  | .empty kind => "empty " ++ kind.suffix ++ " binding"
  | .malformed kind entry =>
    "expected " ++ codeQuoted kind.grammar ++ " in " ++ kind.suffix ++ " binding " ++ codeQuoted entry
  | .invalidHandler text => "invalid event handler " ++ codeQuoted text
  | .unnamedModel => "view model name is empty"
  | .reservedName => codeQuoted "$vm.name" ++ " is reserved for the view model name"
  | .described text => text

/-- The fields of an entry, trimmed and without escapes. -/
def fields (entry : List Char) : List (List Char) :=
  (splitTopLevel [':', ':'] entry).map fun field => unescape (Text.trim field)

/-- Which field is the target, which the expression and which the pipe. -/
def ofFields? (kind : BindingKind) (fields : List String) : Option Binding :=
  match kind, fields with
  | .content, [expression] => some ⟨kind, none, expression, none⟩
  | .content, [expression, pipe] => some ⟨kind, none, expression, some pipe⟩
  | .attr, [target, expression] => some ⟨kind, some target, expression, none⟩
  | .attr, [target, expression, pipe] => some ⟨kind, some target, expression, some pipe⟩
  | .value, [target, expression] => some ⟨kind, some target, expression, none⟩
  | .event, [target, expression] => some ⟨kind, some target, expression, none⟩
  | _, _ => none

def parseEntry (kind : BindingKind) (entry : List Char) : Except SyntaxError Binding :=
  let fields := fields entry
  let binding := if fields.any (·.isEmpty) then none else ofFields? kind (fields.map String.ofList)
  match binding with
  | some binding => .ok binding
  | none => .error (.malformed kind (String.ofList (Text.trim entry)))

/-- The entries of an attribute. Content and lists have a single one. -/
def parseAll (kind : BindingKind) (raw : String) : List (Except SyntaxError Binding) :=
  match kind with
  | .content => [parseEntry kind raw.toList]
  | .foreach =>
    let expression := trimmed raw
    [if expression.isEmpty then .error (.empty kind) else .ok ⟨kind, none, expression, none⟩]
  | _ =>
    ((splitTopLevel [','] raw.toList).filter fun entry => !(Text.trim entry).isEmpty).map
      (parseEntry kind)

/-- A handler and the source of its argument. -/
structure HandlerCall where
  name : String
  argument : Option String
  deriving Repr, DecidableEq

def isNameStart (c : Char) : Bool := Text.isAsciiLetter c || c == '_' || c == '$'

def isNameContinue (c : Char) : Bool := Text.isWord c || c == '$'

/-- What stands between a parenthesis at the start and one at the end. -/
def parenthesized? : List Char → Option (List Char)
  | '(' :: rest => if rest.getLast? = some ')' then some rest.dropLast else none
  | _ => none

/-- A name and maybe an argument in parentheses; blank parentheses hold no argument. -/
def handlerCall? (text : List Char) : Option HandlerCall :=
  match Text.trim text with
  | [] => none
  | c :: rest =>
    if isNameStart c then
      let name := String.ofList (c :: rest.takeWhile isNameContinue)
      let rest := Text.trimStart Text.isBlank (rest.dropWhile isNameContinue)
      if rest.isEmpty then some ⟨name, none⟩
      else
        (parenthesized? rest).map fun inner =>
          let argument := Text.trim inner
          ⟨name, if argument.isEmpty then none else some (String.ofList argument)⟩
    else none

def handlerCall (expression : String) : Except SyntaxError HandlerCall :=
  match handlerCall? expression.toList with
  | some call => .ok call
  | none => .error (.invalidHandler (trimmed expression))

def isClassChar (c : Char) : Bool := Text.isAsciiWord c || c == '_' || c == '-'

/-- Each run of characters that a class cannot hold becomes one hyphen; `inRun` says that one goes on. -/
def hyphenate : Bool → List Char → List Char
  | _, [] => []
  | inRun, c :: rest =>
    if isClassChar c then c :: hyphenate false rest
    else if inRun then hyphenate true rest
    else '-' :: hyphenate true rest

/-- An expression as a part of a class name, without hyphens at its ends. -/
def classSafe (expression : String) : String :=
  String.ofList (Text.trimBy (· == '-') (hyphenate false expression.toList))

end Binding

end ViewBinding
