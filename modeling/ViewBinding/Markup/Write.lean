import ViewBinding.Markup.Basic
import ViewBinding.Markup.Reference

/-!
Markup as text. Attributes come in the order of their names, so equal texts mean equal trees.
-/
namespace ViewBinding.Markup

/-- An attribute with its value, unless that is empty. -/
def writeAttribute (name value : String) : String :=
  if value.isEmpty then " " ++ name else " " ++ name ++ "=\"" ++ escapeAttribute value ++ "\""

def startTag (e : Element) : String :=
  "<" ++ e.tag ++ String.join (e.attrs.entries.map fun (name, value) => writeAttribute name value) ++ ">"

mutual

def write : Markup → String
  | .text s => escapeText s
  | .element e children =>
    if isVoid e.tag then startTag e else startTag e ++ writeAll children ++ "</" ++ e.tag ++ ">"

def writeAll : List Markup → String
  | [] => ""
  | m :: rest => m.write ++ writeAll rest

end

end ViewBinding.Markup
