import ViewBinding.Markup.Basic
import ViewBinding.Markup.Piece

/-!
Building markup from pieces, and reading markup from a text.

Elements that are open form a stack. Some start tags end open elements, and end tags that match none are
dropped.
-/
namespace ViewBinding.Markup

/-- Start tags that end an open element, unless another element shields it. -/
structure ImpliedEnd where
  triggers : List String
  ends : String
  barriers : List String

def impliedEnds : List ImpliedEnd :=
  [⟨["li"], "li", ["ol", "ul", "menu"]⟩,
   ⟨["option", "optgroup"], "option", ["optgroup", "select", "datalist"]⟩,
   ⟨["address", "article", "aside", "blockquote", "details", "div", "dl", "fieldset", "figcaption",
     "figure", "footer", "form", "h1", "h2", "h3", "h4", "h5", "h6", "header", "hr", "main", "nav",
     "ol", "p", "pre", "section", "table", "ul"], "p", []⟩]

/-- An open element and what is in it so far, the last node first. -/
structure OpenElement where
  element : Element
  children : List Markup

/-- Open elements, the innermost first, and the finished top-level nodes, the last first. -/
structure Growth where
  stack : List OpenElement
  done : List Markup

namespace Growth

def start : Growth := ⟨[], []⟩

/-- Adds a node to the innermost open element. -/
def add (g : Growth) (m : Markup) : Growth :=
  match g.stack with
  | [] => { g with done := m :: g.done }
  | top :: rest => { g with stack := { top with children := m :: top.children } :: rest }

/-- Ends the innermost open elements. -/
def close : Nat → Growth → Growth
  | 0, g => g
  | n + 1, g =>
    match g.stack with
    | [] => g
    | top :: rest =>
      close n (add { g with stack := rest } (.element top.element top.children.reverse))

/-- How many elements end with the nearest one of a name. -/
def depthOf? (name : String) (barriers : List String) : List OpenElement → Option Nat
  | [] => none
  | top :: rest =>
    if top.element.tag = name then some 1
    else if barriers.contains top.element.tag then none
    else (depthOf? name barriers rest).map (· + 1)

def closeNearest (g : Growth) (name : String) (barriers : List String) : Growth :=
  match depthOf? name barriers g.stack with
  | some n => g.close n
  | none => g

def applyRule (name : String) (g : Growth) (rule : ImpliedEnd) : Growth :=
  if rule.triggers.contains name then g.closeNearest rule.ends rule.barriers else g

/-- Ends what the start tag `name` ends. -/
def applyImpliedEnds (g : Growth) (name : String) : Growth := impliedEnds.foldl (applyRule name) g

def step (g : Growth) : Piece → Growth
  | .text s => g.add (.text s)
  | .start tag =>
    let g := g.applyImpliedEnds tag.name
    let element := Element.new tag.name tag.attrs
    if tag.selfClosing || isVoid tag.name then g.add (.element element [])
    else { g with stack := ⟨element, []⟩ :: g.stack }
  | .raw tag body =>
    (g.applyImpliedEnds tag.name).add
      (.element (.new tag.name tag.attrs) (if body.isEmpty then [] else [.text body]))
  | .stop name => g.closeNearest name []

/-- All nodes, every open element being ended. -/
def finish (g : Growth) : List Markup := (g.close g.stack.length).done.reverse

end Growth

def forest (pieces : List Piece) : List Markup := (pieces.foldl Growth.step .start).finish

/-- Reads markup; controls start with the values that their content stands for. -/
def parse (s : String) : Except ParseError (List Markup) := do
  return seedAll (forest (← pieces s.toList))

end ViewBinding.Markup
