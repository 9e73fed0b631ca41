/-!
Selectors: comma-separated groups of compounds that are linked by combinators.
-/
namespace ViewBinding.Selector

inductive AttributeOp where
  | equals | startsWith | endsWith | contains | word
  deriving Repr, DecidableEq

/-- A test of an attribute; without an expected value it asks whether the attribute is there. -/
structure AttributeTest where
  name : String
  expected : Option (AttributeOp × String)
  deriving Repr, DecidableEq

inductive State where
  | firstChild | lastChild | checked | disabled | enabled
  deriving Repr, DecidableEq

/-- Tests of a single element. -/
structure Compound where
  tag : Option String
  id : Option String
  classes : List String
  attributes : List AttributeTest
  states : List State
  deriving Repr, DecidableEq

inductive Combinator where
  | descendant | child | adjacent | sibling
  deriving Repr, DecidableEq

/--
The compound that the selected element meets, and the compounds to its left, the nearest first. Each comes
with the combinator between it and the compound on its right.
-/
structure Complex where
  subject : Compound
  chain : List (Combinator × Compound)
  deriving Repr, DecidableEq

end ViewBinding.Selector

namespace ViewBinding

/-- An element is selected if it meets one of the groups. -/
structure Selector where
  groups : List Selector.Complex
  deriving Repr, DecidableEq

end ViewBinding
