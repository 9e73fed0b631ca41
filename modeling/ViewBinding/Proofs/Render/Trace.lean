import ViewBinding.Proofs.Render.Basic

/-! A pass that keeps a record of the lists it makes. Without the record it is the pass itself. -/
namespace ViewBinding

/-- A list that has been made: what its expression has yielded, and each copy with what it was bound with. -/
structure MadeList where
  expression : String
  items : List Value
  copies : List (NodeId × ItemScope)

/-- A template that a pass has come to, with the states of the pass before and after. -/
structure ListRun where
  template : NodeId
  before : Pass
  after : Pass
  /-- `none` if there was no list to be made. -/
  made : Option MadeList

namespace View

def makeCopiesTraced (v : View) (nested : NodeId → Scope → Render Unit) (template : NodeId) (scope : Scope)
    (cls : String) : List Value → Nat → NodeId → Render (List (NodeId × ItemScope))
  | [], _, _ => return []
  | item :: rest, index, anchor => do
    let copy ← v.insertCopy template anchor
    v.bindCopy nested copy (.within scope item index)
    Render.edit (·.addClass copy cls)
    modifyThe Pass fun p => { p with copies := copy :: p.copies }
    let copies ← v.makeCopiesTraced nested template scope cls rest (index + 1) copy
    return (copy, .within scope item index) :: copies

def renderListTraced (v : View) : Nat → NodeId → Scope → Render (Option MadeList)
  | 0, _, _ => return none
  | fuel + 1, template, scope => do
    let t ← Render.tree
    if !t.isConnected template then return none
    match v.listExpression? t template with
    | none => return none
    | some expression =>
      match ← iterate expression scope with
      | none => return none
      | some items =>
        let cls := v.copyClass expression
        tearDown template cls
        let copies ← v.makeCopiesTraced (v.renderListWithin fuel) template scope cls items 0 template
        Render.edit (·.setAttr template v.options.hiddenAttribute "")
        return some ⟨expression, items, copies⟩

def runList (v : View) (template : NodeId) : Render ListRun := do
  let before ← getThe Pass
  let made ← v.renderListTraced before.tree.slots.size template v.scope
  let after ← getThe Pass
  return ⟨template, before, after, made⟩

end View

namespace Render

variable {α β : Type}

/-- Forgets the result of a step. -/
def forget (x : Render α) : Render Unit := do let _ ← x

theorem exec_forget_ok {x : Render α} {p q : Pass} {a : α} (h : x.exec p = (.ok a, q)) :
    (forget x).exec p = (.ok (), q) := by
  rw [forget, exec_bind, h]
  rfl

end Render

namespace View

open Render

theorem forget_makeCopiesTraced (v : View) (nested : NodeId → Scope → Render Unit) (template : NodeId)
    (scope : Scope) (cls : String) (items : List Value) (index : Nat) (anchor : NodeId) :
    forget (v.makeCopiesTraced nested template scope cls items index anchor) =
      v.makeCopies nested template scope cls items index anchor := by
  induction items generalizing index anchor with
  | nil => simp [forget, makeCopiesTraced, makeCopies]
  | cons item items ih =>
    simp only [forget] at ih ⊢
    simp only [makeCopiesTraced, makeCopies, ← ih, bind_assoc, pure_bind]

theorem forget_renderListTraced (v : View) (fuel : Nat) (template : NodeId) (scope : Scope) :
    forget (v.renderListTraced fuel template scope) = v.renderListWithin fuel template scope := by
  cases fuel with
  | zero => simp [forget, renderListTraced, renderListWithin]
  | succ fuel =>
    have hcopies := fun cls items => v.forget_makeCopiesTraced (v.renderListWithin fuel) template scope cls items 0
    simp only [forget] at hcopies ⊢
    simp only [renderListTraced, renderListWithin, bind_assoc]
    refine bind_congr fun t => ?_
    split
    · simp
    cases v.listExpression? t template with
    | none => simp
    | some expression =>
      simp only [bind_assoc]
      refine bind_congr fun items => ?_
      cases items with
      | none => simp
      | some items => simp only [← hcopies, bind_assoc, pure_bind, bind_pure_unit]

end View

end ViewBinding
