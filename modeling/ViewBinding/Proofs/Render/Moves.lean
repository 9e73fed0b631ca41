import ViewBinding.Proofs.Expr.AssignmentFree
import ViewBinding.Proofs.Render.Basic

/-! What a pass does, step by step. It changes the document and the record of the copies, and it evaluates
expressions; so values change in a pass as its expressions have it. -/
namespace ViewBinding

namespace Pass

/-- A step of a pass. -/
inductive Move : Pass → Pass → Prop
  | change (p : Pass) (document : Document) (copies : List NodeId) :
    Move p { p with document := document, copies := copies }
  | evaluate (p : Pass) (source : String) (scope : Scope) : Move p (p.evaluated source scope)

abbrev Moves : Pass → Pass → Prop := Relation.ReflTransGen Move

end Pass

namespace Render

variable {α β : Type}

/-- A part of a pass that is made of steps. -/
def Stepwise (x : Render α) : Prop := ∀ p : Pass, p.Moves (x.exec p).2

theorem Stepwise.moves {x : Render α} (hx : Stepwise x) {p q : Pass} {result : Except Error α} (h : x.exec p = (result, q)) :
    p.Moves q := by
  have hmoves := hx p
  rwa [h] at hmoves

theorem stepwise_pure (a : α) : Stepwise (pure a : Render α) := fun _ => .refl

theorem stepwise_throw (e : Error) : Stepwise (throw e : Render α) := fun _ => .refl

theorem stepwise_view (f : Pass → α) : Stepwise (view f) := fun _ => .refl

theorem stepwise_tree : Stepwise tree := fun _ => .refl

theorem stepwise_bind {x : Render α} {f : α → Render β} (hx : Stepwise x) (hf : ∀ a, Stepwise (f a)) :
    Stepwise (x >>= f) := fun p => by
  have hfirst := hx p
  rw [exec_bind]
  rcases hrun : x.exec p with ⟨e | a, q⟩ <;> rw [hrun] at hfirst
  · exact hfirst
  · exact hfirst.trans (hf a q)

theorem stepwise_forM {xs : List α} {f : α → Render Unit} (h : ∀ x, Stepwise (f x)) : Stepwise (xs.forM f) := by
  induction xs with
  | nil => exact stepwise_pure ()
  | cons x xs ih => exact stepwise_bind (h x) fun _ => ih

theorem stepwise_editDocument (f : Document → Document) : Stepwise (editDocument f) := fun p =>
  .single (.change p (f p.document) p.copies)

theorem stepwise_edit (f : Tree → Except Tree.Error Tree) : Stepwise (edit f) := fun p => by
  rw [exec_edit]
  split
  · exact .single (.change p _ p.copies)
  · exact .refl

theorem stepwise_evaluate (source : String) (scope : Scope) : Stepwise (evaluate source scope) := fun p => by
  rw [exec_evaluate]
  exact .single (.evaluate p source scope)

theorem stepwise_evaluateOrBlank (source : String) (scope : Scope) :
    Stepwise (evaluateOrBlank source scope) := fun p => by
  rw [exec_evaluateOrBlank]
  exact .single (.evaluate p source scope)

end Render

namespace View

open Render

variable {v : View} {scope : Scope} {id : NodeId}

theorem stepwise_piped (pipe : Option String) (value : Value) : Stepwise (v.piped pipe value) := by
  unfold piped
  split
  · exact stepwise_pure _
  · refine stepwise_bind (stepwise_view _) fun input => ?_
    cases v.pipes.apply _ input with
    | error e => exact stepwise_throw e
    | ok shown => exact stepwise_pure _

theorem stepwise_bindAttribute (b : Binding) : Stepwise (v.bindAttribute scope id b) := by
  unfold bindAttribute
  split
  · exact stepwise_pure _
  · refine stepwise_bind (stepwise_evaluateOrBlank _ _) fun value => ?_
    refine stepwise_bind (stepwise_piped _ _) fun shown => ?_
    split
    · exact stepwise_edit _
    · split
      · exact stepwise_edit _
      · exact stepwise_bind (stepwise_view _) fun text => stepwise_edit _

theorem stepwise_bindContentEntry (b : Binding) : Stepwise (v.bindContentEntry scope id b) := by
  unfold bindContentEntry
  refine stepwise_bind (stepwise_evaluateOrBlank _ _) fun value => ?_
  refine stepwise_bind (stepwise_piped _ _) fun shown => ?_
  exact stepwise_bind (stepwise_view _) fun text => stepwise_edit _

theorem stepwise_bindProperty (b : Binding) : Stepwise (bindProperty scope id b) := by
  unfold bindProperty
  split
  · exact stepwise_pure _
  · refine stepwise_bind (stepwise_evaluateOrBlank _ _) fun value => ?_
    exact stepwise_bind (stepwise_view _) fun heap => stepwise_edit _

theorem stepwise_sync (ids : List NodeId) : Stepwise (v.sync scope ids) := by
  unfold sync
  refine stepwise_bind (stepwise_forM fun id => ?_) fun _ => ?_
  · exact stepwise_bind stepwise_tree fun t => stepwise_forM stepwise_bindAttribute
  refine stepwise_bind (stepwise_forM fun id => ?_) fun _ => ?_
  · exact stepwise_bind stepwise_tree fun t => stepwise_forM stepwise_bindContentEntry
  · exact stepwise_forM fun id => stepwise_bind stepwise_tree fun t => stepwise_forM stepwise_bindProperty

theorem stepwise_iterate (source : String) (scope : Scope) : Stepwise (iterate source scope) := by
  unfold iterate
  refine stepwise_bind (stepwise_evaluate _ _) fun result => ?_
  split
  · exact stepwise_view _
  · exact stepwise_pure _

theorem stepwise_dropCopy (id : NodeId) : Stepwise (dropCopy id) := by
  unfold dropCopy
  refine stepwise_bind stepwise_tree fun t => ?_
  exact stepwise_bind (fun p => .single (.change p _ _)) fun _ => stepwise_edit _

theorem stepwise_insertCopy (template anchor : NodeId) : Stepwise (v.insertCopy template anchor) := by
  unfold insertCopy
  refine stepwise_bind stepwise_tree fun t => ?_
  split
  · exact stepwise_throw _
  · refine stepwise_bind (stepwise_editDocument _) fun _ => stepwise_bind (stepwise_edit _) fun _ => ?_
    exact stepwise_bind (stepwise_edit _) fun _ => stepwise_bind (stepwise_edit _) fun _ => stepwise_pure _

theorem stepwise_bindCopy {nested : NodeId → Scope → Render Unit} (hn : ∀ template scope, Stepwise (nested template scope))
    (copy : NodeId) (item : ItemScope) : Stepwise (v.bindCopy nested copy item) := by
  refine stepwise_bind (stepwise_view _) fun found => stepwise_bind (stepwise_sync _) fun _ => ?_
  exact stepwise_bind (stepwise_editDocument _) fun _ => stepwise_forM fun template => hn _ _

theorem stepwise_makeCopies {nested : NodeId → Scope → Render Unit}
    (hn : ∀ template scope, Stepwise (nested template scope)) (template : NodeId) (cls : String)
    (items : List Value) (index : Nat) (anchor : NodeId) :
    Stepwise (v.makeCopies nested template scope cls items index anchor) := by
  induction items generalizing index anchor with
  | nil => exact stepwise_pure _
  | cons item items ih =>
    unfold makeCopies
    refine stepwise_bind (stepwise_insertCopy _ _) fun copy => ?_
    refine stepwise_bind (stepwise_bindCopy hn _ _) fun _ => stepwise_bind (stepwise_edit _) fun _ => ?_
    exact stepwise_bind (fun p => .single (.change p p.document _)) fun _ => ih _ _

theorem stepwise_renderListWithin (v : View) (fuel : Nat) (template : NodeId) (scope : Scope) :
    Stepwise (v.renderListWithin fuel template scope) := by
  induction fuel generalizing template scope with
  | zero => exact stepwise_pure _
  | succ fuel ih =>
    unfold renderListWithin
    refine stepwise_bind stepwise_tree fun t => ?_
    split
    · exact stepwise_pure _
    split
    · exact stepwise_pure _
    refine stepwise_bind (stepwise_iterate _ _) fun items => ?_
    split
    · exact stepwise_pure _
    refine stepwise_bind ?_ fun _ => stepwise_bind (stepwise_makeCopies ih _ _ _ _ _) fun _ => stepwise_edit _
    exact stepwise_bind (stepwise_view _) fun stale => stepwise_forM stepwise_dropCopy

/-- A pass is made of changes and evaluations. -/
theorem stepwise_render (v : View) : Stepwise v.render := by
  refine stepwise_forM fun root => stepwise_bind stepwise_tree fun t => ?_
  split
  · refine stepwise_bind (stepwise_view _) fun found => stepwise_bind (stepwise_sync _) fun _ => ?_
    exact stepwise_forM fun template => stepwise_bind stepwise_tree fun t => stepwise_renderListWithin v _ _ _
  · exact stepwise_pure _

end View

namespace Pass

variable {p q r : Pass}

/-- Later values: no expression is forgotten, and without assignments all that was there is as it was. -/
structure Grows (p q : Pass) : Prop where
  parsed : p.cache.parsed ⊆ q.cache.parsed
  heap : q.cache.AssignmentFree → p.heap.Extends q.heap

theorem Grows.refl (p : Pass) : p.Grows p := ⟨List.Subset.refl _, fun _ => .refl _⟩

theorem Grows.trans (h : p.Grows q) (h' : q.Grows r) : p.Grows r where
  parsed := List.Subset.trans h.parsed h'.parsed
  heap hfree := (h.heap fun entry hentry => hfree entry (h'.parsed hentry)).trans (h'.heap hfree)

theorem grows_evaluated (p : Pass) (source : String) (scope : Scope) : p.Grows (p.evaluated source scope) where
  parsed := p.cache.subset_parse source
  heap := p.cache.extends_evaluate scope p.heap

theorem Moves.grows (h : p.Moves q) : p.Grows q := by
  induction h with
  | refl => exact .refl p
  | tail _ hmove ih =>
    refine ih.trans ?_
    cases hmove with
    | change document copies => exact ⟨List.Subset.refl _, fun _ => .refl _⟩
    | evaluate source scope => exact grows_evaluated _ source scope

end Pass

end ViewBinding
