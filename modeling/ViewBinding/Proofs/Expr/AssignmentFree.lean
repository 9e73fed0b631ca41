import ViewBinding.Evaluation
import ViewBinding.Proofs.Expr.Run
import ViewBinding.Proofs.Value.Heap

/-! Expressions without assignments. They make arrays and objects but write to none that was there before. -/
namespace ViewBinding

namespace Eval

variable {α β : Type}

/-- Whether an evaluation leaves everything as it was that is in the heap already. -/
def Extends (x : Eval α) : Prop := ∀ h : Heap, h.Extends (x.runIn h).2

theorem extends_pure (a : α) : Extends (pure a : Eval α) := fun h => .refl h

theorem extends_throw (e : EvalError) : Extends (throw e : Eval α) := fun h => .refl h

theorem extends_view (f : Heap → α) : Extends (view f) := fun h => .refl h

theorem extends_ofExcept (x : Except EvalError α) : Extends (liftM x : Eval α) := fun h => by
  rw [runIn_ofExcept]
  exact .refl h

theorem extends_newArray (items : List Value) : Extends (newArray items) := fun h => .newArray h items

theorem extends_newObject (entries : List (String × Value)) : Extends (newObject entries) := fun h =>
  .newObject h entries

theorem extends_bind {x : Eval α} {f : α → Eval β} (hx : Extends x) (hf : ∀ a, Extends (f a)) :
    Extends (x >>= f) := fun h => by
  have hfirst := hx h
  rw [runIn_bind]
  rcases hrun : x.runIn h with ⟨e | a, h'⟩ <;> rw [hrun] at hfirst
  · exact hfirst
  · exact hfirst.trans (hf a h')

end Eval

namespace Builtin

open Eval

theorem extends_stringMethod (s method : String) (args : List Value) : Extends (stringMethod s method args) := by
  unfold stringMethod
  refine extends_bind (extends_view _) fun found => ?_
  cases found with
  | some v => exact extends_pure v
  | none =>
    dsimp only
    split
    · exact extends_bind (extends_view _) fun count => extends_ofExcept _
    · exact extends_bind (extends_view _) fun form => extends_ofExcept _
    · exact extends_bind (extends_view _) fun pieces => extends_newArray _
    · exact extends_throw _

theorem extends_arrayMethod (r : ArrayRef) (method : String) (args : List Value) :
    Extends (arrayMethod r method args) := by
  unfold arrayMethod
  refine extends_bind (extends_view _) fun h => ?_
  dsimp only
  split
  · exact extends_pure _
  · split <;> exact extends_pure _
  · exact extends_pure _
  · exact extends_newArray _
  · exact extends_pure _
  · exact extends_newArray _
  · exact extends_pure _
  · exact extends_throw _

theorem extends_numberMethod (x : Float) (method : String) (args : List Value) :
    Extends (numberMethod x method args) := by
  unfold numberMethod
  split
  · exact extends_bind (extends_view _) fun places => extends_ofExcept _
  · split
    · exact extends_ofExcept _
    · exact extends_bind (extends_view _) fun base => extends_ofExcept _
  · exact extends_throw _

theorem extends_callMethod (receiver : Value) (method : String) (args : List Value) :
    Extends (callMethod receiver method args) := by
  unfold callMethod
  split
  · exact extends_stringMethod _ _ _
  · exact extends_arrayMethod _ _ _
  · exact extends_numberMethod _ _ _
  · split
    · exact extends_pure _
    · exact extends_throw _
  · exact extends_throw _

theorem extends_callNamespace (name method : String) (args : List Value) :
    Extends (callNamespace name method args) := by
  unfold callNamespace
  refine extends_bind (extends_view _) fun h => ?_
  dsimp only
  split
  · exact extends_pure _
  · exact extends_newArray _
  · exact extends_newArray _
  · split
    · exact extends_pure _
    · exact extends_throw _

theorem extends_callFunction (name : String) (args : List Value) : Extends (callFunction name args) := by
  unfold callFunction
  refine extends_bind (extends_view _) fun h => ?_
  split <;> first | exact extends_pure _ | exact extends_throw _

end Builtin

namespace Expr

mutual

/-- Whether no assignment occurs in an expression. -/
def assignmentFree : Expr → Bool
  | .number _ | .string _ | .bool _ | .null | .undefined | .ident _ => true
  | .template segments => assignmentFreeSegments segments
  | .array items => assignmentFreeAll items
  | .object entries => assignmentFreeEntries entries
  | .member owner _ _ => assignmentFree owner
  | .index owner key _ => assignmentFree owner && assignmentFree key
  | .call callee args _ => assignmentFree callee && assignmentFreeAll args
  | .unary _ operand => assignmentFree operand
  | .binary _ left right => assignmentFree left && assignmentFree right
  | .logical _ left right => assignmentFree left && assignmentFree right
  | .conditional test consequent alternate =>
    assignmentFree test && assignmentFree consequent && assignmentFree alternate
  | .assign _ _ => false
  | .sequence items => assignmentFreeAll items

def assignmentFreeAll : List Expr → Bool
  | [] => true
  | item :: rest => assignmentFree item && assignmentFreeAll rest

def assignmentFreeEntries : List (String × Expr) → Bool
  | [] => true
  | (_, value) :: rest => assignmentFree value && assignmentFreeEntries rest

def assignmentFreeSegments : List TemplateSegment → Bool
  | [] => true
  | .text _ :: rest => assignmentFreeSegments rest
  | .hole expr :: rest => assignmentFree expr && assignmentFreeSegments rest

end

open Eval

mutual

/-- Only assignments write to what is there. -/
theorem extends_eval (scope : Scope) : (expr : Expr) → expr.assignmentFree = true → Extends (expr.eval scope)
  | .number _, _ | .string _, _ | .bool _, _ | .null, _ | .undefined, _ => by
    rw [eval]
    exact extends_pure _
  | .ident name, _ => by
    rw [eval]
    exact extends_ofExcept _
  | .template segments, hfree => by
    rw [eval]
    exact extends_bind (extends_evalSegments scope segments hfree) fun text => extends_pure _
  | .array items, hfree => by
    rw [eval]
    exact extends_bind (extends_evalAll scope items hfree) fun values => extends_newArray _
  | .object entries, hfree => by
    rw [eval]
    exact extends_bind (extends_evalEntries scope entries hfree) fun values => extends_newObject _
  | .member owner property optional, hfree => by
    rw [eval]
    refine extends_bind (extends_eval scope owner hfree) fun v => ?_
    split
    · exact extends_pure _
    · exact extends_bind (extends_view _) fun h => extends_ofExcept _
  | .index owner key optional, hfree => by
    obtain ⟨howner, hkey⟩ := Bool.and_eq_true_iff.1 hfree
    rw [eval]
    refine extends_bind (extends_eval scope owner howner) fun v => ?_
    split
    · exact extends_pure _
    · refine extends_bind (extends_eval scope key hkey) fun k => ?_
      exact extends_bind (extends_view _) fun h => extends_ofExcept _
  | .call (.member owner property memberOptional) args optional, hfree => by
    obtain ⟨howner, hargs⟩ := Bool.and_eq_true_iff.1 hfree
    rw [eval]
    split
    · exact extends_bind (extends_evalAll scope args hargs) fun values => Builtin.extends_callNamespace _ _ _
    · refine extends_bind (extends_eval scope owner howner) fun receiver => ?_
      dsimp only
      split
      · split
        · exact extends_pure _
        · exact extends_bind (extends_view _) fun text => extends_throw _
      · exact extends_bind (extends_evalAll scope args hargs) fun values => Builtin.extends_callMethod _ _ _
  | .call (.ident name) args optional, hfree => by
    rw [eval]
    split
    · exact extends_throw _
    · refine extends_bind (extends_evalAll scope args (Bool.and_eq_true_iff.1 hfree).2) fun values => ?_
      exact Builtin.extends_callFunction _ _
  | .unary op operand, hfree => by
    rw [eval]
    split
    · exact extends_pure _
    · refine extends_bind (extends_eval scope operand hfree) fun v => ?_
      exact extends_bind (extends_view _) fun h => extends_pure _
  | .binary op left right, hfree => by
    obtain ⟨hleft, hright⟩ := Bool.and_eq_true_iff.1 hfree
    rw [eval]
    refine extends_bind (extends_eval scope left hleft) fun a => ?_
    refine extends_bind (extends_eval scope right hright) fun b => ?_
    exact extends_bind (extends_view _) fun h => extends_pure _
  | .logical op left right, hfree => by
    obtain ⟨hleft, hright⟩ := Bool.and_eq_true_iff.1 hfree
    rw [eval]
    refine extends_bind (extends_eval scope left hleft) fun v => ?_
    split
    · exact extends_pure _
    · exact extends_eval scope right hright
  | .conditional test consequent alternate, hfree => by
    obtain ⟨hboth, halternate⟩ := Bool.and_eq_true_iff.1 hfree
    obtain ⟨htest, hconsequent⟩ := Bool.and_eq_true_iff.1 hboth
    rw [eval]
    refine extends_bind (extends_eval scope test htest) fun v => ?_
    split
    · exact extends_eval scope consequent hconsequent
    · exact extends_eval scope alternate halternate
  | .sequence items, hfree => by
    rw [eval]
    exact extends_bind (extends_evalAll scope items hfree) fun values => extends_pure _
  | .call (.number _) _ _, _ | .call (.string _) _ _, _ | .call (.bool _) _ _, _ | .call .null _ _, _
  | .call .undefined _ _, _ | .call (.template _) _ _, _ | .call (.array _) _ _, _ | .call (.object _) _ _, _
  | .call (.index _ _ _) _ _, _ | .call (.call _ _ _) _ _, _ | .call (.unary _ _) _ _, _
  | .call (.binary _ _ _) _ _, _ | .call (.logical _ _ _) _ _, _ | .call (.conditional _ _ _) _ _, _
  | .call (.assign _ _) _ _, _ | .call (.sequence _) _ _, _ => by
    rw [eval]
    · exact extends_throw _
    all_goals simp

theorem extends_evalAll (scope : Scope) :
    (items : List Expr) → assignmentFreeAll items = true → Extends (evalAll scope items)
  | [], _ => extends_pure _
  | item :: rest, hfree => by
    obtain ⟨hitem, hrest⟩ := Bool.and_eq_true_iff.1 hfree
    rw [evalAll]
    refine extends_bind (extends_eval scope item hitem) fun v => ?_
    exact extends_bind (extends_evalAll scope rest hrest) fun values => extends_pure _

theorem extends_evalEntries (scope : Scope) : (entries : List (String × Expr)) →
    assignmentFreeEntries entries = true → Extends (evalEntries scope entries)
  | [], _ => extends_pure _
  | (key, value) :: rest, hfree => by
    obtain ⟨hvalue, hrest⟩ := Bool.and_eq_true_iff.1 hfree
    rw [evalEntries]
    refine extends_bind (extends_eval scope value hvalue) fun v => ?_
    exact extends_bind (extends_evalEntries scope rest hrest) fun entries => extends_pure _

theorem extends_evalSegments (scope : Scope) : (segments : List TemplateSegment) →
    assignmentFreeSegments segments = true → Extends (evalSegments scope segments)
  | [], _ => extends_pure _
  | .text s :: rest, hfree => by
    rw [evalSegments]
    exact extends_bind (extends_evalSegments scope rest hfree) fun text => extends_pure _
  | .hole expr :: rest, hfree => by
    obtain ⟨hexpr, hrest⟩ := Bool.and_eq_true_iff.1 hfree
    rw [evalSegments]
    refine extends_bind (extends_eval scope expr hexpr) fun v => ?_
    refine extends_bind (extends_view _) fun shown => ?_
    exact extends_bind (extends_evalSegments scope rest hrest) fun text => extends_pure _

end

end Expr

namespace ExprCache

variable {c : ExprCache} {source : String}

/-- Whether no assignment occurs in the expressions that have been read. -/
def AssignmentFree (c : ExprCache) : Prop := ∀ entry ∈ c.parsed, entry.2.assignmentFree = true

/-- An expression that is kept is not forgotten. -/
theorem subset_parse (c : ExprCache) (source : String) : c.parsed ⊆ (c.parse source).2.parsed := by
  unfold parse
  split
  · exact List.Subset.refl _
  · split
    · exact List.subset_cons_self _ _
    · exact List.Subset.refl _

/-- What has been read is kept. -/
theorem mem_parse {expr : Expr} (h : Expr.parse source = .ok expr) : (source, expr) ∈ (c.parse source).2.parsed := by
  unfold parse
  split
  · next found hlookup =>
    obtain ⟨front, behind, heq, -⟩ := List.lookup_eq_some_iff.1 hlookup
    have hmem : (source, found) ∈ c.parsed := by simp [heq]
    have hfound := c.correct _ hmem
    rw [h] at hfound
    rwa [Except.ok.inj hfound]
  · split
    · next found hfound =>
      rw [h] at hfound
      rw [Except.ok.inj hfound]
      exact List.mem_cons_self ..
    · next e he =>
      rw [h] at he
      cases he

/-- If no assignment has been read, evaluating a source leaves everything as it was that is in the heap already. -/
theorem extends_evaluate (scope : Scope) (h : Heap) (hfree : (c.parse source).2.AssignmentFree) :
    h.Extends (ViewBinding.evaluate source scope h).2 := by
  unfold ViewBinding.evaluate
  cases hparse : Expr.parse source with
  | error e => exact .refl h
  | ok expr => exact Expr.extends_eval scope expr (hfree _ (mem_parse hparse)) h

end ExprCache

end ViewBinding
