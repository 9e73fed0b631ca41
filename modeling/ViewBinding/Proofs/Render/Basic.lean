import Mathlib.Tactic
import ViewBinding.View.Render

/-! Steps of a pass as functions from a state to a result and the state afterwards. -/
namespace ViewBinding

abbrev Pass.tree (p : Pass) : Tree := p.document.tree

def Pass.withTree (p : Pass) (t : Tree) : Pass := { p with document := { p.document with tree := t } }

@[simp] theorem Pass.tree_withTree (p : Pass) (t : Tree) : (p.withTree t).tree = t := rfl

@[simp] theorem Pass.copies_withTree (p : Pass) (t : Tree) : (p.withTree t).copies = p.copies := rfl

/-- The state after evaluating an expression. -/
def Pass.evaluated (p : Pass) (source : String) (scope : Scope) : Pass :=
  { p with heap := (evaluate source scope p.heap).2, cache := (p.cache.parse source).2 }

@[simp] theorem Pass.tree_evaluated (p : Pass) (source : String) (scope : Scope) :
    (p.evaluated source scope).tree = p.tree := rfl

@[simp] theorem Pass.copies_evaluated (p : Pass) (source : String) (scope : Scope) :
    (p.evaluated source scope).copies = p.copies := rfl

namespace Render

variable {α β : Type}

/-- Runs a step of a pass. -/
def exec (x : Render α) (p : Pass) : Except Error α × Pass := x.run.run p

@[simp] theorem exec_pure (a : α) (p : Pass) : exec (pure a : Render α) p = (.ok a, p) := rfl

@[simp] theorem exec_throw (e : Error) (p : Pass) : exec (throw e : Render α) p = (.error e, p) := rfl

/-- A failed step ends the sequence and keeps its state. -/
theorem exec_bind (x : Render α) (f : α → Render β) (p : Pass) :
    exec (x >>= f) p =
      match exec x p with
      | (.ok a, q) => (f a).exec q
      | (.error e, q) => (.error e, q) := by
  simp only [exec, ExceptT.run_bind, StateT.run_bind]
  show (match StateT.run (ExceptT.run x) p with | (a, q) => _) = _
  rcases StateT.run (ExceptT.run x) p with ⟨_ | a, q⟩ <;> rfl

theorem exec_bind_ok {x : Render α} {p q : Pass} {a : α} (h : exec x p = (.ok a, q)) (f : α → Render β) :
    exec (x >>= f) p = (f a).exec q := by
  rw [exec_bind, h]

/-- A sequence succeeds if both steps do. -/
theorem exists_of_exec_bind {x : Render α} {f : α → Render β} {p r : Pass} {b : β} (h : exec (x >>= f) p = (.ok b, r)) :
    ∃ a q, exec x p = (.ok a, q) ∧ exec (f a) q = (.ok b, r) := by
  rw [exec_bind] at h
  rcases hx : exec x p with ⟨e | a, q⟩ <;> rw [hx] at h
  · cases h
  · exact ⟨a, q, rfl, h⟩

/-- After an element that succeeds the rest follows. -/
theorem exec_forM_cons {f : α → Render Unit} {a : α} {p q : Pass} (h : exec (f a) p = (.ok (), q)) (as : List α) :
    exec ((a :: as).forM f) p = exec (as.forM f) q :=
  exec_bind_ok h fun _ => as.forM f

/-- After a sequence that succeeds the rest follows. -/
theorem exec_forM_append {f : α → Render Unit} {front : List α} {p q : Pass} (h : exec (front.forM f) p = (.ok (), q))
    (behind : List α) : exec ((front ++ behind).forM f) p = exec (behind.forM f) q := by
  induction front generalizing p with
  | nil =>
    cases h
    rfl
  | cons a front ih =>
    obtain ⟨_, r, ha, hfront⟩ := exists_of_exec_bind h
    exact (exec_forM_cons ha (front ++ behind)).trans (ih hfront)

/-- A sequence of steps that change nothing changes nothing. -/
theorem exec_forM_of_forall {f : α → Render Unit} {as : List α} {p : Pass} (h : ∀ a ∈ as, exec (f a) p = (.ok (), p)) :
    exec (as.forM f) p = (.ok (), p) := by
  induction as with
  | nil => rfl
  | cons a as ih => exact (exec_forM_cons (h a (by simp)) as).trans (ih fun b hb => h b (by simp [hb]))

@[simp] theorem exec_tree (p : Pass) : exec tree p = (.ok p.tree, p) := rfl

@[simp] theorem exec_view (f : Pass → α) (p : Pass) : exec (view f) p = (.ok (f p), p) := rfl

@[simp] theorem exec_setTree (t : Tree) (p : Pass) : exec (setTree t) p = (.ok (), p.withTree t) := rfl

@[simp] theorem exec_editDocument (f : Document → Document) (p : Pass) :
    exec (editDocument f) p = (.ok (), { p with document := f p.document }) := rfl

@[simp] theorem exec_modify (f : Pass → Pass) (p : Pass) :
    exec (modifyThe Pass f) p = (.ok (), f p) := rfl

theorem exec_edit (f : Tree → Except Tree.Error Tree) (p : Pass) :
    exec (edit f) p =
      match f p.tree with
      | .ok t => (.ok (), p.withTree t)
      | .error e => (.error (.invalidTree e), p) := by
  unfold edit
  rw [exec_bind, exec_tree]
  simp only
  cases f p.tree <;> rfl

theorem exec_edit_ok {f : Tree → Except Tree.Error Tree} {p : Pass} {t : Tree} (h : f p.tree = .ok t) :
    exec (edit f) p = (.ok (), p.withTree t) := by
  rw [exec_edit, h]

theorem exec_evaluate (source : String) (scope : Scope) (p : Pass) :
    exec (evaluate source scope) p =
      (.ok (ViewBinding.evaluate source scope p.heap).1, p.evaluated source scope) := by
  show (Except.ok (p.cache.evaluate source scope p.heap).1.1,
    { p with
      heap := (p.cache.evaluate source scope p.heap).1.2
      cache := (p.cache.evaluate source scope p.heap).2 }) = _
  rw [p.cache.evaluate_eq]
  rfl

/-- Evaluating an expression changes the heap and the expressions that have been read. -/
theorem exec_evaluateOrBlank (source : String) (scope : Scope) (p : Pass) :
    exec (evaluateOrBlank source scope) p =
      (.ok ((ViewBinding.evaluate source scope p.heap).1.toOption.getD (.string "")),
        p.evaluated source scope) := by
  unfold evaluateOrBlank
  rw [exec_bind, exec_evaluate]
  cases (ViewBinding.evaluate source scope p.heap).1 <;> rfl

end Render

/-- What a list expression yields, and the heap afterwards. -/
theorem View.exec_iterate (source : String) (scope : Scope) (p : Pass) :
    (View.iterate source scope).exec p =
      (.ok ((evaluate source scope p.heap).1.toOption.bind
          (evaluate source scope p.heap).2.items?),
        p.evaluated source scope) := by
  unfold View.iterate
  rw [Render.exec_bind, Render.exec_evaluate]
  cases (evaluate source scope p.heap).1 <;> rfl

end ViewBinding
