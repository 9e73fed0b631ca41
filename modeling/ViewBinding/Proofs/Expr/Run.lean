import Mathlib.Tactic
import ViewBinding.Expr.Eval

/-! Evaluations as functions from a heap to a result and the heap afterwards. -/
namespace ViewBinding.Eval

variable {α β : Type}

@[simp] theorem runIn_pure (a : α) (h : Heap) : runIn (pure a : Eval α) h = (.ok a, h) := rfl

@[simp] theorem runIn_throw (e : EvalError) (h : Heap) : runIn (throw e : Eval α) h = (.error e, h) := rfl

/-- A failed evaluation ends the sequence and keeps its heap. -/
theorem runIn_bind (x : Eval α) (f : α → Eval β) (h : Heap) :
    runIn (x >>= f) h =
      match runIn x h with
      | (.ok a, h) => (f a).runIn h
      | (.error e, h) => (.error e, h) := by
  simp only [runIn, ExceptT.run_bind, StateT.run_bind]
  show (match StateT.run (ExceptT.run x) h with | (a, h) => _) = _
  rcases StateT.run (ExceptT.run x) h with ⟨_ | a, h⟩ <;> rfl

@[simp] theorem runIn_view (f : Heap → α) (h : Heap) : runIn (view f) h = (.ok (f h), h) := rfl

@[simp] theorem runIn_newArray (items : List Value) (h : Heap) :
    runIn (newArray items) h = (.ok (h.newArray items).1, (h.newArray items).2) := rfl

@[simp] theorem runIn_newObject (entries : List (String × Value)) (h : Heap) :
    runIn (newObject entries) h = (.ok (h.newObject entries).1, (h.newObject entries).2) := rfl

@[simp] theorem runIn_ofExcept (x : Except EvalError α) (h : Heap) : runIn (liftM x : Eval α) h = (x, h) := by
  cases x <;> rfl

@[simp] theorem runIn_getThe (h : Heap) : runIn (getThe Heap) h = (.ok h, h) := rfl

theorem runIn_update_ok {f : Heap → Except EvalError Heap} {h h' : Heap} (hf : f h = .ok h') :
    runIn (update f) h = (.ok (), h') := by
  rw [update, runIn_bind, runIn_getThe]
  dsimp only
  rw [hf]
  rfl

/-- A write that fails leaves the heap as it was. -/
theorem runIn_update_error {f : Heap → Except EvalError Heap} {h : Heap} {e : EvalError} (hf : f h = .error e) :
    runIn (update f) h = (.error e, h) := by
  rw [update, runIn_bind, runIn_getThe]
  dsimp only
  rw [hf]
  rfl

end ViewBinding.Eval
