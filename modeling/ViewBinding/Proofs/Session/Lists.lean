import ViewBinding.Proofs.Render.ListsStand
import ViewBinding.Proofs.Session.Reached

/-! What lists look like once a pass over the page has succeeded. -/
namespace ViewBinding

open Render View

/-- The expression of a template yields an array. -/
def ListRun.Yields (v : View) (r : ListRun) (source : String) (items : List Value) : Prop :=
  v.listExpression? r.before.tree r.template = some source ∧
    (evaluate source v.scope r.before.heap).1.toOption.bind (evaluate source v.scope r.before.heap).2.items? =
      some items

namespace Session

variable {σ : Type} {s s' : Session σ}

/-- A page with the view model `vm` and no handlers. -/
def ofHtml (html : String) (model : Value × Heap) : Except Error (Session Unit) :=
  match Document.parse html with
  | .error e => .error e
  | .ok d => ViewModel.create ⟨d, model.2, ()⟩ "vm" model.1 .standard .empty (.none Unit)

theorem reached_ofHtml {html : String} {model : Value × Heap} {s : Session Unit}
    (h : ofHtml html model = .ok s) : s.Reached := by
  unfold ofHtml at h
  split at h
  · cases h
  · next hd => exact .create hd h

theorem exists_of_toOption_any {ε α : Type} {result : Except ε α} {check : α → Bool}
    (h : result.toOption.any check = true) : ∃ a, result = .ok a ∧ check a = true := by
  cases result with
  | error e => cases h
  | ok a => exact ⟨a, rfl, h⟩

theorem render_of_toBool {σ : Type} {s : Session σ} (h : s.render.1.toBool = true) : s.render = (.ok (), s.render.2) := by
  refine Prod.ext ?_ rfl
  cases hr : s.render.1 with
  | error e => simp [hr, Except.toBool] at h
  | ok u => rfl

/-- A model with a list of two texts. -/
def twoItems : Value × Heap :=
  let (items, h) := Heap.empty.newArray [.string "a", .string "b"]
  h.newObject [("items", items)]

end Session

end ViewBinding
