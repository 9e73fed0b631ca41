import ViewBinding.Proofs.Page.Counter
import ViewBinding.Proofs.Render.Settled
import ViewBinding.Proofs.Session.Lists

/-! Passes that come to rest. On a page whose bindings keep out of each other's way one pass is enough: it leaves a session
that a further pass does not change. -/
namespace ViewBinding.Page

variable {σ : Type} {page : Page σ} {vm : ViewModel σ} {after : Session σ}

/--
A pass over any page that is reached, which succeeds and starts where the bindings of the page keep out of each other's way. A
further pass succeeds as well and changes nothing at all: neither the document, its live states and its count of changes, nor
the values, the listeners and the copies.
-/
theorem Reached.render_again (h : page.Reached) (hclear : vm.view.Clear (Session.pass ⟨vm, page⟩))
    (hok : Session.render ⟨vm, page⟩ = (.ok (), after)) : after.render = (.ok (), after) := by
  rw [Session.render_eq] at hok
  obtain ⟨hresult, rfl⟩ := Prod.mk.inj hok
  generalize hq : (vm.view.render.exec (Session.pass ⟨vm, page⟩)).2 = q at *
  have hagain : vm.view.render.exec q = (.ok (), q) :=
    View.exec_render_again hclear h.whole (h.everyElement Markup.lasting_agrees) (Prod.ext hresult hq)
  calc ((⟨vm, page⟩ : Session σ).withPass q).render
      = ((vm.view.render.exec q).1, ((⟨vm, page⟩ : Session σ).withPass q).withPass (vm.view.render.exec q).2) :=
        Session.render_eq _
    _ = (.ok (), (⟨vm, page⟩ : Session σ).withPass q) := by
      rw [hagain]
      rfl

/-- A model with a list, a text that an option stands for, and markup. -/
def itemsTextAndMarkup : Value × Heap :=
  let (items, h) := Heap.empty.newArray [.string "a", .string "b"]
  h.newObject [("items", items), ("text", .string "b"), ("html", .string "<b>x</b>")]

/-- A field with two bound states, a paragraph with an attribute and content, and a select, all of them bound. -/
def boundControls : String :=
  "<div ft-view-model='vm'><input vm-js-bind='value::$vm.model.text, checked::$vm.model.items'>" ++
    "<p vm-attr-bind='title::$vm.model.items' vm-content-bind='$vm.model.html'></p>" ++
    "<select vm-js-bind='value::$vm.model.text'><option>a</option><option>b</option></select></div>"

set_option maxRecDepth 10000 in
/-- An attribute, content, a checked state and values are written, also that of a select with options of its own. -/
theorem render_again_controls : ∃ (page : Page Unit) (vm : ViewModel Unit) (after : Session Unit), page.Reached ∧
    vm.view.Clear (Session.pass ⟨vm, page⟩) ∧ Session.render ⟨vm, page⟩ = (.ok (), after) ∧
    after.render = (.ok (), after) ∧ after.tree.mutations ≠ page.tree.mutations := by
  have h : (Session.ofHtml boundControls itemsTextAndMarkup).toOption.any (fun s =>
      decide (s.model.view.Clear s.pass) && s.render.1.toBool && s.render.2.tree.mutations != s.tree.mutations) = true := by
    decide +kernel
  obtain ⟨s, hs, hcheck⟩ := Session.exists_of_toOption_any h
  simp only [Bool.and_eq_true, decide_eq_true_eq, bne_iff_ne] at hcheck
  obtain ⟨⟨hclear, hok⟩, hcount⟩ := hcheck
  have hrender : Session.render ⟨s.model, s.page⟩ = (.ok (), s.render.2) := Session.render_of_toBool hok
  exact ⟨s.page, s.model, s.render.2, reached_ofHtml hs, hclear, hrender, (reached_ofHtml hs).render_again hclear hrender, hcount⟩

end ViewBinding.Page
