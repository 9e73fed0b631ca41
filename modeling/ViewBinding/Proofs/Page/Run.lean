import ViewBinding.Proofs.Render.ListsWork
import ViewBinding.Proofs.Session.Reached

/-! Pages and the operations on them. Several view models may act on one page, one after the other; what an operation
does to the document is a run of changes, whether it fails or not. -/
namespace ViewBinding

namespace Tree

theorem whole_ofMarkup (content : List Markup) : (ofMarkup content).Whole :=
  let ⟨_, _, h, _⟩ := represents_ofMarkup content
  ⟨_, h⟩

end Tree

namespace Document

variable {d d' : Document}

/-- A parsed document is in one piece, and nobody listens yet. -/
theorem parsed {html : String} (h : parse html = .ok d) : d.tree.Whole ∧ d.listeners = .empty := by
  unfold parse at h
  split at h
  · next content _ =>
    cases h
    exact ⟨Tree.whole_ofMarkup content, rfl⟩
  · cases h

theorem edit_ok {f : Tree → Except Tree.Error Tree} (h : d.edit f = .ok d') : ∃ t, f d.tree = .ok t ∧ d' = { d with tree := t } := by
  unfold edit at h
  cases ht : f d.tree with
  | error e =>
    rw [ht] at h
    cases h
  | ok t =>
    rw [ht] at h
    cases h
    exact ⟨t, rfl, rfl⟩

end Document

namespace Session

variable {σ : Type} {s s' : Session σ}

/-- What can be asked of a view model. -/
inductive Act where
  | initialise
  | render
  | setModel (model : Value)
  | setProperty (key : String) (value : Value)
  | dispatch (target : NodeId) (type : String)
  | click (selector : String)
  | typeText (selector text : String)
  | changeValue (selector value : String)
  | setChecked (selector : String) (checked : Bool)

/-- Does what is asked. -/
def act (s : Session σ) : Act → Outcome σ
  | .initialise => s.initialise
  | .render => s.render
  | .setModel model => s.setModel model
  | .setProperty key value => s.setProperty key value
  | .dispatch target type => s.dispatch target type
  | .click selector => s.click selector
  | .typeText selector text => s.typeText selector text
  | .changeValue selector value => s.changeValue selector value
  | .setChecked selector checked => s.setChecked selector checked

theorem steps_act (s : Session σ) (a : Act) : Steps s (s.act a).2 := by
  cases a with
  | initialise => exact Steps.initialise .refl
  | render => exact Steps.render .refl
  | setModel model => exact Steps.setModel .refl model
  | setProperty key value => exact Steps.setProperty .refl key value
  | dispatch target type => exact Steps.dispatch .refl target type
  | click selector => exact Steps.click .refl selector
  | typeText selector text => exact Steps.typeText .refl selector text
  | changeValue selector value => exact Steps.changeValue .refl selector value
  | setChecked selector checked => exact Steps.setChecked .refl selector checked

theorem Step.deeds (h : Step s s') (hs : s.tree.Whole) : s.page.document.Deeds .nowhere s'.page.document := by
  cases h with
  | compute heap user cache => exact .refl
  | @control t ht =>
    rcases ht with ⟨id, value, ht⟩ | ⟨id, flag, on, ht⟩
    · exact .single (.rewrite (fun h => h) (.setValue ht))
    · exact .single (.rewrite (fun h => h) (.setFlag ht))
  | render => exact (View.works_render (p := s.pass) s.model.view hs).deeds

theorem Steps.deeds (h : Steps s s') (hs : s.tree.Whole) : s.page.document.Deeds .nowhere s'.page.document := by
  induction h with
  | refl => exact .refl
  | tail _ hstep ih => exact ih.trans (hstep.deeds (ih.whole hs))

end Session

namespace Page

variable {σ : Type} {page page' page'' : Page σ}

abbrev tree (page : Page σ) : Tree := page.document.tree

/--
One operation on a page. The application computes, it makes a view model, any view model does what it is asked and may
fail in it, or the state of a control is set. What else is asked of a page leaves it as it is.
-/
inductive Step : Page σ → Page σ → Prop
  | compute (page : Page σ) (heap : Heap) (user : σ) : Step page { page with heap := heap, user := user }
  | create {page : Page σ} {name : String} {model : Value} {options : BindingOptions} {pipes : PipeRegistry}
    {handler : Handler σ} {s : Session σ} (h : ViewModel.create page name model options pipes handler = .ok s) :
    Step page s.page
  | act (page : Page σ) (vm : ViewModel σ) (a : Session.Act) : Step page (Session.act ⟨vm, page⟩ a).2.page
  | setValue {page : Page σ} {id : NodeId} {value : String} {d : Document}
    (h : page.document.edit (·.setValue id value) = .ok d) : Step page { page with document := d }
  | setChecked {page : Page σ} {id : NodeId} {on : Bool} {d : Document}
    (h : page.document.edit (·.setFlag id .checked on) = .ok d) : Step page { page with document := d }

/-- Pages that operations on a parsed page lead to. -/
inductive Reached : Page σ → Prop
  | parse {html : String} {d : Document} (h : Document.parse html = .ok d) (heap : Heap) (user : σ) : Reached ⟨d, heap, user⟩
  | step {page page' : Page σ} (h : Reached page) (hstep : Step page page') : Reached page'

/-- Operations one after the other, with the changes that they make in the document. -/
inductive Run (page : Page σ) : List Document.Change → Page σ → Prop
  | refl : Run page [] page
  | tail {changes more : List Document.Change} {page' page'' : Page σ} (h : Run page changes page') (hstep : Step page' page'')
    (hmore : page'.document.Run more page''.document) : Run page (changes ++ more) page''

/-- What an operation does to the document. -/
theorem Step.deeds (h : Step page page') (hp : page.tree.Whole) : page.document.Deeds .nowhere page'.document := by
  cases h with
  | compute heap user => exact .refl
  | create h => exact (ViewModel.created_of_create h).document_eq ▸ View.deeds_listenAll _ page.document
  | act vm a => exact Session.Steps.deeds (Session.steps_act ⟨vm, page⟩ a) hp
  | setValue h =>
    obtain ⟨t, ht, rfl⟩ := Document.edit_ok h
    exact .single (.rewrite (fun h => h) (.setValue ht))
  | setChecked h =>
    obtain ⟨t, ht, rfl⟩ := Document.edit_ok h
    exact .single (.rewrite (fun h => h) (.setFlag ht))

theorem Run.document {changes : List Document.Change} (h : page.Run changes page') :
    page.document.Run changes page'.document := by
  induction h with
  | refl => exact .refl
  | tail _ _ hmore ih => exact ih.trans hmore

/-- In every page that is reached the nodes in use are those of the document. -/
theorem Reached.whole (h : page.Reached) : page.tree.Whole := by
  induction h with
  | parse hd heap user => exact (Document.parsed hd).1
  | step _ hstep ih => exact (hstep.deeds ih).whole ih

/-- Operations come to changes of the document, whatever they are. -/
theorem Reached.exists_run (h : page.Reached) (hsteps : Relation.ReflTransGen Step page page') :
    ∃ changes, page.Run changes page' := by
  induction hsteps with
  | refl => exact ⟨[], .refl⟩
  | tail _ hstep ih =>
    obtain ⟨changes, hrun⟩ := ih
    have hwhole := (hrun.document.kept h.whole).whole
    obtain ⟨more, hmore⟩ := (hstep.deeds hwhole).exists_run hwhole
    exact ⟨_, hrun.tail hstep hmore⟩

/-- Every page that is reached has a history, from the parsed page on. -/
theorem Reached.exists_history (h : page.Reached) : ∃ (html : String) (d : Document) (heap : Heap) (user : σ)
    (changes : List Document.Change), Document.parse html = .ok d ∧ Run ⟨d, heap, user⟩ changes page := by
  induction h with
  | parse hd heap user => exact ⟨_, _, heap, user, [], hd, .refl⟩
  | step h hstep ih =>
    obtain ⟨html, d, heap, user, changes, hd, hrun⟩ := ih
    obtain ⟨more, hmore⟩ := (hstep.deeds h.whole).exists_run h.whole
    exact ⟨html, d, heap, user, _, hd, hrun.tail hstep hmore⟩

end Page

end ViewBinding
