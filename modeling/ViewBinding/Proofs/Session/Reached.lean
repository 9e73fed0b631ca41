import ViewBinding.Proofs.Render.Lists
import ViewBinding.View.Dispatch

/-! Sessions that can be reached. From a parsed page on, the tree of the document stays well-formed, and the view
model holds no handles but those that the tree has given out. -/
namespace ViewBinding

open Render

namespace Tree

theorem arena_empty : empty.Arena [root] where
  slots := .refl _
  live := by simp [empty, root, isLive, get?]
  vacant := by simp [empty]

/-- A tree that is made of markup has this markup for its content. -/
theorem represents_ofMarkup (content : List Markup) :
    ∃ cs : List Branch, Branch.SpellsAll content cs ∧
      (ofMarkup content).Represents [.node root .document cs] ∧ (ofMarkup content).mutations = 0 := by
  have hroot : empty.get? root = some ⟨root.generation, none, [], .document⟩ := rfl
  obtain ⟨cs, hspells, hholds, harena, -, -, hmut⟩ :=
    fill_spec content hroot arena_empty
  refine ⟨cs, hspells, ⟨fun b hb => ?_, ?_, ⟨_, List.mem_singleton_self _, rfl, rfl⟩⟩, hmut⟩
  · rw [List.mem_singleton.1 hb]
    exact hholds
  · simpa [ofMarkup] using harena

theorem wellFormed_ofMarkup (content : List Markup) : (ofMarkup content).WellFormed :=
  let ⟨_, _, h, _⟩ := represents_ofMarkup content
  ⟨_, h⟩

end Tree

open ViewBinding.Tree (Footprint)

namespace View

theorem tree_listenAll (v : View) (d : Document) : (v.listenAll d).tree = d.tree := by
  unfold listenAll
  generalize v.roots = roots
  induction roots generalizing d with
  | nil => rfl
  | cons root roots ih => exact (ih _).trans (tree_foldl_listen ..)

end View

/-- What a view model that has been created knows, and what it has done to the page. -/
structure ViewModel.Created {σ : Type} (page : Page σ) (name : String) (model : Value) (options : BindingOptions)
    (s : Session σ) : Prop where
  name_eq : s.model.view.name = name
  object_eq : s.model.view.object = (page.heap.newObject [("name", .string name), ("model", model)]).1
  roots_eq : s.model.view.roots = View.rootsIn page.document.tree options name
  options_eq : s.model.view.options = options
  copies_eq : s.model.copies = []
  document_eq : s.page.document = s.model.view.listenAll page.document

theorem ViewModel.created_of_create {σ : Type} {page : Page σ} {name : String} {model : Value} {options : BindingOptions}
    {pipes : PipeRegistry} {handler : Handler σ} {s : Session σ}
    (h : create page name model options pipes handler = .ok s) : Created page name model options s := by
  unfold create at h
  split at h
  · cases h
  · cases h
    exact ⟨rfl, rfl, rfl, rfl, rfl, rfl⟩

namespace Session

variable {σ : Type} {s : Session σ}

abbrev tree (s : Session σ) : Tree := s.page.document.tree

/-- What a pass over the page starts from. -/
def pass (s : Session σ) : Pass := ⟨s.page.document, s.page.heap, s.model.copies, s.model.cache⟩

def withPass (s : Session σ) (p : Pass) : Session σ :=
  ⟨{ s.model with copies := p.copies, cache := p.cache }, { s.page with document := p.document, heap := p.heap }⟩

/-- What a computation may change: the values, the state of the handlers, and the expressions that have been read. -/
def computed (s : Session σ) (heap : Heap) (user : σ) (cache : ExprCache) : Session σ :=
  ⟨{ s.model with cache := cache }, { s.page with heap := heap, user := user }⟩

theorem render_eq (s : Session σ) :
    s.render = ((s.model.view.render.exec s.pass).1, s.withPass (s.model.view.render.exec s.pass).2) := rfl

/-- What a session does in one step: it computes, the live state of a control changes, or there is a pass. -/
inductive Step : Session σ → Session σ → Prop
  | compute (s : Session σ) (heap : Heap) (user : σ) (cache : ExprCache) : Step s (s.computed heap user cache)
  | control {s : Session σ} {t : Tree}
      (ht : (∃ id value, s.tree.setValue id value = .ok t) ∨ ∃ id flag on, s.tree.setFlag id flag on = .ok t) :
      Step s { s with page := { s.page with document := { s.page.document with tree := t } } }
  | render (s : Session σ) : Step s s.render.2

/-- Sessions that a parsed page leads to. -/
inductive Reached : Session σ → Prop
  | create {html name : String} {d : Document} {heap : Heap} {user : σ} {model : Value} {options : BindingOptions}
      {pipes : PipeRegistry} {handler : Handler σ} {s : Session σ} (hd : Document.parse html = .ok d)
      (hs : ViewModel.create ⟨d, heap, user⟩ name model options pipes handler = .ok s) : Reached s
  | step {s s' : Session σ} (h : Reached s) (h' : Step s s') : Reached s'

theorem Step.view_eq {s' : Session σ} (h : Step s s') : s'.model.view = s.model.view := by
  cases h <;> rfl

theorem Step.leads {s' : Session σ} {limit : Nat} (h : Step s s') (hs : s.tree.WellFormed)
    (hlimit : limit ≤ s.tree.mutations + 2 ^ 32) : Pass.Leads limit .all s.pass s'.pass := by
  cases h with
  | compute heap user cache => exact .of_eq (p := s.pass) hs rfl rfl fun _ _ => rfl
  | @control t ht =>
    have hl : Tree.Later .all s.tree t := by
      rcases ht with ⟨id, value, ht⟩ | ⟨id, flag, on, ht⟩
      · exact ((Tree.writes_setValue hs ht).mono fun _ _ _ => trivial).later hs
      · exact ((Tree.writes_setFlag hs ht).mono fun _ _ _ => trivial).later hs
    exact Pass.Leads.withTree (p := s.pass) hl
  | render => exact View.leads_render s.model.view hs hlimit

/-- What any number of steps leads to. -/
theorem leads_of_steps {s' : Session σ} (h : Relation.ReflTransGen Step s s') (hs : s.tree.WellFormed) {limit : Nat}
    (hlimit : limit ≤ s.tree.mutations + 2 ^ 32) : Pass.Leads limit .all s.pass s'.pass := by
  induction h with
  | refl => exact .refl hs
  | tail _ hstep ih =>
    exact ih.trans (hstep.leads ih.wellFormed (hlimit.trans (Nat.add_le_add_right ih.mutations_le _)))

theorem view_eq_of_steps {s' : Session σ} (h : Relation.ReflTransGen Step s s') : s'.model.view = s.model.view := by
  induction h with
  | refl => rfl
  | tail _ hstep ih => exact hstep.view_eq.trans ih

/-- Replacing the model is a computation. -/
theorem exists_setModel (s : Session σ) (model : Value) :
    ∃ heap, (s.setModel model).2 = s.computed heap s.page.user s.model.cache := by
  unfold setModel writeObject
  split
  · next heap _ => exact ⟨heap, rfl⟩
  · exact ⟨s.page.heap, rfl⟩

/-- What holds of every session that is reached. -/
structure Sound (s : Session σ) : Prop where
  wellFormed : s.tree.WellFormed
  nodup : s.model.view.roots.Nodup
  roots : s.tree.mutations < 2 ^ 32 → ∀ root ∈ s.model.view.roots, s.tree.Known root
  connected : s.tree.mutations < 2 ^ 32 → ∀ root ∈ s.model.view.roots, s.tree.InUse root →
    s.tree.Inside root Tree.root
  copies : s.tree.mutations < 2 ^ 32 → ∀ copy ∈ s.model.copies, s.tree.Known copy
  /-- No root lies in a copy. -/
  clear : s.tree.mutations < 2 ^ 32 → ∀ root ∈ s.model.view.roots, s.tree.InUse root →
    ∀ x, s.tree.Inside root x → x ∉ s.model.copies

theorem sound_create {html name : String} {d : Document} {heap : Heap} {user : σ} {model : Value}
    {options : BindingOptions} {pipes : PipeRegistry} {handler : Handler σ} (hd : Document.parse html = .ok d)
    (hs : ViewModel.create ⟨d, heap, user⟩ name model options pipes handler = .ok s) : s.Sound := by
  unfold Document.parse at hd
  split at hd
  · next content _ =>
    cases hd
    unfold ViewModel.create at hs
    split at hs
    · cases hs
    · cases hs
      have hw := Tree.wellFormed_ofMarkup content
      have hsub : (View.rootsIn (Tree.ofMarkup content) options name).Sublist
          ((Tree.ofMarkup content).preorder Tree.root) := List.filter_sublist.trans hw.elements_sublist
      have hroots : ∀ root ∈ View.rootsIn (Tree.ofMarkup content) options name,
          root ∈ (Tree.ofMarkup content).preorder Tree.root := fun root hr => hsub.subset hr
      refine ⟨?_, ?_, ?_, ?_, by simp, by simp⟩
      · rw [tree, View.tree_listenAll]
        exact hw
      · exact (hw.nodup_preorder hw.inUse_root).sublist hsub
      · intro _ root hr
        rw [tree, View.tree_listenAll]
        exact .inl (hw.inUse_of_mem_preorder hw.inUse_root (hroots root hr))
      · intro _ root hr _
        rw [tree, View.tree_listenAll]
        exact (hw.mem_preorder_iff_inside hw.inUse_root).1 (hroots root hr)
  · cases hd

theorem Step.sound {s' : Session σ} (h : Step s s') (hs : s.Sound) : s'.Sound := by
  have hlead : Pass.Leads (2 ^ 32) .all s.pass s'.pass := h.leads hs.wellFormed (Nat.le_add_left _ _)
  have hbound : s'.tree.mutations < 2 ^ 32 → s'.tree.mutations < s.tree.mutations + 2 ^ 32 := fun hm =>
    hm.trans_le (Nat.le_add_left _ _)
  have hms : s'.tree.mutations < 2 ^ 32 → s.tree.mutations < 2 ^ 32 := hlead.mutations_le.trans_lt
  have hinUse : s'.tree.mutations < 2 ^ 32 → ∀ root ∈ s.model.view.roots, s'.tree.InUse root →
      s.tree.InUse root := fun hm root hr hu =>
    (hs.roots (hms hm) root hr).resolve_right fun hex =>
      ((hlead.later hm).tree.expired hex).not_inUse (by rwa [Nat.zero_add]) hu
  have hroots : s'.tree.mutations < 2 ^ 32 → ∀ root ∈ s.model.view.roots, s'.tree.InUse root →
      s.tree.Inside root Tree.root := fun hm root hr hu =>
    hs.connected (hms hm) root hr (hinUse hm root hr hu)
  refine ⟨hlead.wellFormed, h.view_eq ▸ hs.nodup, fun hm root hr => ?_, fun hm root hr hu => ?_, fun hm => ?_,
    fun hm root hr hu x hx hc => ?_⟩
  · exact (hlead.later hm).tree.known (hs.roots (hms hm) root (h.view_eq ▸ hr))
  · exact (hlead.later hm).tree.inside hs.wellFormed (hbound hm) (hroots hm root (h.view_eq ▸ hr) hu) hu
  · exact (hlead.later hm).known (hs.copies (hms hm))
  · have hroot := hroots hm root (h.view_eq ▸ hr) hu
    have hxs := (hlead.later hm).tree.inside_of_inside hs.wellFormed (hbound hm) hroot hx
    have hus := hinUse hm root (h.view_eq ▸ hr) hu
    rcases (hlead.later hm).recorded x (hs.wellFormed.inUse_of_inside hus hxs) hc with hc | hf | hex
    · exact hs.clear (hms hm) root (h.view_eq ▸ hr) hus x hxs hc
    · exact hf
    · exact hex.not_inUse (hbound hm) (hlead.wellFormed.inUse_of_inside hu hx)

theorem Reached.sound (h : Reached s) : s.Sound := by
  induction h with
  | create hd hs => exact sound_create hd hs
  | step _ hstep ih => exact hstep.sound ih

theorem Reached.steps {s' : Session σ} (h : s.Reached) (hsteps : Relation.ReflTransGen Step s s') : s'.Reached := by
  induction hsteps with
  | refl => exact h
  | tail _ hstep ih => exact ih.step hstep

/-- Any number of steps lead from one session to another one. -/
abbrev Steps : Session σ → Session σ → Prop := Relation.ReflTransGen Step

namespace Steps

variable {s₀ : Session σ}

theorem compute (h : Steps s₀ s) (heap : Heap) (user : σ) (cache : ExprCache) : Steps s₀ (s.computed heap user cache) :=
  h.tail (.compute s heap user cache)

theorem render (h : Steps s₀ s) : Steps s₀ s.render.2 := h.tail (.render s)

theorem runHandler (h : Steps s₀ s) (x : HandlerContext → Handling σ Unit) : Steps s₀ (s.runHandler x).2 :=
  compute h _ _ s.model.cache

theorem initialise (h : Steps s₀ s) : Steps s₀ s.initialise.2 := by
  unfold Session.initialise
  have hrun := runHandler h s.model.handler.onInit
  rcases hr : s.runHandler s.model.handler.onInit with ⟨_ | _, s'⟩ <;> rw [hr] at hrun
  · exact hrun
  · exact render hrun

theorem writeObject (h : Steps s₀ s) (key : String) (value : Value) : Steps s₀ (s.writeObject key value).2 := by
  unfold Session.writeObject
  split
  · next heap _ => exact compute h heap s.page.user s.model.cache
  · exact h

theorem setModel (h : Steps s₀ s) (model : Value) : Steps s₀ (s.setModel model).2 := writeObject h _ _

theorem setProperty (h : Steps s₀ s) (key : String) (value : Value) : Steps s₀ (s.setProperty key value).2 := by
  unfold Session.setProperty
  split
  · exact h
  · exact writeObject h _ _

theorem argument (h : Steps s₀ s) (source : Option String) (scope : Option ItemScope) :
    Steps s₀ (s.argument source scope).2 := by
  unfold Session.argument
  split
  · exact h
  · exact compute h _ s.page.user _

theorem writeBack (h : Steps s₀ s) (target : NodeId) (p : Property) (path : String) (scope : Option ItemScope) :
    Steps s₀ (s.writeBack target p path scope).2 := by
  unfold Session.writeBack
  split
  · exact h
  · split
    · next heap _ => exact compute h heap s.page.user s.model.cache
    · exact h

theorem runListener (h : Steps s₀ s) (event : Event) (l : Listener) : Steps s₀ (s.runListener event l).2 := by
  unfold Session.runListener
  split
  · exact runHandler (argument h _ _) _
  · exact writeBack h ..

/-- A listener that fails keeps what it has done, and so does one that does not. -/
theorem listen (h : Steps s₀ s) (type : String) (target : NodeId) (progress : Progress) (met : NodeId × Listener) :
    Steps s₀ (Session.step type target (progress, s) met).2 := by
  have hrun := runListener h ⟨type, target, met.1⟩ met.2
  rcases hr : s.runListener ⟨type, target, met.1⟩ met.2 with ⟨_ | _, s'⟩ <;> rw [hr] at hrun <;> simpa [Session.step, hr] using hrun

theorem andThen {o : Outcome σ} {f : Session σ → Outcome σ} (h : Steps s₀ o.2)
    (hf : ∀ s, Steps s₀ s → Steps s₀ (f s).2) : Steps s₀ (Session.andThen o f).2 := by
  rcases o with ⟨_ | _, s'⟩
  · exact h
  · exact hf _ h

theorem dispatch (h : Steps s₀ s) (target : NodeId) (type : String) : Steps s₀ (s.dispatch target type).2 := by
  unfold Session.dispatch
  split
  · exact h
  have hsteps : ∀ (met : List (NodeId × Listener)) (progress : Progress × Session σ), Steps s₀ progress.2 →
      Steps s₀ (met.foldl (Session.step type target) progress).2 := by
    intro met
    induction met with
    | nil => exact fun _ hp => hp
    | cons m met ih => exact fun progress hp => ih _ (listen hp _ _ progress.1 m)
  have hafter := hsteps (s.met target type) (⟨false, none⟩, s) h
  refine andThen ?_ fun s' hs' => ?_
  · split
    · exact render hafter
    · exact hafter
  · split <;> exact hs'

theorem dispatchChange (h : Steps s₀ s) (id : NodeId) : Steps s₀ (s.dispatchChange id).2 :=
  andThen (dispatch h id "input") fun _ hs => dispatch hs id "change"

theorem onSelected (h : Steps s₀ s) (selector : String) {f : NodeId → Outcome σ} (hf : ∀ id, Steps s₀ (f id).2) :
    Steps s₀ (s.onSelected selector f).2 := by
  unfold Session.onSelected
  split
  · exact hf _
  · exact h

/-- A control that is set and what follows, if it can be set. -/
theorem edit (h : Steps s₀ s) {f : Tree → Except Tree.Error Tree}
    (hf : ∀ t, f s.tree = .ok t → (∃ id value, s.tree.setValue id value = .ok t) ∨ ∃ id flag on, s.tree.setFlag id flag on = .ok t) :
    Steps s₀ (s.edit f).2 := by
  unfold Session.edit Document.edit
  cases hft : f s.tree with
  | error e => exact h
  | ok t => exact h.tail (.control (hf t hft))

theorem click (h : Steps s₀ s) (selector : String) : Steps s₀ (s.click selector).2 :=
  onSelected h selector fun id => dispatch h id "click"

theorem typeText (h : Steps s₀ s) (selector text : String) : Steps s₀ (s.typeText selector text).2 :=
  onSelected h selector fun id =>
    andThen (edit h fun _ ht => .inl ⟨id, text, ht⟩) fun _ hs => dispatch hs id "input"

theorem changeValue (h : Steps s₀ s) (selector value : String) : Steps s₀ (s.changeValue selector value).2 :=
  onSelected h selector fun id =>
    andThen (edit h fun _ ht => .inl ⟨id, value, ht⟩) fun _ hs => dispatchChange hs id

theorem setChecked (h : Steps s₀ s) (selector : String) (checked : Bool) : Steps s₀ (s.setChecked selector checked).2 :=
  onSelected h selector fun id =>
    andThen (edit h fun _ ht => .inr ⟨id, .checked, checked, ht⟩) fun _ hs => dispatchChange hs id

end Steps

end Session

end ViewBinding
