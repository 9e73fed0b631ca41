import ViewBinding.Proofs.Expr.Path
import ViewBinding.Proofs.Render.Moves
import ViewBinding.Proofs.Session.Dispatch
import ViewBinding.Proofs.Session.Listeners
import ViewBinding.Proofs.Session.WriteBack

/-! What becomes of the value that a user types into a control. It is in the control until there is a pass over the
page, and in the model once the control is written back. -/
namespace ViewBinding

namespace View

variable {v : View} {h h' : Heap} {model value : Value} {k path : String}

/-- The model is an object in the heap, and so is the object that it belongs to. -/
structure Models (v : View) (h : Heap) (model : Value) : Prop where
  object : h.Holds v.object
  get : h.get v.object "model" = model
  holds : h.Holds model

/-- Whether a value is the model or the object that it belongs to. -/
def IsModel (v : View) (model w : Value) : Prop := w = v.object ∨ w = model

theorem Models.keeps (hm : v.Models h model) (hk : h.Keeps (v.IsModel model) h') :
    v.Models h' model ∧ ∀ key, h'.get model key = h.get model key := by
  refine ⟨⟨hk.holds hm.object, ?_, hk.holds hm.holds⟩, hk.get model (.inr rfl) hm.holds⟩
  rw [hk.get v.object (.inl rfl) hm.object, hm.get]

/-- Writing an entry of the model keeps the model, unless it is the entry that the model itself is in. -/
theorem Models.set (hm : v.Models h model) (hself : model = v.object → k ≠ "model")
    (hset : h.set model k value = .ok h') : v.Models h' model ∧ h'.get model k = value := by
  refine ⟨⟨hm.holds.of_set hm.object hset, ?_, hm.holds.of_set hm.holds hset⟩, Heap.get_set_self hset⟩
  rw [← hm.get]
  by_cases hsame : v.object = model
  · obtain ⟨r, hr, -⟩ := hm.object
    have hm' : model = .object r := hsame ▸ hr
    rw [hm'] at hset
    rw [hr, Heap.get_set_object_of_ne hset (hself hsame.symm).symm]
  · rw [Heap.get_set_of_ne hset hsame]

/-- The path `$vm.model.k` leads to an entry of the model. -/
theorem Models.writePath? (hm : v.Models h model) (hpath : pathParts path = ["$vm", "model", k]) (hk : k ≠ "")
    (hset : h.set model k value = .ok h') : v.writePath? h path none value = some h' := by
  obtain ⟨r, rfl, -⟩ := hm.holds
  have hfollow : follow? h v.object ["model"] = some (.object r) := by
    simp [follow?, hm.get, isContainer]
  have hlast : k.isEmpty = false := by simpa using hk
  simp [View.writePath?, hpath, pathStart, hlast, hfollow, hset, Except.toOption]

end View

/-- A handler that takes nothing out of the heap and writes neither to the model nor to the object of the view model. -/
def Handler.Spares {σ : Type} (handler : Handler σ) : Prop :=
  ∀ (ctx : HandlerContext) (event : Event) (name : String) (value : Value) (state : HandlerState σ),
    state.heap.Keeps (fun w => w = ctx.object ∨ w = ctx.model state.heap)
      ((handler.onEvent ctx event name value).run.run state).2.heap

/-- A listener that writes back nothing but values, and these only where a path leads to. -/
def Listener.WritesTo (path : String) (l : Listener) : Prop :=
  ∀ p path', l.action = .writeBack p path' → p = .value ∧ path' = path ∧ l.scope = none

namespace Session

variable {σ : Type} {s s' : Session σ} {k path : String} {model value : Value}

/-- A listener does nothing but compute, and no expression is forgotten. -/
theorem exists_computed (s : Session σ) (event : Event) (l : Listener) : ∃ heap user cache,
    (s.runListener event l).2 = s.computed heap user cache ∧ s.model.cache.parsed ⊆ cache.parsed := by
  have hsame : ∃ heap user cache, s = s.computed heap user cache ∧ s.model.cache.parsed ⊆ cache.parsed :=
    ⟨s.page.heap, s.page.user, s.model.cache, rfl, List.Subset.refl _⟩
  unfold runListener
  split
  · next handler source _ =>
    cases source with
    | none => exact ⟨_, _, _, rfl, List.Subset.refl _⟩
    | some source =>
      simp only [argument, s.model.cache.evaluate_eq]
      exact ⟨_, _, _, rfl, s.model.cache.subset_parse source⟩
  · unfold writeBack
    split
    · exact hsame
    · split
      · exact ⟨_, _, _, rfl, List.Subset.refl _⟩
      · exact hsame

/-- Listeners do nothing but compute. -/
theorem exists_computed_fire (type : String) (target : NodeId) (met : List (NodeId × Listener)) (s : Session σ) :
    ∃ heap user cache, (fire type target met s).2 = s.computed heap user cache := by
  induction met generalizing s with
  | nil => exact ⟨s.page.heap, s.page.user, s.model.cache, rfl⟩
  | cons m met ih =>
    obtain ⟨heap, user, cache, hrun, -⟩ := s.exists_computed ⟨type, target, m.1⟩ m.2
    obtain ⟨heap', user', cache', hrest⟩ := ih (s.runListener ⟨type, target, m.1⟩ m.2).2
    refine ⟨heap', user', cache', hrest.trans ?_⟩
    rw [hrun]
    rfl

/-- What listeners write of the model is the entry `k`, if they write back to `path` only. -/
structure Editing (s : Session σ) (path k : String) (model : Value) : Prop where
  path_eq : View.pathParts path = ["$vm", "model", k]
  named : k ≠ ""
  apart : model = s.model.view.object → k ≠ "model"
  spares : s.model.handler.Spares
  models : s.model.view.Models s.page.heap model

theorem Editing.computed (h : s.Editing path k model) {heap : Heap} (user : σ) (cache : ExprCache)
    (hm : s.model.view.Models heap model) : (s.computed heap user cache).Editing path k model :=
  ⟨h.path_eq, h.named, h.apart, h.spares, hm⟩

/-- Without assignments the argument of a handler writes to nothing that is there. -/
theorem extends_argument (s : Session σ) (source : Option String) (scope : Option ItemScope)
    (hfree : (s.argument source scope).2.model.cache.AssignmentFree) :
    s.page.heap.Extends (s.argument source scope).2.page.heap := by
  cases source with
  | none => exact .refl _
  | some source =>
    simp only [argument, s.model.cache.evaluate_eq] at hfree ⊢
    exact s.model.cache.extends_evaluate _ s.page.heap hfree

theorem argument_eq (s : Session σ) (source : Option String) (scope : Option ItemScope) :
    ∃ heap cache, (s.argument source scope).2 = s.computed heap s.page.user cache := by
  cases source with
  | none => exact ⟨_, _, rfl⟩
  | some source => exact ⟨_, _, rfl⟩

/-- A handler leaves the model alone. -/
theorem Editing.handle (h : s.Editing path k model) {handler : String} {source : Option String} {event : Event}
    {l : Listener} (hl : l.action = .handle handler source)
    (hfree : (s.runListener event l).2.model.cache.AssignmentFree) :
    (s.runListener event l).2.Editing path k model ∧
      ∀ key, (s.runListener event l).2.page.heap.get model key = s.page.heap.get model key := by
  obtain ⟨heap, cache, hargument⟩ := s.argument_eq source l.scope
  have hrun : (s.runListener event l).2 =
      let after := ((s.computed heap s.page.user cache).handled event handler (s.argument source l.scope).1).2
      s.computed after.heap after.user cache := by
    rcases harg : s.argument source l.scope with ⟨value, s₁⟩
    rw [harg] at hargument
    subst hargument
    simp only [runListener, hl, harg]
    rfl
  have hx := s.extends_argument source l.scope
  rw [hargument] at hx
  rw [hrun] at hfree ⊢
  obtain ⟨hmodels, hget⟩ := h.models.keeps ((hx hfree).keeps _)
  replace hmodels : s.model.view.Models heap model := hmodels
  -- the handler gets the object of the view model, and so its model
  have hspares := h.spares (s.model.context s.page.document) event handler (s.argument source l.scope).1
    ⟨heap, false, s.page.user⟩
  rw [HandlerContext.model, show (s.model.context s.page.document).object = s.model.view.object from rfl,
    hmodels.get] at hspares
  obtain ⟨hmodels', hget'⟩ := hmodels.keeps hspares
  exact ⟨h.computed _ cache hmodels', fun key => (hget' key).trans (hget key)⟩

/-- What is written back is what the control shows. -/
theorem Editing.writeBack_eq (h : s.Editing path k model) {target : NodeId}
    (hread : Property.value.read s.tree target = .ok value) : ∃ heap,
    s.writeBack target .value path none = (.ok true, s.computed heap s.page.user s.model.cache) ∧
      s.model.view.Models heap model ∧ heap.get model k = value := by
  obtain ⟨heap, hset⟩ := h.models.holds.exists_set k value
  refine ⟨heap, ?_, h.models.set h.apart hset⟩
  simp only [Session.writeBack, hread, h.models.writePath? h.path_eq h.named hset]
  rfl

/-- What one listener leaves: the model is still there, and its entry has the value of the control if that was so
before or if the listener writes back. -/
theorem Editing.runListener (h : s.Editing path k model) {event : Event} {l : Listener} (hl : l.WritesTo path)
    (hfree : (s.runListener event l).2.model.cache.AssignmentFree)
    (hread : Property.value.read s.tree event.target = .ok value) :
    (s.runListener event l).2.Editing path k model ∧
      (s.page.heap.get model k = value ∨ l.action = .writeBack .value path →
        (s.runListener event l).2.page.heap.get model k = value) := by
  cases hact : l.action with
  | handle handler source =>
    obtain ⟨hediting, hget⟩ := h.handle hact hfree
    exact ⟨hediting, fun hv => (hget k).trans (hv.resolve_right nofun)⟩
  | writeBack p path' =>
    obtain ⟨rfl, rfl, hscope⟩ := hl p path' hact
    obtain ⟨heap, hwrite, hmodels, hget⟩ := h.writeBack_eq hread
    have hrun : (s.runListener event l).2 = s.computed heap s.page.user s.model.cache := by
      rw [Session.runListener, hact, hscope]
      exact congrArg Prod.snd hwrite
    rw [hrun]
    exact ⟨h.computed _ _ hmodels, fun _ => hget⟩

/-- Listeners that run one after the other forget no expression. -/
theorem subset_fire (type : String) (target : NodeId) (met : List (NodeId × Listener)) (s : Session σ) :
    s.model.cache.parsed ⊆ (fire type target met s).2.model.cache.parsed := by
  induction met generalizing s with
  | nil => exact List.Subset.refl _
  | cons m met ih =>
    obtain ⟨heap, user, cache, hrun, hparsed⟩ := s.exists_computed ⟨type, target, m.1⟩ m.2
    refine List.Subset.trans hparsed ?_
    have hrest := ih (s.runListener ⟨type, target, m.1⟩ m.2).2
    rw [hrun] at hrest
    rwa [fire, hrun]

/-- What listeners leave that run one after the other: some of them write back, or the entry has the value already. -/
theorem Editing.fire {type : String} {target : NodeId} {met : List (NodeId × Listener)} (h : s.Editing path k model)
    (hmet : ∀ m ∈ met, m.2.WritesTo path) (hfree : (fire type target met s).2.model.cache.AssignmentFree)
    (hread : Property.value.read s.tree target = .ok value) :
    (fire type target met s).2.Editing path k model ∧
      (fire type target met s).2.model.view = s.model.view ∧ (fire type target met s).2.page.document = s.page.document ∧
      (s.page.heap.get model k = value ∨ (∃ m ∈ met, m.2.action = .writeBack .value path) →
        (fire type target met s).2.page.heap.get model k = value) := by
  induction met generalizing s with
  | nil => exact ⟨h, rfl, rfl, fun hv => hv.resolve_right (by simp)⟩
  | cons m met ih =>
    obtain ⟨heap, user, cache, hrun, -⟩ := s.exists_computed ⟨type, target, m.1⟩ m.2
    obtain ⟨hediting, hget⟩ := h.runListener (hmet m (by simp))
      (fun entry he => hfree entry (subset_fire type target met _ he)) hread
    rw [Session.fire]
    rw [hrun] at hediting hget ⊢
    obtain ⟨hediting', hview, hdocument, hget'⟩ := ih hediting (fun m' hm' => hmet m' (by simp [hm']))
      (by rw [Session.fire, hrun] at hfree; exact hfree) hread
    refine ⟨hediting', hview, hdocument, fun hv => hget' ?_⟩
    rcases hv with hv | ⟨m', hm', hact⟩
    · exact .inl (hget (.inl hv))
    · rcases List.mem_cons.1 hm' with rfl | hm'
      · exact .inl (hget (.inr hact))
      · exact .inr ⟨m', hm', hact⟩

/-- A pass leaves the model as it is, if no assignment is read in it. -/
theorem Editing.pass? (h : s.Editing path k model) {follows : Bool} {result : Except Error Unit}
    (hpass : Session.pass? follows s = (result, s')) (hfree : s'.model.cache.AssignmentFree) :
    s'.Editing path k model ∧ s'.model.view = s.model.view ∧ s'.page.heap.get model k = s.page.heap.get model k := by
  cases follows with
  | false =>
    cases hpass
    exact ⟨h, rfl, rfl⟩
  | true =>
    have hs : s' = s.withPass (s.model.view.render.exec s.pass).2 := congrArg Prod.snd (hpass.symm.trans s.render_eq)
    subst hs
    obtain ⟨hmodels, hget⟩ := h.models.keeps (((View.stepwise_render _ s.pass).grows.heap hfree).keeps _)
    exact ⟨⟨h.path_eq, h.named, h.apart, h.spares, hmodels⟩, rfl, hget k⟩

/-- Firing an event succeeds on a live node, without a listener that fails. -/
theorem dispatch_ok {target : NodeId} {type : String} (h : s.dispatch target type = (.ok (), s')) :
    ∃ responses after, s.responses target type = (responses, after) ∧
      pass? (responses.any (·.counts)) after = (.ok (), s') := by
  by_cases hlive : s.tree.isLive target = true
  · rcases hr : s.responses target type with ⟨responses, after⟩
    refine ⟨responses, after, rfl, ?_⟩
    rw [dispatch_eq hlive hr] at h
    rcases hp : pass? (responses.any (·.counts)) after with ⟨_ | u, shown⟩ <;> rw [hp] at h
    · cases h
    · have hshown : shown = s' := congrArg Prod.snd h
      exact Prod.ext rfl hshown
  · rw [dispatch, if_pos (by simpa using hlive)] at h
    cases h

/-- A pass forgets no expression. -/
theorem subset_pass? (follows : Bool) (s : Session σ) :
    s.model.cache.parsed ⊆ (Session.pass? follows s).2.model.cache.parsed := by
  cases follows with
  | false => exact List.Subset.refl _
  | true => exact (View.stepwise_render s.model.view s.pass).grows.parsed

/-- Firing an event that succeeds leaves what the listeners and the pass leave, and it forgets no expression. -/
theorem Editing.dispatch (h : s.Editing path k model) {target : NodeId} {type : String}
    (hmet : ∀ m ∈ s.met target type, m.2.WritesTo path) (hread : Property.value.read s.tree target = .ok value)
    (hdispatch : s.dispatch target type = (.ok (), s')) (hfree : s'.model.cache.AssignmentFree) :
    s'.Editing path k model ∧ s'.model.view = s.model.view ∧
      ((∃ m ∈ s.met target type, m.2.action = .writeBack .value path) → s'.page.heap.get model k = value) ∧
      ((∀ r ∈ (s.responses target type).1, r.asks = false) → s'.page.document = s.page.document) := by
  obtain ⟨responses, after, hr, hpass⟩ := dispatch_ok hdispatch
  have hafter : after.model.cache.AssignmentFree := fun entry he => by
    have hkept := subset_pass? (responses.any (·.counts)) after he
    rw [hpass] at hkept
    exact hfree entry hkept
  have hfire : Session.fire type target (s.met target type) s = (responses, after) := hr
  obtain ⟨hediting, hview, hdocument, hget⟩ := h.fire hmet (by rwa [hfire]) hread
  rw [hfire] at hediting hview hdocument hget
  obtain ⟨hediting', hview', hsame⟩ := hediting.pass? hpass hfree
  refine ⟨hediting', hview'.trans hview, fun hm => hsame.trans (hget (.inr hm)), fun hasks => ?_⟩
  rw [hr] at hasks
  have hnone : responses.any (·.counts) = false :=
    List.any_eq_false.2 fun r hr => by simp [Response.counts, hasks r hr]
  rw [hnone] at hpass
  cases hpass
  exact hdocument

theorem subset_dispatch {target : NodeId} {type : String} (h : s.dispatch target type = (.ok (), s')) :
    s.model.cache.parsed ⊆ s'.model.cache.parsed := by
  obtain ⟨responses, after, hr, hpass⟩ := dispatch_ok h
  have hfire : Session.fire type target (s.met target type) s = (responses, after) := hr
  have hsub := subset_fire type target (s.met target type) s
  have hsub' := subset_pass? (responses.any (·.counts)) after
  rw [hfire] at hsub
  rw [hpass] at hsub'
  exact List.Subset.trans hsub hsub'

theorem andThen_ok {o : Outcome σ} {f : Session σ → Outcome σ} (h : andThen o f = (.ok (), s')) :
    ∃ s₁, o = (.ok (), s₁) ∧ f s₁ = (.ok (), s') := by
  obtain ⟨_ | u, s₁⟩ := o
  · cases h
  · exact ⟨s₁, rfl, h⟩

theorem edit_ok {f : Tree → Except Tree.Error Tree} (h : s.edit f = (.ok (), s')) : ∃ t, f s.tree = .ok t ∧
    s' = { s with page := { s.page with document := { s.page.document with tree := t } } } := by
  unfold edit at h
  cases ht : f s.tree with
  | error e =>
    simp [Document.edit, ht, liftError, bind, Except.bind] at h
  | ok t =>
    simp [Document.edit, ht, liftError, bind, Except.bind, pure, Except.pure] at h
    exact ⟨t, rfl, h.symm⟩

/-- Setting the value of a control that is no list of options shows this value. -/
theorem read_of_setValue {t t' : Tree} {id : NodeId} {text : String} (h : t.setValue id text = .ok t')
    (hselect : t.hasTag id "select" = false) : Property.value.read t' id = .ok (.string text) := by
  rw [Tree.setValue, if_neg (by simp [hselect])] at h
  simp [Property.read, Tree.value_writeValue h, bind, Except.bind, pure, Except.pure]

end Session

namespace View

variable {v : View} {t : Tree} {id x : NodeId} {k : String} {l : Listener}

/--
A control whose value is bound to an entry of the model, and nothing else of it: it lies in a root and in no list of the
root, it is written back once it has changed, and no property is bound at the elements around it.
-/
structure Controls (v : View) (t : Tree) (id : NodeId) (k : String) : Prop where
  inRoot : ∃ root ∈ v.roots, OpenWay v t [] id root
  entry : ∃ b, v.entriesAt .value t id = [b] ∧ b.target = some "value" ∧ b.expression = "$vm.model." ++ k
  named : Expr.isName k.toList = true
  unhurried : t.hasAttr id v.realTimeAttribute = false
  alone : ∀ a ∈ t.ancestors id, t.hasAttr a (v.attributeName .value) = false

theorem property?_value {b : Binding} (hb : b.target = some "value") : property? b = some .value := by
  rw [property?, hb]
  exact Property.ofName?_name .value

theorem pathParts_model (hk : Expr.isName k.toList = true) : pathParts ("$vm.model." ++ k) = ["$vm", "model", k] := by
  have htext : "$vm.model." ++ k = "$vm" ++ "." ++ ("model" ++ "." ++ k) := by
    rw [← String.toList_inj]
    simp
  rw [htext, Expr.pathParts_append (by decide +kernel), Expr.pathParts_append (by decide +kernel),
    Expr.pathParts_of_isName hk]

/-- The listeners at the control and around it write to no other entry. -/
theorem Controls.writesTo (hc : v.Controls t id k) (hx : x ∈ id :: t.ancestors id) (hl : l ∈ v.listenersAt t x) :
    l.WritesTo ("$vm.model." ++ k) := by
  rcases List.mem_append.1 hl with hl | hl
  · obtain ⟨b, hb, hl⟩ := List.mem_filterMap.1 hl
    obtain ⟨p, hp, rfl⟩ := Option.map_eq_some_iff.1 hl
    rcases List.mem_cons.1 hx with rfl | hx
    · obtain ⟨only, honly, htarget, hpath⟩ := hc.entry
      rw [honly, List.mem_singleton] at hb
      subst hb
      rw [property?_value htarget] at hp
      cases hp
      intro p path haction
      cases haction
      exact ⟨rfl, hpath, rfl⟩
    · have hnone := hc.alone x hx
      rw [Tree.hasAttr, Option.isSome_eq_false_iff, Option.isNone_iff_eq_none] at hnone
      simp [entriesAt, hnone] at hb
  · obtain ⟨b, -, hl⟩ := List.mem_filterMap.1 hl
    obtain ⟨call, -, rfl⟩ := Option.map_eq_some_iff.1 hl
    intro p path haction
    cases haction

/-- The control is written back when it has changed. -/
theorem Controls.mem_listenersAt (hc : v.Controls t id k) :
    ⟨"change", v.name, .writeBack .value, .writeBack .value ("$vm.model." ++ k), none⟩ ∈ v.listenersAt t id := by
  obtain ⟨b, hb, htarget, hpath⟩ := hc.entry
  refine List.mem_append_left _ (List.mem_filterMap.2 ⟨b, by simp [hb], ?_⟩)
  simp [property?_value htarget, writeBackEvent, hc.unhurried, hpath]

/-- A listener at the control in the slot of its value is the one that writes it back. -/
theorem Controls.action_eq (hc : v.Controls t id k) (hl : l ∈ v.listenersAt t id) (hslot : l.slot = .writeBack .value) :
    l.event = "change" ∧ l.action = .writeBack .value ("$vm.model." ++ k) := by
  rcases List.mem_append.1 hl with hl | hl
  · obtain ⟨b, hb, hl⟩ := List.mem_filterMap.1 hl
    obtain ⟨p, -, rfl⟩ := Option.map_eq_some_iff.1 hl
    obtain ⟨only, honly, -, hpath⟩ := hc.entry
    rw [honly, List.mem_singleton] at hb
    cases hslot
    exact ⟨by simp [writeBackEvent, hc.unhurried], by rw [hb, hpath]⟩
  · obtain ⟨b, -, hl⟩ := List.mem_filterMap.1 hl
    obtain ⟨call, -, rfl⟩ := Option.map_eq_some_iff.1 hl
    cases hslot

end View

namespace Session

variable {σ : Type} {s s' : Session σ}

theorem mem_met {target : NodeId} {type : String} {m : NodeId × Listener} (h : m ∈ s.met target type) :
    m.1 ∈ target :: s.tree.ancestors target ∧ m.2 ∈ s.page.document.listeners.on m.1 := by
  obtain ⟨x, hx, hm⟩ := List.mem_flatMap.1 h
  obtain ⟨l, hl, rfl⟩ := List.mem_map.1 hm
  exact ⟨hx, (List.mem_filter.1 hl).1⟩

theorem mem_met_self {target : NodeId} {l : Listener} (hl : l ∈ s.page.document.listeners.on target)
    (howner : l.owner = s.model.name) : (target, l) ∈ s.met target l.event :=
  List.mem_flatMap.2 ⟨target, by simp, List.mem_map.2 ⟨l, List.mem_filter.2 ⟨hl, by simp [howner]⟩, rfl⟩⟩

/-- A view model that has just been created for a parsed page. -/
def Created (s : Session σ) : Prop :=
  ∃ (html name : String) (d : Document) (heap : Heap) (user : σ) (model : Value) (options : BindingOptions)
    (pipes : PipeRegistry) (handler : Handler σ), Document.parse html = .ok d ∧
      ViewModel.create ⟨d, heap, user⟩ name model options pipes handler = .ok s

section
variable {s₀ : Session σ} {id : NodeId} {k : String}

theorem Created.sound (h : s₀.Created) : s₀.Sound := by
  obtain ⟨_, _, _, _, _, _, _, _, _, hd, hs⟩ := h
  exact sound_create hd hs

/-- At first there are the listeners that the bindings ask for. -/
theorem Created.exists_document (h : s₀.Created) : ∃ d : Document, d.tree = s₀.tree ∧ d.listeners = .empty ∧
    s₀.page.document = s₀.model.view.listenAll d := by
  obtain ⟨_, _, d, _, _, _, _, _, _, hd, hs⟩ := h
  have hdocument : s₀.page.document = s₀.model.view.listenAll d := by
    unfold ViewModel.create at hs
    split at hs
    · cases hs
    · cases hs
      rfl
  refine ⟨d, by rw [tree, hdocument, View.tree_listenAll], ?_, hdocument⟩
  unfold Document.parse at hd
  split at hd
  · cases hd
    rfl
  · cases hd

theorem Created.mem_listenersAt (h : s₀.Created) {x : NodeId} {l : Listener}
    (hl : l ∈ s₀.page.document.listeners.on x) : l ∈ s₀.model.view.listenersAt s₀.tree x := by
  obtain ⟨d, htree, hempty, hdocument⟩ := h.exists_document
  rw [hdocument] at hl
  rw [← htree]
  exact (View.mem_on_listenAll hl).resolve_left (by simp [hempty])

/-- The control gets the listener that writes it back. -/
theorem Created.fills (h : s₀.Created) (hc : s₀.model.view.Controls s₀.tree id k) :
    s₀.page.document.listeners.Fills id
      ⟨"change", s₀.model.view.name, .writeBack .value, .writeBack .value ("$vm.model." ++ k), none⟩ := by
  obtain ⟨root, hroot, hway⟩ := hc.inRoot
  obtain ⟨e, he⟩ := Option.isSome_iff_exists.1 (hway.2 root hway.1 (.refl _ root)).isElement
  have hused := h.sound.wellFormed.inUse_of_element? he
  have hmem := (View.mem_elements_scan_iff h.sound.wellFormed hused).2 hway
  obtain ⟨d, htree, -, hdocument⟩ := h.exists_document
  rw [hdocument]
  rw [← htree] at hmem hc
  exact View.fills_listenAll hroot hmem hc.mem_listenersAt

/-- The control and the elements around it are the ones that were there at first, with the listeners of then. -/
theorem Created.listeners_of_steps (h : s₀.Created) (hc : s₀.model.view.Controls s₀.tree id k)
    (hsteps : Relation.ReflTransGen Step s₀ s) (hm : s.tree.mutations < 2 ^ 32) (hid : s.tree.InUse id) {x : NodeId}
    (hx : x ∈ id :: s.tree.ancestors id) : x ∈ id :: s₀.tree.ancestors id ∧
      s.page.document.listeners.on x = s₀.page.document.listeners.on x := by
  have hsound := h.sound
  have hlead : Pass.Leads (2 ^ 32) .all s₀.pass s.pass :=
    leads_of_steps hsteps hsound.wellFormed (Nat.le_add_left _ _)
  have hlater := hlead.later hm
  have hbound : s.tree.mutations < s₀.tree.mutations + 2 ^ 32 := hm.trans_le (Nat.le_add_left _ _)
  -- the control lies in the document from the start
  obtain ⟨root, hroot, hway⟩ := hc.inRoot
  have hused : ∀ {y}, s₀.tree.Inside id y → s₀.tree.InUse y := fun hy => by
    obtain ⟨e, he⟩ := Option.isSome_iff_exists.1 (hway.2 id (.refl _ id) hway.1).isElement
    exact hsound.wellFormed.inUse_of_inside (hsound.wellFormed.inUse_of_element? he) hy
  have hconn : s₀.tree.Inside id Tree.root :=
    hway.1.trans (hsound.connected (hlead.mutations_le.trans_lt hm) root hroot (hused hway.1))
  have hin := Tree.inside_of_mem_ancestors hx
  have hin₀ := hlater.tree.inside_of_inside hsound.wellFormed hbound hconn hin
  refine ⟨hsound.wellFormed.mem_ancestors_of_inside (hused (.refl _ id)) hin₀, ?_⟩
  refine (hlater.listeners x (hused hin₀) not_false).resolve_right fun hex => ?_
  exact hex.not_inUse hbound (hlead.wellFormed.inUse_of_inside hid hin)

/--
A user changes a control, and this succeeds. The control has been bound to the entry `k` of the model since the view
model was created, no handler writes to the model, and no assignment has been read.
-/
structure Changes (s₀ s s' : Session σ) (id : NodeId) (k selector text : String) : Prop where
  created : s₀.Created
  controls : s₀.model.view.Controls s₀.tree id k
  steps : Relation.ReflTransGen Step s₀ s
  few : s.tree.mutations < 2 ^ 32
  object : s.page.heap.Holds s.model.view.object
  model : s.page.heap.Holds (s.model.model s.page.heap)
  spares : s.model.handler.Spares
  selected : s.page.document.select selector = .ok id
  input : s.tree.hasTag id "input" = true
  changed : s.changeValue selector text = (.ok (), s')
  assignmentFree : s'.model.cache.AssignmentFree

/--
What a user sets a control to is in the model afterwards, if nobody asks for a pass over the page while `input` is
handled, and if the entry is not the model itself. A pass would show the old value again before the control is written
back on `change`.
-/
theorem changeValue_kept {selector text : String} (h : Changes s₀ s s' id k selector text)
    (hself : s.model.model s.page.heap = s.model.view.object → k ≠ "model")
    (hquiet : ∀ s₁, s.edit (·.setValue id text) = (.ok (), s₁) →
      ∀ r ∈ (s₁.responses id "input").1, r.asks = false) :
    s'.page.heap.get (s'.model.model s'.page.heap) k = .string text := by
  have hc := h.controls
  have hlead : Pass.Leads (2 ^ 32) .all s₀.pass s.pass :=
    leads_of_steps h.steps h.created.sound.wellFormed (Nat.le_add_left _ _)
  obtain ⟨e, he, htag⟩ := (Option.any_eq_true _ _).1 h.input
  have hid : s.tree.InUse id := hlead.wellFormed.inUse_of_element? he
  have hchanged := h.changed
  rw [changeValue, onSelected, h.selected] at hchanged
  obtain ⟨s₁, hedit, hchanged⟩ := andThen_ok hchanged
  obtain ⟨s₂, hinput, hchange⟩ := andThen_ok hchanged
  obtain ⟨t, ht, hs₁⟩ := edit_ok hedit
  have hread : Property.value.read s₁.tree id = .ok (.string text) := by
    rw [hs₁]
    exact read_of_setValue ht (by rw [Tree.hasTag, he]; simp [beq_iff_eq.1 htag])
  have hediting : s₁.Editing ("$vm.model." ++ k) k (s.model.model s.page.heap) := by
    rw [hs₁]
    exact ⟨View.pathParts_model hc.named, fun hk => absurd hc.named (by rw [hk]; decide), hself, h.spares,
      ⟨h.object, rfl, h.model⟩⟩
  have hancestors : s₁.tree.ancestors id = s.tree.ancestors id := by
    rw [hs₁]
    exact (Tree.writes_setValue hlead.wellFormed ht).toSameShape.ancestors id
  have hon : ∀ x ∈ id :: s₁.tree.ancestors id, x ∈ id :: s₀.tree.ancestors id ∧
      s₁.page.document.listeners.on x = s₀.page.document.listeners.on x := fun x hx => by
    rw [hs₁]
    exact h.created.listeners_of_steps hc h.steps h.few hid (hancestors ▸ hx)
  -- the listeners that are met come from the bindings of the control and of the elements around it
  have hmet : ∀ x : Session σ, x.page.document = s₁.page.document → ∀ type, ∀ m ∈ x.met id type,
      m.2.WritesTo ("$vm.model." ++ k) := fun x hx type m hm => by
    obtain ⟨hup, hl⟩ := mem_met hm
    rw [tree, hx] at hup
    obtain ⟨hup₀, hsame⟩ := hon m.1 hup
    rw [hx, hsame] at hl
    exact hc.writesTo hup₀ (h.created.mem_listenersAt hl)
  obtain ⟨hediting₂, hview, -, hdocument⟩ := hediting.dispatch (hmet s₁ rfl "input") hread hinput fun entry hentry =>
    h.assignmentFree entry (subset_dispatch hchange hentry)
  replace hdocument := hdocument (hquiet s₁ hedit)
  have hread₂ : Property.value.read s₂.tree id = .ok (.string text) := by rwa [tree, hdocument]
  obtain ⟨hediting', -, hwritten, -⟩ :=
    hediting₂.dispatch (hmet s₂ hdocument "change") hread₂ hchange h.assignmentFree
  rw [ViewModel.model, hediting'.models.get]
  apply hwritten
  -- one of them writes the control back
  obtain ⟨l, hl, hslot⟩ := h.created.fills hc
  obtain ⟨howner, hslot⟩ := Bool.and_eq_true_iff.1 hslot
  obtain ⟨hevent, haction⟩ := hc.action_eq (h.created.mem_listenersAt hl) (beq_iff_eq.1 hslot)
  rw [← (hon id (by simp)).2, ← hdocument] at hl
  refine ⟨(id, l), hevent ▸ mem_met_self hl ?_, haction⟩
  rw [beq_iff_eq.1 howner, ViewModel.name, hview, hs₁]
  exact congrArg View.name (view_eq_of_steps h.steps).symm

end

theorem spares_asksOrFails : asksOrFails.Spares := fun ctx event name value state => by
  have hheap : ((asksOrFails.onEvent ctx event name value).run.run state).2.heap = state.heap := by
    by_cases hfail : name = "fail" <;> by_cases hask : name = "ask" <;>
      simp [asksOrFails, hfail, hask, HandlerContext.requestRender] <;> rfl
  rw [hheap]
  exact (Heap.Extends.refl _).keeps _

theorem created_ofHtmlAsking {html : String} {model : Value × Heap} {s : Session Unit}
    (h : ofHtmlAsking html model = .ok s) : s.Created := by
  unfold ofHtmlAsking at h
  split at h
  · cases h
  · next hd => exact ⟨_, _, _, _, _, _, _, _, _, hd, h⟩

theorem handler_ofHtmlAsking {html : String} {model : Value × Heap} {s : Session Unit}
    (h : ofHtmlAsking html model = .ok s) : s.model.handler = asksOrFails := by
  unfold ofHtmlAsking at h
  split at h
  · cases h
  · cases h
    rfl

def holdsObject (h : Heap) : Value → Bool
  | .object r => decide (r.index < h.objects.size)
  | _ => false

theorem holds_of_holdsObject {h : Heap} {v : Value} (hv : holdsObject h v = true) : h.Holds v := by
  cases v with
  | object r => exact ⟨r, rfl, of_decide_eq_true hv⟩
  | _ => cases hv

/-- Whether an element is a control whose value is bound to an entry of the model. -/
def isControl (v : View) (t : Tree) (id : NodeId) (k : String) : Bool :=
  v.roots.any (fun root => (v.scan t [] root).elements.contains id) &&
    (v.entriesAt .value t id).map (fun b => (b.target, b.expression)) == [(some "value", "$vm.model." ++ k)] &&
    Expr.isName k.toList && !t.hasAttr id v.realTimeAttribute &&
    (t.ancestors id).all fun a => !t.hasAttr a (v.attributeName .value)

theorem controls_of_isControl {v : View} {t : Tree} {id : NodeId} {k : String} (ht : t.WellFormed)
    (h : isControl v t id k = true) : v.Controls t id k := by
  simp only [isControl, Bool.and_eq_true, List.any_eq_true, List.contains_iff_mem, List.all_eq_true, beq_iff_eq,
    Bool.not_eq_true'] at h
  obtain ⟨⟨⟨⟨⟨root, hroot, hmem⟩, hentries⟩, hname⟩, hreal⟩, halone⟩ := h
  obtain ⟨b, hb, hentry⟩ := List.map_eq_singleton_iff.1 hentries
  obtain ⟨htarget, hpath⟩ := Prod.mk.inj hentry
  exact ⟨⟨root, hroot, View.open_of_mem_elements ht hmem⟩, ⟨b, hb, htarget, hpath⟩, hname, hreal, halone⟩

/-- Whether the change of a control succeeds that is bound to an entry of the model. -/
def changesControl (s₀ s : Session Unit) (k selector text : String) (id : NodeId) : Bool :=
  isControl s₀.model.view s₀.tree id k && decide (s.tree.mutations < 2 ^ 32) &&
    holdsObject s.page.heap s.model.view.object && holdsObject s.page.heap (s.model.model s.page.heap) &&
    (s.page.document.select selector).toOption == some id && s.tree.hasTag id "input" &&
    (failure? (s.changeValue selector text).1).isNone &&
    (s.changeValue selector text).2.model.cache.parsed.all (·.2.assignmentFree)

theorem changes_of_changesControl {s₀ s : Session Unit} {k selector text : String} {id : NodeId} (hs₀ : s₀.Created)
    (hsteps : Relation.ReflTransGen Step s₀ s) (hspares : s.model.handler.Spares)
    (h : changesControl s₀ s k selector text id = true) :
    Changes s₀ s (s.changeValue selector text).2 id k selector text := by
  simp only [changesControl, Bool.and_eq_true, decide_eq_true_eq, beq_iff_eq, List.all_eq_true] at h
  obtain ⟨⟨⟨⟨⟨⟨⟨hcontrol, hfew⟩, hobject⟩, hmodel⟩, hselect⟩, hinput⟩, hok⟩, hfree⟩ := h
  refine ⟨hs₀, controls_of_isControl hs₀.sound.wellFormed hcontrol, hsteps, hfew, holds_of_holdsObject hobject,
    holds_of_holdsObject hmodel, hspares, ?_, hinput, ?_, hfree⟩
  · cases hr : s.page.document.select selector <;> simp_all [Except.toOption]
  · rcases hr : s.changeValue selector text with ⟨_ | _, s'⟩
    · simp [hr, failure?] at hok
    · rfl

/-- The text that the model has in an entry. -/
def textIn (s : Session Unit) (k : String) : Option String :=
  (s.page.heap.get (s.model.model s.page.heap) k).asString?

set_option maxRecDepth 10000 in
/-- A handler around the control asks for a pass on `change`. -/
theorem changeValue_kept_asked : ∃ (s₀ s s' : Session Unit) (id : NodeId), Changes s₀ s s' id "k" "input" "new" ∧
    (∀ s₁, s.edit (·.setValue id "new") = (.ok (), s₁) → ∀ r ∈ (s₁.responses id "input").1, r.asks = false) ∧
    s'.textIn "k" = some "new" := by
  have h : (ofHtmlAsking "<div ft-view-model='vm' vm-event-bind='change::ask'><input vm-js-bind='value::$vm.model.k'></div>"
      textAndFlag).toOption.any (fun s₀ => s₀.tree.elements.any fun id =>
        changesControl s₀ s₀.render.2 "k" "input" "new" id &&
          ((s₀.render.2.edit (·.setValue id "new")).2.responses id "input").1.all (!·.asks)) = true := by
    decide +kernel
  obtain ⟨s₀, hs₀, hcheck⟩ := exists_of_toOption_any h
  obtain ⟨id, -, hcheck⟩ := List.any_eq_true.1 hcheck
  obtain ⟨hchange, hasks⟩ := Bool.and_eq_true_iff.1 hcheck
  have hchanges := changes_of_changesControl (created_ofHtmlAsking hs₀) (.single (.render s₀))
    ((handler_ofHtmlAsking hs₀).symm ▸ spares_asksOrFails) hchange
  have hquiet : ∀ s₁, s₀.render.2.edit (·.setValue id "new") = (.ok (), s₁) →
      ∀ r ∈ (s₁.responses id "input").1, r.asks = false := fun s₁ hs₁ r hr => by
    rw [hs₁] at hasks
    simpa using List.all_eq_true.1 hasks r hr
  refine ⟨s₀, s₀.render.2, _, id, hchanges, hquiet, ?_⟩
  rw [textIn, changeValue_kept hchanges (fun _ => by decide) hquiet]
  rfl

set_option maxRecDepth 10000 in
/--
Where a change is lost: a handler asks for a pass on `input`, which shows the old value again; or the entry is the model
itself, which the object of the view model is here.
-/
theorem changeValue_lost :
    (∃ (s₀ s s' : Session Unit) (id : NodeId), Changes s₀ s s' id "k" "input" "new" ∧ s'.textIn "k" = some "") ∧
    ∃ (s₀ s s' : Session Unit) (id : NodeId), Changes s₀ s s' id "model" "input" "new" ∧
      (∀ s₁, s.edit (·.setValue id "new") = (.ok (), s₁) → ∀ r ∈ (s₁.responses id "input").1, r.asks = false) ∧
      s'.textIn "model" = none := by
  constructor
  · have h : (ofHtmlAsking "<input ft-view-model='vm' vm-js-bind='value::$vm.model.k' vm-event-bind='input::ask'>"
        textAndFlag).toOption.any (fun s₀ => s₀.tree.elements.any fun id =>
          changesControl s₀ s₀.render.2 "k" "input" "new" id &&
            (s₀.render.2.changeValue "input" "new").2.textIn "k" == some "") = true := by
      decide +kernel
    obtain ⟨s₀, hs₀, hcheck⟩ := exists_of_toOption_any h
    obtain ⟨id, -, hcheck⟩ := List.any_eq_true.1 hcheck
    obtain ⟨hchange, htext⟩ := Bool.and_eq_true_iff.1 hcheck
    exact ⟨s₀, s₀.render.2, _, id, changes_of_changesControl (created_ofHtmlAsking hs₀) (.single (.render s₀))
      ((handler_ofHtmlAsking hs₀).symm ▸ spares_asksOrFails) hchange, beq_iff_eq.1 htext⟩
  · have h : (ofHtmlAsking "<input ft-view-model='vm' vm-js-bind='value::$vm.model.model'>"
        textAndFlag).toOption.any (fun s₀ => s₀.tree.elements.any fun id =>
          changesControl s₀ (s₀.setModel s₀.model.view.object).2 "model" "input" "new" id &&
            (((s₀.setModel s₀.model.view.object).2.edit (·.setValue id "new")).2.responses id "input").1.all (!·.asks) &&
            ((s₀.setModel s₀.model.view.object).2.changeValue "input" "new").2.textIn "model" == none) = true := by
      decide +kernel
    obtain ⟨s₀, hs₀, hcheck⟩ := exists_of_toOption_any h
    obtain ⟨id, -, hcheck⟩ := List.any_eq_true.1 hcheck
    simp only [Bool.and_eq_true, beq_iff_eq] at hcheck
    obtain ⟨⟨hchange, hasks⟩, htext⟩ := hcheck
    obtain ⟨heap, hset⟩ := s₀.exists_setModel s₀.model.view.object
    rw [hset] at hchange hasks htext
    refine ⟨s₀, _, _, id, changes_of_changesControl (created_ofHtmlAsking hs₀) (.single (.compute s₀ heap _ _))
      ((handler_ofHtmlAsking hs₀).symm ▸ spares_asksOrFails) hchange, fun s₁ hs₁ r hr => ?_, htext⟩
    rw [hs₁] at hasks
    simpa using List.all_eq_true.1 hasks r hr

end Session

end ViewBinding
