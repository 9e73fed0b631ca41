import ViewBinding.Proofs.Page.Group
import ViewBinding.Proofs.Page.Run
import ViewBinding.Proofs.Render.PassSucceeds
import ViewBinding.Proofs.Session.Edit
import ViewBinding.Proofs.Session.Failure

/-! Changing a control. The control is looked up once, and then gets two events. If nothing else fails, the second event does not
reach it if and only if the pass for the first one has taken it away. -/
namespace ViewBinding

open Render View

/-- A handler that deals with every event. -/
def Handler.NeverFails {σ : Type} (handler : Handler σ) : Prop :=
  ∀ ctx event name value state, ((handler.onEvent ctx event name value).run.run state).1 = .ok ()

/-- The first element that is selected is an element of the page. -/
theorem Document.isElement_of_select {d : Document} {selector : String} {id : NodeId} (hd : d.tree.Whole)
    (h : d.select selector = .ok id) : d.tree.isElement id = true := by
  unfold select select? selectAll at h
  cases hq : d.tree.query selector with
  | error e =>
    rw [hq] at h
    cases h
  | ok found =>
    rw [hq] at h
    cases found with
    | nil => cases h
    | cons x found =>
      cases h
      unfold Tree.query at hq
      split at hq
      · have hfound := Except.ok.inj hq
        exact hd.mem_elements.1 (List.mem_filter.1 (hfound ▸ List.mem_cons_self ..)).1
      · cases hq

namespace Session

variable {σ : Type} {s s' s₁ s₂ : Session σ} {id : NodeId} {type selector : String}

theorem Reached.whole (h : s.Reached) : s.tree.Whole := by
  induction h with
  | create hd hs =>
    have hdocument := (ViewModel.created_of_create hs).document_eq
    rw [tree, hdocument, tree_listenAll]
    exact (Document.parsed hd).1
  | step _ hstep ih => exact (hstep.deeds ih).whole ih

/--
A page that can be shown: its roots lie apart and are no templates, all pipes that its bindings name are registered, no binding
writes bindings, and no copy is a template.
-/
structure Ready (s : Session σ) : Prop where
  apart : ∀ a ∈ s.model.view.roots, ∀ b ∈ s.model.view.roots, a ≠ b → ¬ s.tree.Inside a b
  plain : ∀ a ∈ s.model.view.roots, s.tree.hasAttr a (s.model.view.attributeName .foreach) = false
  settled : ∀ x, s.tree.InUse x → s.model.view.Settled s.tree x
  bare : ∀ x ∈ s.model.copies, s.tree.InUse x → s.tree.hasAttr x (s.model.view.attributeName .foreach) = false
  hidden : s.model.view.Unbound (Text.asciiLower s.model.view.options.hiddenAttribute)

theorem Ready.neat (h : s.Ready) : Neat s.model.view s.tree where
  apart := h.apart
  plain := h.plain
  tidy x hx := (h.settled x hx).tidy
  hidden hmark := by
    obtain ⟨kind, -, he⟩ := List.mem_map.1 hmark
    exact h.hidden kind he

/-- A pass over a page that can be shown succeeds. -/
theorem Ready.render_ok (h : s.Ready) (hs : s.Reached) (hm : s.render.2.tree.mutations < 2 ^ 32) : s.render.1 = .ok () := by
  have hm₀ := (hs.mutations_le (.single (.render s))).trans_lt hm
  obtain ⟨u, q, hq, -⟩ := (hs.orderly h.neat hm₀).reaches_render ⟨hs.whole, hs.sound.copies hm₀, h.bare⟩ h.settled hm
  rw [render_eq, hq]

/-- What a pass over a page that can be shown takes away lies in a copy on record, or below an element whose content is bound. -/
theorem Ready.exists_above (h : s.Ready) (hs : s.Reached) (hm : s.render.2.tree.mutations < 2 ^ 32) (hid : s.tree.isElement id = true)
    (hgone : ¬ s.render.2.tree.InUse id) :
    ∃ y, s.tree.Inside id y ∧ (y ∈ s.model.copies ∨ y ≠ id ∧ s.model.view.Refills s.tree y) :=
  exists_above_of_render (p := s.pass) hs.whole.wellFormed (fun x hx => (h.settled x hx).unwritten) h.hidden
    (hs.whole.inside_root (hs.whole.wellFormed.inUse_of_isElement hid)) hm hgone

theorem handler_eq_of_steps (h : Steps s s') : s'.model.handler = s.model.handler := by
  induction h with
  | refl => rfl
  | tail _ hstep ih =>
    refine Eq.trans ?_ ih
    cases hstep <;> rfl

/-! What the listeners of an event come to. -/

theorem failure_runHandler (hnever : s.model.handler.NeverFails) (event : Event) (handler : String) (value : Value) :
    failure? (s.runHandler fun ctx => s.model.handler.onEvent ctx event handler value).1 = none := by
  have hdone := hnever (s.model.context s.page.document) event handler value ⟨s.page.heap, false, s.page.user⟩
  unfold runHandler
  rcases hrun : (s.model.handler.onEvent (s.model.context s.page.document) event handler value).run.run
    ⟨s.page.heap, false, s.page.user⟩ with ⟨result, after⟩
  obtain rfl : result = .ok () := by rwa [hrun] at hdone
  rfl

/-- A listener does not fail if its handler does not, since every property of an element can be read. -/
theorem failure_respond (hnever : s.model.handler.NeverFails) {event : Event} (helement : s.tree.isElement event.target = true)
    (l : Listener) : (s.respond event l).failure = none := by
  unfold respond runListener
  split
  · next handler source _ =>
    obtain ⟨heap, cache, hargument⟩ := s.argument_eq source l.scope
    have hnever' : (s.argument source l.scope).2.model.handler.NeverFails := by rwa [hargument]
    exact failure_runHandler hnever' event handler _
  · next p path _ =>
    obtain ⟨value, hread⟩ := p.exists_read helement
    unfold writeBack
    rw [hread]
    simp only
    split <;> rfl

theorem failure_fire (hnever : s.model.handler.NeverFails) {target : NodeId} (helement : s.tree.isElement target = true)
    (type : String) (met : List (NodeId × Listener)) : ∀ r ∈ (fire type target met s).1, r.failure = none := by
  induction met generalizing s with
  | nil => exact fun r hr => by cases hr
  | cons m met ih =>
    obtain ⟨heap, user, cache, hrun, -⟩ := s.exists_computed ⟨type, target, m.1⟩ m.2
    rw [fire]
    refine List.forall_mem_cons.2 ⟨failure_respond hnever helement m.2, ?_⟩
    rw [hrun]
    exact ih hnever helement

/-- Firing an event comes to the pass that one of the listeners asks for, if there is one. -/
theorem exists_dispatch (hnever : s.model.handler.NeverFails) (hs : s.tree.WellFormed) (helement : s.tree.isElement id = true) (type : String) :
    ∃ heap user cache, s.dispatch id type =
      pass? ((s.responses id type).1.any (·.asks)) (s.computed heap user cache) := by
  obtain ⟨heap, user, cache, hafter⟩ := exists_computed_fire type id (s.met id type) s
  have hnone := failure_fire hnever helement type (s.met id type)
  refine ⟨heap, user, cache, ?_⟩
  rcases hr : s.responses id type with ⟨responses, after⟩
  have hfire : fire type id (s.met id type) s = (responses, after) := hr
  rw [hfire] at hafter hnone
  obtain rfl : after = s.computed heap user cache := hafter
  have hcounts : responses.any (·.counts) = responses.any (·.asks) := by
    rw [Bool.eq_iff_iff, List.any_eq_true, List.any_eq_true]
    exact exists_congr fun r => and_congr_right fun hr => by simp [Response.counts, hnone r hr]
  have hfirst : responses.findSome? (·.failure) = none := List.findSome?_eq_none_iff.2 hnone
  rw [dispatch_eq (hs.inUse_of_isElement helement).1 hr, hcounts, hfirst]
  rcases pass? _ _ with ⟨_ | ⟨⟩, shown⟩ <;> rfl

/-- A node that a pass may take away: it lies in a copy on record, or below an element whose content is bound. -/
def Exposed (s : Session σ) (id : NodeId) : Prop :=
  ∃ y, s.tree.Inside id y ∧ (y ∈ s.model.copies ∨ y ≠ id ∧ s.model.view.Refills s.tree y)

/-- Firing an event on a page that can be shown succeeds. The target is still there, unless a listener has asked for a pass. -/
theorem Ready.exists_dispatch (h : s.Ready) (hs : s.Reached) (hnever : s.model.handler.NeverFails)
    (helement : s.tree.isElement id = true) (hm : (s.dispatch id type).2.tree.mutations < 2 ^ 32) :
    ∃ s', s.dispatch id type = (.ok (), s') ∧ (s'.tree.isLive id = true → s'.tree.isElement id = true) ∧
      (s'.tree.isLive id ≠ true → (∃ r ∈ (s.responses id type).1, r.asks = true) ∧ s.Exposed id) := by
  have hid := hs.whole.wellFormed.inUse_of_isElement helement
  obtain ⟨heap, user, cache, heq⟩ := Session.exists_dispatch hnever hs.whole.wellFormed helement type
  cases hasks : (s.responses id type).1.any (·.asks) with
  | false =>
    rw [hasks] at heq
    exact ⟨_, heq, fun _ => helement, fun hlive => absurd hid.1 hlive⟩
  | true =>
    rw [hasks] at heq
    rw [heq] at hm
    have hstep : (s.computed heap user cache).Reached := hs.step (.compute s heap user cache)
    have hready : (s.computed heap user cache).Ready := ⟨h.apart, h.plain, h.settled, h.bare, h.hidden⟩
    have hok := hready.render_ok hstep hm
    refine ⟨(s.computed heap user cache).render.2, heq.trans (Prod.ext hok rfl), fun hlive => ?_, fun hlive => ⟨?_, ?_⟩⟩
    · have hlater := ((Step.render (s.computed heap user cache)).leads hstep.sound.wellFormed (Nat.le_add_left _ _)).later hm
      have hm' := lt_limit s.tree hm
      exact ((hlater.tree.elements id hid).resolve_right fun hex => hex.not_isLive hm' hlive).trans helement
    · simpa using hasks
    · exact hready.exists_above hstep hm helement fun hused => hlive hused.1

/-! What a user does to a control. -/

inductive Change where
  | value (text : String)
  | checked (on : Bool)

def Change.write (c : Change) (id : NodeId) (t : Tree) : Except Tree.Error Tree :=
  match c with
  | .value text => t.setValue id text
  | .checked on => t.setFlag id .checked on

/-- Changes the first selected control as a user does. -/
def change (s : Session σ) (selector : String) : Change → Outcome σ
  | .value text => s.changeValue selector text
  | .checked on => s.setChecked selector on

variable {c : Change} {t : Tree}

theorem change_eq (h : s.page.document.select selector = .ok id) (c : Change) :
    s.change selector c = andThen (s.edit (c.write id)) fun s => s.dispatchChange id := by
  cases c with
  | value text =>
    simp only [change, changeValue, onSelected, h]
    rfl
  | checked on =>
    simp only [change, setChecked, onSelected, h]
    rfl

theorem Change.exists_write (ht : t.WellFormed) (h : t.isElement id = true) (c : Change) : ∃ t', c.write id t = .ok t' := by
  cases c with
  | value text => exact Tree.exists_setValue_of_isElement ht h text
  | checked on => exact Tree.exists_setFlag_of_isElement h .checked on

/-- The state of a control is no binding. -/
theorem Change.writes {t' : Tree} (ht : t.WellFormed) (h : c.write id t = .ok t') :
    Tree.Writes t t' fun _ name => '-' ∉ name.toList := by
  cases c with
  | value text => exact (Tree.writes_setValue ht h).mono fun x n hn => by rw [hn]; decide
  | checked on => exact (Tree.writes_setFlag ht h).mono fun x n hn => by rw [hn.2]; decide

/-- The page with another tree. -/
def withTree (s : Session σ) (t : Tree) : Session σ :=
  { s with page := { s.page with document := { s.page.document with tree := t } } }

section written

variable (hwrites : Tree.Writes s.tree t fun _ name => '-' ∉ name.toList)

include hwrites

theorem inside_of_writes (x y : NodeId) : t.Inside x y = s.tree.Inside x y := by
  simp only [Tree.Inside, hwrites.parent?]

theorem entriesAt_of_writes (kind : BindingKind) (x : NodeId) :
    s.model.view.entriesAt kind t x = s.model.view.entriesAt kind s.tree x := by
  rw [View.entriesAt, hwrites.attr? fun hn => asciiLower_attributeName_ne s.model.view kind _ hn rfl, View.entriesAt]

/-- Where no bindings are written, a page that can be shown remains one. -/
theorem Ready.withTree (h : s.Ready) : (s.withTree t).Ready := by
  have hattr : ∀ x, t.hasAttr x (s.model.view.attributeName .foreach) = s.tree.hasAttr x (s.model.view.attributeName .foreach) :=
    fun x => by
      rw [Tree.hasAttr, hwrites.attr? fun hn => asciiLower_attributeName_ne s.model.view .foreach _ hn rfl, Tree.hasAttr]
  refine ⟨fun a ha b hb hne => ?_, fun a ha => (hattr a).trans (h.plain a ha), fun x hx => ?_,
    fun x hx hxt => (hattr x).trans (h.bare x hx ((hwrites.inUse x).1 hxt)), h.hidden⟩
  · exact inside_of_writes hwrites a b ▸ h.apart a ha b hb hne
  · exact (ofBindings_settled _).congr (h.settled x ((hwrites.inUse x).1 hx)) fun kind _ => entriesAt_of_writes hwrites kind x

theorem Exposed.of_writes (h : (s.withTree t).Exposed id) : s.Exposed id := by
  obtain ⟨y, hy, hcause⟩ := h
  refine ⟨y, inside_of_writes hwrites id y ▸ hy, hcause.imp_right fun ⟨hne, hrefills⟩ => ⟨hne, ?_⟩⟩
  rw [Refills, ← entriesAt_of_writes hwrites, ← entriesAt_of_writes hwrites]
  exact hrefills

end written

/--
Changing a control on a page that can be shown: the state of the control is set, and `input` is dealt with. If the control is still
there, so is `change`; if it is not, the result is an error. It can only have gone in a pass that a listener for `input` has asked
for, and only from a copy or from below an element whose content is bound.
-/
theorem Reached.change_outcome (hs : s.Reached) (hselect : s.page.document.select selector = .ok id)
    (hnever : s.model.handler.NeverFails) (hready : s.Ready)
    (hnext : ∀ s₁ s₂, s.edit (c.write id) = (.ok (), s₁) → s₁.dispatch id "input" = (.ok (), s₂) → s₂.Ready)
    (hm : (s.change selector c).2.tree.mutations < 2 ^ 32) :
    ∃ s₁ s₂, s.edit (c.write id) = (.ok (), s₁) ∧ s₁.dispatch id "input" = (.ok (), s₂) ∧
      (s₂.tree.isLive id = true → (s.change selector c).1 = .ok ()) ∧
      (s₂.tree.isLive id ≠ true → s.change selector c = (.error (.invalidTree (.unknownNode id)), s₂) ∧
        (∃ r ∈ (s₁.responses id "input").1, r.asks = true) ∧ s.Exposed id) := by
  have hw := hs.whole.wellFormed
  have helement := Document.isElement_of_select hs.whole hselect
  obtain ⟨t, ht⟩ := c.exists_write hw helement
  have hwrites := Change.writes hw ht
  have hedit : s.edit (c.write id) = (.ok (), s.withTree t) := by
    unfold edit
    rw [Document.edit, show c.write id s.page.document.tree = .ok t from ht]
    rfl
  have hs₁ : (s.withTree t).Reached := by
    refine hs.step (.control ?_)
    cases c with
    | value text => exact .inl ⟨id, text, ht⟩
    | checked on => exact .inr ⟨id, .checked, on, ht⟩
  have heq : s.change selector c = (s.withTree t).dispatchChange id := by
    rw [change_eq hselect c, hedit]
    rfl
  have hle : ((s.withTree t).dispatch id "input").2.tree.mutations ≤ (s.change selector c).2.tree.mutations := by
    rw [heq, dispatchChange]
    rcases hinput : (s.withTree t).dispatch id "input" with ⟨_ | u, s₂⟩
    · exact le_rfl
    · have hs₂ := hs₁.steps (Steps.dispatch .refl id "input")
      rw [hinput] at hs₂
      exact hs₂.mutations_le (Steps.dispatch .refl id "change")
  obtain ⟨s₂, hinput, hstill, hgone⟩ := (hready.withTree hwrites).exists_dispatch hs₁ hnever ((hwrites.isElement id).trans helement)
    (hle.trans_lt hm)
  have hchange : s.change selector c = s₂.dispatch id "change" := by
    rw [heq, dispatchChange, hinput]
    rfl
  have hsteps : Steps (s.withTree t) s₂ := by
    have h := Steps.dispatch (s := s.withTree t) .refl id "input"
    rwa [hinput] at h
  refine ⟨s.withTree t, s₂, hedit, hinput, fun hlive => ?_, fun hlive => ⟨?_, (hgone hlive).imp_right (Exposed.of_writes hwrites)⟩⟩
  · rw [hchange] at hm ⊢
    have hnever₂ : s₂.model.handler.NeverFails := by rwa [handler_eq_of_steps hsteps]
    obtain ⟨s₃, hok, -⟩ := (hnext _ s₂ hedit hinput).exists_dispatch (hs₁.steps hsteps) hnever₂ (hstill hlive) hm
    rw [hok]
  · rw [hchange, dispatch, if_pos (by simpa using hlive)]

end Session

/-! Both cases. -/

namespace View

instance (v : View) (name : String) : Decidable (v.Unbound name) :=
  decidable_of_iff (∀ kind ∈ [BindingKind.attr, .content, .value, .event, .foreach], Text.asciiLower (v.attributeName kind) ≠ name)
    ⟨fun h kind => h kind (by cases kind <;> simp), fun h kind _ => h kind⟩

instance (v : View) (t : Tree) (x : NodeId) : Decidable (v.Settled t x) :=
  decidable_of_iff
    ((∀ b ∈ v.entriesAt .attr t x, ∀ target ∈ b.target.toList, v.Unbound (Text.asciiLower target)) ∧
      ∀ kind ∈ [BindingKind.attr, .content], ∀ b ∈ v.entriesAt kind t x, ∀ name ∈ b.pipe.toList, (v.pipes.get? name).isSome)
    ⟨fun h => ⟨fun b hb target ht => h.1 b hb target (by simpa using ht),
        fun kind hk b hb name hn => Option.isSome_iff_ne_none.1 (h.2 kind hk b hb name (by simpa using hn))⟩,
      fun h => ⟨fun b hb target ht => h.unwritten b hb target (by simpa using ht),
        fun kind hk b hb name hn => Option.isSome_iff_ne_none.2 (h.known kind hk b hb name (by simpa using hn))⟩⟩

end View

namespace Session

/-- Whether a page with one root can be shown. -/
def ready (s : Session Unit) : Bool :=
  let v := s.model.view
  v.roots.length == 1 && v.roots.all (!s.tree.hasAttr · (v.attributeName .foreach)) &&
    s.tree.handles.all (fun x => decide (v.Settled s.tree x)) && s.model.copies.all (!s.tree.hasAttr · (v.attributeName .foreach)) &&
    decide (v.Unbound (Text.asciiLower v.options.hiddenAttribute))

theorem ready_of_check {s : Session Unit} (h : s.ready = true) : s.Ready := by
  simp only [ready, Bool.and_eq_true, beq_iff_eq, List.all_eq_true, Bool.not_eq_true', decide_eq_true_eq] at h
  obtain ⟨⟨⟨⟨hroots, hplain⟩, hsettled⟩, hbare⟩, hhidden⟩ := h
  obtain ⟨root, hroot⟩ := List.length_eq_one_iff.1 hroots
  refine ⟨fun a ha b hb hne => ?_, hplain, fun x hx => hsettled x (Tree.mem_handles_of_isLive hx.1), fun x hx _ => hbare x hx, hhidden⟩
  rw [hroot, List.mem_singleton] at ha hb
  exact absurd (ha.trans hb.symm) hne

/-- A handler that asks for a pass on every event. -/
def asksAlways : Handler Unit where
  onInit _ := return
  onEvent _ _ _ _ := HandlerContext.requestRender

/-- A model with a list of one record. -/
def oneRecord : Value × Heap :=
  let (record, h) := Heap.empty.newObject [("name", .string "a")]
  let (items, h) := h.newArray [record]
  h.newObject [("items", items)]

/-- Whether a page can be shown before a control is changed and after `input`, and whether the control is there then. -/
def changes (s : Session Unit) (selector : String) (c : Change) (there : Bool) : Bool :=
  (s.page.document.select selector).toOption.any fun id =>
    s.ready && decide ((s.change selector c).2.tree.mutations < 2 ^ 32) &&
      ((s.edit (c.write id)).2.dispatch id "input").2.ready &&
      ((s.edit (c.write id)).2.dispatch id "input").2.tree.isLive id == there

theorem of_changes {s : Session Unit} {c : Change} {there : Bool} (h : s.changes selector c there = true) :
    ∃ id, s.page.document.select selector = .ok id ∧ s.Ready ∧ (s.change selector c).2.tree.mutations < 2 ^ 32 ∧
      ∀ s₁ s₂, s.edit (c.write id) = (.ok (), s₁) → s₁.dispatch id "input" = (.ok (), s₂) →
        s₂.Ready ∧ s₂.tree.isLive id = there := by
  obtain ⟨id, hselect, hcheck⟩ := exists_of_toOption_any h
  simp only [Bool.and_eq_true, decide_eq_true_eq, beq_iff_eq] at hcheck
  obtain ⟨⟨⟨hready, hm⟩, hnext⟩, hlive⟩ := hcheck
  refine ⟨id, hselect, ready_of_check hready, hm, fun s₁ s₂ hedit hinput => ?_⟩
  rw [hedit, hinput] at hnext hlive
  exact ⟨ready_of_check hnext, hlive⟩

theorem exists_of_changes (html selector : String) (c : Change) (there : Bool)
    (h : (Document.parse html).toOption.any (fun d =>
      (ViewModel.create ⟨d, oneRecord.2, ()⟩ "vm" oneRecord.1 .standard .empty asksAlways).toOption.any fun s =>
        s.render.2.changes selector c there) = true) :
    ∃ s : Session Unit, s.Reached ∧ s.model.handler.NeverFails ∧ s.changes selector c there = true := by
  obtain ⟨d, hd, hcheck⟩ := exists_of_toOption_any h
  obtain ⟨s, hs, hcheck⟩ := exists_of_toOption_any hcheck
  refine ⟨s.render.2, .step (.create hd hs) (.render s), fun ctx event name value state => ?_, hcheck⟩
  have hhandler : s.model.handler = asksAlways := by
    unfold ViewModel.create at hs
    split at hs <;> cases hs
    rfl
  rw [show s.render.2.model.handler = asksAlways from hhandler]
  rfl

set_option maxRecDepth 10000 in
/-- A control that is written back at once is lost if it is in a copy, and it is not lost if it is in no list. -/
theorem change_outcome_both :
    (∃ (s : Session Unit) (id : NodeId), s.Reached ∧ s.page.document.select "li + li input" = .ok id ∧ s.Exposed id ∧
      (s.change "li + li input" (.value "x")).1 = .error (.invalidTree (.unknownNode id))) ∧
    ∃ (s : Session Unit) (id : NodeId), s.Reached ∧ s.page.document.select "input" = .ok id ∧
      (s.change "input" (.checked true)).1 = .ok () := by
  constructor
  · obtain ⟨s, hs, hnever, hchanges⟩ := exists_of_changes ("<ul ft-view-model='vm'><li vm-foreach='$vm.model.items'>" ++
      "<input vm-js-bind='value::$item.name' vm-real-time-bind></li></ul>") "li + li input" (.value "x") false (by decide +kernel)
    obtain ⟨id, hselect, hready, hm, hnext⟩ := of_changes hchanges
    obtain ⟨s₁, s₂, hedit, hinput, -, hgone⟩ := hs.change_outcome hselect hnever hready
      (fun s₁ s₂ hedit hinput => (hnext s₁ s₂ hedit hinput).1) hm
    obtain ⟨herror, -, hexposed⟩ := hgone (by simp [(hnext s₁ s₂ hedit hinput).2])
    exact ⟨s, id, hs, hselect, hexposed, by rw [herror]⟩
  · obtain ⟨s, hs, hnever, hchanges⟩ := exists_of_changes
      "<div ft-view-model='vm'><input vm-js-bind='checked::$vm.model.items' vm-real-time-bind></div>" "input" (.checked true) true
      (by decide +kernel)
    obtain ⟨id, hselect, hready, hm, hnext⟩ := of_changes hchanges
    obtain ⟨s₁, s₂, hedit, hinput, hthere, -⟩ := hs.change_outcome hselect hnever hready
      (fun s₁ s₂ hedit hinput => (hnext s₁ s₂ hedit hinput).1) hm
    exact ⟨s, id, hs, hselect, hthere (hnext s₁ s₂ hedit hinput).2⟩

end Session

end ViewBinding
