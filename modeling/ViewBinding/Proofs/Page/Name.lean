import ViewBinding.Proofs.Page.Run
import ViewBinding.Proofs.Session.Edit
import ViewBinding.Proofs.Value.Reach

/-! The name in the object of a view model. The application cannot set it, and passes and the arguments of handlers leave it
as it is. Only a write-back may overwrite it, with a path that leads to the object of the view model. -/
namespace ViewBinding

namespace Heap

variable {h h' h'' : Heap} {v w value : Value} {key other : String}

/-- An object in the heap stays there, with the value of one of its entries. -/
def KeepsEntry (v : Value) (key : String) (h h' : Heap) : Prop := h.Holds v → h'.Holds v ∧ h'.get v key = h.get v key

namespace KeepsEntry

theorem refl (v : Value) (key : String) (h : Heap) : KeepsEntry v key h h := fun hv => ⟨hv, rfl⟩

theorem trans (hk : KeepsEntry v key h h') (hk' : KeepsEntry v key h' h'') : KeepsEntry v key h h'' := fun hv => by
  obtain ⟨hv', hget⟩ := hk hv
  obtain ⟨hv'', hget'⟩ := hk' hv'
  exact ⟨hv'', hget'.trans hget⟩

theorem of_extends (hx : h.Extends h') : KeepsEntry v key h h' := fun hv =>
  ⟨(hx.keeps (· = v)).holds hv, (hx.keeps (· = v)).get v rfl hv key⟩

/-- Writing another entry keeps this one. -/
theorem of_set (hset : h.set w other value = .ok h') (hne : w = v → other ≠ key) : KeepsEntry v key h h' := by
  rintro ⟨r, rfl, hr⟩
  refine ⟨⟨r, rfl, hr.trans_le (grown_of_set hset).objects_le⟩, ?_⟩
  by_cases hw : w = .object r
  · rw [hw] at hset
    exact get_set_object_of_ne hset (hne hw).symm
  · exact get_set_of_ne hset (Ne.symm hw) key

end KeepsEntry

/-- A new object is in the heap, with its entries. -/
theorem holds_newObject (h : Heap) (entries : List (String × Value)) : (h.newObject entries).2.Holds (h.newObject entries).1 :=
  ⟨_, rfl, by simp [newObject]⟩

theorem get_newObject (h : Heap) (entries : List (String × Value)) (key : String) :
    (h.newObject entries).2.get (h.newObject entries).1 key = ((OrderedMap.ofList entries).get? key).getD .undefined := by
  simp [newObject, get, fields]

end Heap

/-- A handler that keeps the name in the object that it gets. -/
def Handler.SparesName {σ : Type} (handler : Handler σ) : Prop :=
  ∀ (ctx : HandlerContext) (x : Handling σ Unit),
    x = handler.onInit ctx ∨ (∃ event name value, x = handler.onEvent ctx event name value) →
      ∀ state : HandlerState σ, Heap.KeepsEntry ctx.object "name" state.heap (x.run.run state).2.heap

namespace Session

variable {σ : Type} {s s' s'' : Session σ}

/-- A listener that writes back to the name in the object of the view model. -/
def Renames (s : Session σ) (l : Listener) : Prop :=
  ∃ p path first names, l.action = .writeBack p path ∧ View.pathParts path = first :: (names ++ ["name"]) ∧
    View.follow? s.page.heap (s.model.view.pathStart first l.scope) names = some s.model.view.object

/-- None of the listeners that run one after the other writes back to the name when it is its turn. -/
def NoneRenames (type : String) (target : NodeId) : List (NodeId × Listener) → Session σ → Prop
  | [], _ => True
  | m :: met, s => ¬ s.Renames m.2 ∧ NoneRenames type target met (s.runListener ⟨type, target, m.1⟩ m.2).2

/-- What is done to a session, unless it touches the name: no expression is forgotten, and without assignments the name stays. -/
structure Mild (s s' : Session σ) : Prop where
  view : s'.model.view = s.model.view
  handler : s'.model.handler = s.model.handler
  parsed : s.model.cache.parsed ⊆ s'.model.cache.parsed
  heap : s.model.handler.SparesName → s'.model.cache.AssignmentFree →
    Heap.KeepsEntry s.model.view.object "name" s.page.heap s'.page.heap

namespace Mild

theorem refl (s : Session σ) : Mild s s := ⟨rfl, rfl, List.Subset.refl _, fun _ _ => .refl _ _ _⟩

theorem trans (h : Mild s s') (h' : Mild s' s'') : Mild s s'' where
  view := h'.view.trans h.view
  handler := h'.handler.trans h.handler
  parsed := List.Subset.trans h.parsed h'.parsed
  heap hspares hfree := by
    have hfirst := h.heap hspares fun entry hentry => hfree entry (h'.parsed hentry)
    have hsecond := h'.heap (h.handler ▸ hspares) hfree
    rw [h.view] at hsecond
    exact hfirst.trans hsecond

end Mild

theorem mild_render (s : Session σ) : Mild s s.render.2 := by
  have hgrows := (View.stepwise_render s.model.view s.pass).grows
  exact ⟨rfl, rfl, hgrows.parsed, fun _ hfree => .of_extends (hgrows.heap hfree)⟩

theorem mild_pass? (follows : Bool) (s : Session σ) : Mild s (pass? follows s).2 := by
  cases follows with
  | false => exact .refl s
  | true => exact s.mild_render

theorem mild_runHandler (s : Session σ) {x : HandlerContext → Handling σ Unit}
    (hx : x = s.model.handler.onInit ∨ ∃ event name value, x = fun ctx => s.model.handler.onEvent ctx event name value) :
    Mild s (s.runHandler x).2 := by
  refine ⟨rfl, rfl, List.Subset.refl _, fun hspares _ => ?_⟩
  refine hspares (s.model.context s.page.document) _ ?_ ⟨s.page.heap, false, s.page.user⟩
  rcases hx with rfl | ⟨event, name, value, rfl⟩
  · exact .inl rfl
  · exact .inr ⟨event, name, value, rfl⟩

theorem mild_argument (s : Session σ) (source : Option String) (scope : Option ItemScope) : Mild s (s.argument source scope).2 := by
  have hx := s.extends_argument source scope
  cases source with
  | none => exact .refl s
  | some source =>
    refine ⟨rfl, rfl, ?_, fun _ hfree => .of_extends (hx hfree)⟩
    rw [argument, s.model.cache.evaluate_eq]
    exact s.model.cache.subset_parse source

/-- A write-back writes one entry, where its path leads. -/
theorem mild_writeBack {l : Listener} (hl : ¬ s.Renames l) {p : Property} {path : String} (haction : l.action = .writeBack p path)
    (target : NodeId) : Mild s (s.writeBack target p path l.scope).2 := by
  unfold writeBack
  split
  · exact .refl s
  · split
    · next heap hwrite =>
      refine ⟨rfl, rfl, List.Subset.refl _, fun _ _ => ?_⟩
      obtain ⟨first, names, last, owner, hparts, hfollow, hset⟩ := View.writePath?_eq_some hwrite
      refine .of_set hset fun howner hlast => hl ⟨p, path, first, names, haction, ?_, howner ▸ hfollow⟩
      rw [hparts, hlast]
    · exact .refl s

/-- A path that leads to the name is not refused: the name is overwritten with what the element shows. -/
theorem get_writeBack_of_renames {l : Listener} (hl : s.Renames l) (hobject : s.page.heap.Holds s.model.view.object)
    {p : Property} {path : String} (haction : l.action = .writeBack p path) {target : NodeId} {value : Value}
    (hread : p.read s.page.document.tree target = .ok value) :
    (s.writeBack target p path l.scope).2.page.heap.get s.model.view.object "name" = value := by
  obtain ⟨p', path', first, names, haction', hparts, hfollow⟩ := hl
  obtain ⟨rfl, rfl⟩ : p' = p ∧ path' = path := by simpa [haction'] using haction
  obtain ⟨heap, hset⟩ := hobject.exists_set "name" value
  obtain ⟨second, rest, hcons⟩ : ∃ second rest, names ++ ["name"] = second :: rest := by
    cases names <;> simp
  have hwrite : s.model.view.writePath? s.page.heap path' l.scope value = some heap := by
    simp only [View.writePath?, hparts, hcons]
    rw [← hcons]
    simp [hfollow, hset, Except.toOption]
  simp only [writeBack, hread, hwrite]
  exact Heap.get_set_self hset

theorem mild_runListener {l : Listener} (hl : ¬ s.Renames l) (event : Event) : Mild s (s.runListener event l).2 := by
  unfold runListener
  split
  · next handler source _ =>
    have hargument := s.mild_argument source l.scope
    exact hargument.trans (mild_runHandler _ (.inr ⟨event, handler, _, rfl⟩))
  · next p path haction => exact mild_writeBack hl haction event.target

theorem mild_fire {type : String} {target : NodeId} {met : List (NodeId × Listener)} (h : NoneRenames type target met s) :
    Mild s (fire type target met s).2 := by
  induction met generalizing s with
  | nil => exact .refl s
  | cons m met ih => exact (mild_runListener h.1 _).trans (ih h.2)

theorem mild_dispatch {target : NodeId} {type : String} (h : NoneRenames type target (s.met target type) s) :
    Mild s (s.dispatch target type).2 := by
  by_cases hlive : s.tree.isLive target = true
  · rcases hr : s.responses target type with ⟨responses, after⟩
    have hafter : Mild s after := by
      have hfire := mild_fire h
      rwa [show fire type target (s.met target type) s = (responses, after) from hr] at hfire
    have hpass := mild_pass? (responses.any (·.counts)) after
    rw [dispatch_eq hlive hr]
    rcases hp : pass? (responses.any (·.counts)) after with ⟨_ | _, shown⟩ <;> rw [hp] at hpass
    · exact hafter.trans hpass
    · exact hafter.trans hpass
  · rw [dispatch, if_pos (by simpa using hlive)]
    exact .refl s

theorem mild_writeObject (s : Session σ) {key : String} (hkey : key ≠ "name") (value : Value) : Mild s (s.writeObject key value).2 := by
  unfold writeObject
  split
  · next hset => exact ⟨rfl, rfl, List.Subset.refl _, fun _ _ => .of_set hset fun _ => hkey⟩
  · exact .refl s

theorem mild_setProperty (s : Session σ) (key : String) (value : Value) : Mild s (s.setProperty key value).2 := by
  unfold setProperty
  split_ifs with hkey
  · exact .refl s
  · exact s.mild_writeObject hkey value

theorem mild_initialise (s : Session σ) : Mild s s.initialise.2 := by
  have hrun := s.mild_runHandler (.inl rfl)
  unfold initialise
  rcases hr : s.runHandler s.model.handler.onInit with ⟨_ | _, after⟩ <;> rw [hr] at hrun
  · exact hrun
  · exact hrun.trans after.mild_render

theorem mild_edit (s : Session σ) (f : Tree → Except Tree.Error Tree) : Mild s (s.edit f).2 := by
  unfold edit
  split
  · exact ⟨rfl, rfl, List.Subset.refl _, fun _ _ => .refl _ _ _⟩
  · exact .refl s

/-- Events that are fired on a node one after the other, until one fails, meet no listener that writes back to the name. -/
def EventsSpareName (id : NodeId) : List String → Session σ → Prop
  | [], _ => True
  | type :: types, s =>
    NoneRenames type id (s.met id type) s ∧ ∀ s', s.dispatch id type = (.ok (), s') → EventsSpareName id types s'

/-- What is asked of a view model fires no event that meets such a listener. -/
def SparesName (s : Session σ) : Act → Prop
  | .dispatch target type => EventsSpareName target [type] s
  | .click selector => ∀ id, s.page.document.select selector = .ok id → EventsSpareName id ["click"] s
  | .typeText selector text => ∀ id s', s.page.document.select selector = .ok id →
    s.edit (·.setValue id text) = (.ok (), s') → EventsSpareName id ["input"] s'
  | .changeValue selector value => ∀ id s', s.page.document.select selector = .ok id →
    s.edit (·.setValue id value) = (.ok (), s') → EventsSpareName id ["input", "change"] s'
  | .setChecked selector checked => ∀ id s', s.page.document.select selector = .ok id →
    s.edit (·.setFlag id .checked checked) = (.ok (), s') → EventsSpareName id ["input", "change"] s'
  | .initialise | .render | .setModel _ | .setProperty _ _ => True

theorem mild_andThen {o : Outcome σ} {f : Session σ → Outcome σ} (ho : Mild s o.2)
    (hf : ∀ s', o = (.ok (), s') → Mild s' (f s').2) : Mild s (andThen o f).2 := by
  rcases o with ⟨_ | u, s'⟩
  · exact ho
  · exact ho.trans (hf s' rfl)

theorem mild_onSelected {selector : String} {f : NodeId → Outcome σ}
    (hf : ∀ id, s.page.document.select selector = .ok id → Mild s (f id).2) : Mild s (s.onSelected selector f).2 := by
  unfold onSelected
  split
  · next id hid => exact hf id hid
  · exact .refl s

theorem mild_dispatchChange {id : NodeId} (h : EventsSpareName id ["input", "change"] s) : Mild s (s.dispatchChange id).2 :=
  mild_andThen (mild_dispatch h.1) fun s' hs' => mild_dispatch (h.2 s' hs').1

theorem mild_act {a : Act} (h : s.SparesName a) : Mild s (s.act a).2 := by
  cases a with
  | initialise => exact s.mild_initialise
  | render => exact s.mild_render
  | setModel model => exact s.mild_writeObject (by decide) model
  | setProperty key value => exact s.mild_setProperty key value
  | dispatch target type => exact mild_dispatch h.1
  | click selector => exact mild_onSelected fun id hid => mild_dispatch (h id hid).1
  | typeText selector text =>
    exact mild_onSelected fun id hid => mild_andThen (s.mild_edit _) fun s' hs' => mild_dispatch (h id s' hid hs').1
  | changeValue selector value =>
    exact mild_onSelected fun id hid => mild_andThen (s.mild_edit _) fun s' hs' => mild_dispatchChange (h id s' hid hs')
  | setChecked selector checked =>
    exact mild_onSelected fun id hid => mild_andThen (s.mild_edit _) fun s' hs' => mild_dispatchChange (h id s' hid hs')

/-- Does what is asked one after the other, errors or not. -/
def actAll : List Act → Session σ → Session σ
  | [], s => s
  | a :: acts, s => actAll acts (s.act a).2

def AllSpareName : List Act → Session σ → Prop
  | [], _ => True
  | a :: acts, s => s.SparesName a ∧ AllSpareName acts (s.act a).2

theorem mild_actAll {acts : List Act} (h : AllSpareName acts s) : Mild s (actAll acts s) := by
  induction acts generalizing s with
  | nil => exact .refl s
  | cons a acts ih => exact (mild_act h.1).trans (ih h.2)

/--
Whatever is asked of a view model, in any order, on any page, it keeps its name in its object: handlers may compute and
replace the model, and what they and the passes do may fail. Only an event may take it away, if it meets a listener that
writes back, and whose path leads to this object and ends in `name`.
-/
theorem name_kept {page : Page σ} {name : String} {model : Value} {options : BindingOptions} {pipes : PipeRegistry}
    {handler : Handler σ} (hs : ViewModel.create page name model options pipes handler = .ok s) (hhandler : handler.SparesName)
    {acts : List Act} (hspares : AllSpareName acts s) (hfree : (actAll acts s).model.cache.AssignmentFree) :
    (actAll acts s).model.name = name ∧
      (actAll acts s).page.heap.get (actAll acts s).model.view.object "name" = .string (actAll acts s).model.name := by
  have hmild := mild_actAll hspares
  have hcreated := ViewModel.created_of_create hs
  have hnamed : s.page.heap.Holds s.model.view.object ∧ s.page.heap.get s.model.view.object "name" = .string name ∧
      s.model.handler = handler := by
    unfold ViewModel.create at hs
    split at hs
    · cases hs
    · cases hs
      exact ⟨Heap.holds_newObject .., Heap.get_newObject .., rfl⟩
  obtain ⟨hholds, hname, rfl⟩ := hnamed
  have hkept := (hmild.heap hhandler hfree hholds).2
  rw [ViewModel.name, hmild.view, hkept, hname, hcreated.name_eq]
  exact ⟨rfl, rfl⟩

theorem sparesName_none : (Handler.none σ).SparesName := by
  rintro ctx x (rfl | ⟨event, name, value, rfl⟩) state
  · exact .refl _ _ _
  · exact .refl _ _ _

/-- Whether two values are objects, and not the same one. -/
def objectsDiffer : Value → Value → Bool
  | .object r, .object r' => r != r'
  | _, _ => false

/-- Whether a path that ends in `name` leads to another object than the one of the view model. -/
def leadsElsewhere (s : Session σ) (l : Listener) : Bool :=
  match l.action with
  | .handle _ _ => true
  | .writeBack _ path =>
    match View.pathParts path with
    | [] => true
    | first :: names => names.getLast? != some "name" ||
      (View.follow? s.page.heap (s.model.view.pathStart first l.scope) names.dropLast).all (objectsDiffer s.model.view.object)

theorem not_renames_of_leadsElsewhere {l : Listener} (h : s.leadsElsewhere l = true) : ¬ s.Renames l := by
  rintro ⟨p, path, first, names, haction, hparts, hfollow⟩
  simp only [leadsElsewhere, haction, hparts, List.getLast?_concat, List.dropLast_concat, hfollow, Option.all_some] at h
  cases hobject : s.model.view.object <;> simp [objectsDiffer, hobject] at h

/-- Whether all listeners lead elsewhere when it is their turn. -/
def allLeadElsewhere (type : String) (target : NodeId) : List (NodeId × Listener) → Session σ → Bool
  | [], _ => true
  | m :: met, s => s.leadsElsewhere m.2 && allLeadElsewhere type target met (s.runListener ⟨type, target, m.1⟩ m.2).2

theorem noneRenames_of_allLeadElsewhere {type : String} {target : NodeId} {met : List (NodeId × Listener)}
    (h : allLeadElsewhere type target met s = true) : NoneRenames type target met s := by
  induction met generalizing s with
  | nil => trivial
  | cons m met ih =>
    obtain ⟨hfirst, hrest⟩ := Bool.and_eq_true_iff.1 h
    exact ⟨not_renames_of_leadsElsewhere hfirst, ih hrest⟩

/-- A model that has a name, too. -/
def namedModel : Value × Heap := Heap.empty.newObject [("name", .string "a")]

/-- Whether a control writes back to the name of the model when its value is changed, and no event leads to the other name. -/
def changesOwnName (s : Session Unit) (id : NodeId) (text : String) : Bool :=
  let changed := (s.edit (·.setValue id text)).2
  let heard := (changed.dispatch id "input").2
  (s.page.document.select "input").toOption == some id && allLeadElsewhere "input" id (changed.met id "input") changed &&
    (heard.met id "change").length == 1 && allLeadElsewhere "change" id (heard.met id "change") heard &&
    (s.changeValue "input" text).2.model.cache.parsed.all (·.2.assignmentFree) &&
    (s.changeValue "input" text).2.textIn "name" == some text

set_option maxRecDepth 10000 in
/-- A control changes the name of the model. The view model keeps its own, and it does not get another one from the application. -/
theorem name_kept_changed : ∃ s s' : Session Unit, s.Reached ∧
    actAll [.render, .setProperty "name" (.string "x"), .changeValue "input" "b"] s = s' ∧ s'.textIn "name" = some "b" ∧
    s'.page.heap.get s'.model.view.object "name" = .string "vm" := by
  have h : (ofHtml "<input ft-view-model='vm' vm-js-bind='value::$vm.model.name'>" namedModel).toOption.any (fun s =>
      s.tree.elements.any (changesOwnName s.render.2 · "b")) = true := by
    decide +kernel
  obtain ⟨s, hs, hany⟩ := exists_of_toOption_any h
  obtain ⟨id, -, hcheck⟩ := List.any_eq_true.1 hany
  simp only [changesOwnName, Bool.and_eq_true, beq_iff_eq, List.all_eq_true] at hcheck
  obtain ⟨⟨⟨⟨⟨hselect, hinput⟩, -⟩, hchange⟩, hfree⟩, htext⟩ := hcheck
  have hcreate : ∃ d, ViewModel.create ⟨d, namedModel.2, ()⟩ "vm" namedModel.1 .standard .empty (.none Unit) = .ok s := by
    unfold ofHtml at hs
    split at hs
    · cases hs
    · exact ⟨_, hs⟩
  obtain ⟨d, hcreate⟩ := hcreate
  have hspares : AllSpareName [.render, .setProperty "name" (.string "x"), .changeValue "input" "b"] s := by
    refine ⟨trivial, trivial, fun id' s₁ hid' hs₁ => ?_, trivial⟩
    rw [show s.render.2.page.document.select "input" = .ok id' from hid'] at hselect
    obtain rfl : id' = id := Option.some.inj hselect
    obtain rfl : (s.render.2.edit (·.setValue id' "b")).2 = s₁ := congrArg Prod.snd hs₁
    refine ⟨noneRenames_of_allLeadElsewhere hinput, fun s₂ hs₂ => ?_⟩
    obtain rfl := congrArg Prod.snd hs₂
    exact ⟨noneRenames_of_allLeadElsewhere hchange, fun _ _ => trivial⟩
  have hkept := name_kept hcreate sparesName_none hspares hfree
  exact ⟨s, _, reached_ofHtml hs, rfl, htext, hkept.2.trans (by rw [hkept.1])⟩

end Session

end ViewBinding
