import ViewBinding.Proofs.Session.Lists

/-! What firing an event comes to. Every listener that the event meets runs once, on the session that the listeners
before it leave, and what they respond decides on the pass over the page and on the result. -/
namespace ViewBinding

/-- The error of a result. -/
def failure? {α : Type} : Except Error α → Option Error
  | .error e => some e
  | .ok _ => none

namespace Session

variable {σ : Type} {s : Session σ}

/-- What a listener responds: whether it wrote to the model or asked for a pass over the page, and its error. -/
structure Response where
  asks : Bool
  failure : Option Error

/-- Whether a listener asks for a pass and does not fail. -/
def Response.counts (r : Response) : Bool := r.asks && r.failure.isNone

/-- The result of a handler, and the state that it leaves. -/
def handled (s : Session σ) (event : Event) (handler : String) (value : Value) : Except Error Unit × HandlerState σ :=
  (s.model.handler.onEvent (s.model.context s.page.document) event handler value).run.run
    ⟨s.page.heap, false, s.page.user⟩

/-- Whether a listener writes to the model or asks for a pass; a handler may ask before it fails. -/
def asks (s : Session σ) (event : Event) (l : Listener) : Bool :=
  match l.action with
  | .handle handler source =>
    ((s.argument source l.scope).2.handled event handler (s.argument source l.scope).1).2.renderRequested
  | .writeBack p path => (s.writeBack event.target p path l.scope).1.toOption.getD false

def respond (s : Session σ) (event : Event) (l : Listener) : Response :=
  ⟨s.asks event l, failure? (s.runListener event l).1⟩

/-- A listener that does not fail returns what it asks for. -/
theorem fst_runListener (s : Session σ) (event : Event) (l : Listener) :
    (s.runListener event l).1 = (s.respond event l).failure.elim (.ok (s.asks event l)) .error := by
  obtain ⟨name, owner, slot, action, scope⟩ := l
  cases action with
  | handle handler source =>
    have hrun : ∀ x : Except Error Unit × HandlerState σ,
        x.1.map (fun _ => x.2.renderRequested) =
          (failure? (x.1.map fun _ => x.2.renderRequested)).elim (.ok x.2.renderRequested) .error := by
      rintro ⟨_ | _, _⟩ <;> rfl
    exact hrun ((s.argument source scope).2.handled event handler (s.argument source scope).1)
  | writeBack p path =>
    have hwrite : ∀ x : Except Error Bool, x = (failure? x).elim (.ok (x.toOption.getD false)) .error := by
      rintro (_ | _) <;> rfl
    exact hwrite (s.writeBack event.target p path scope).1

/-- Runs listeners one after the other: what they respond, and the session that they leave. -/
def fire (type : String) (target : NodeId) : List (NodeId × Listener) → Session σ → List Response × Session σ
  | [], s => ([], s)
  | m :: met, s =>
    let rest := fire type target met (s.runListener ⟨type, target, m.1⟩ m.2).2
    (s.respond ⟨type, target, m.1⟩ m.2 :: rest.1, rest.2)

/-- One listener adds its response to what has been asked for. -/
theorem step_eq (type : String) (target : NodeId) (progress : Progress) (s : Session σ) (m : NodeId × Listener) :
    step type target (progress, s) m =
      (⟨progress.render || (s.respond ⟨type, target, m.1⟩ m.2).counts,
        progress.failure.or (s.respond ⟨type, target, m.1⟩ m.2).failure⟩,
        (s.runListener ⟨type, target, m.1⟩ m.2).2) := by
  have hres := s.fst_runListener ⟨type, target, m.1⟩ m.2
  have hasks : (s.respond ⟨type, target, m.1⟩ m.2).asks = s.asks ⟨type, target, m.1⟩ m.2 := rfl
  generalize s.respond ⟨type, target, m.1⟩ m.2 = r at hres hasks
  rcases hrun : s.runListener ⟨type, target, m.1⟩ m.2 with ⟨result, s'⟩
  rw [hrun] at hres
  obtain ⟨asks, _ | e⟩ := r
  · cases hres
    simp [step, hrun, Response.counts, ← hasks]
  · cases hres
    simp [step, hrun, Response.counts]

/-- What a run of listeners has asked for is what one of them has asked for, and its error is the first one. -/
theorem foldl_step (type : String) (target : NodeId) (met : List (NodeId × Listener)) (progress : Progress)
    (s : Session σ) :
    met.foldl (step type target) (progress, s) =
      (⟨progress.render || (fire type target met s).1.any Response.counts,
        progress.failure.or ((fire type target met s).1.findSome? Response.failure)⟩, (fire type target met s).2) := by
  induction met generalizing progress s with
  | nil => simp [fire]
  | cons m met ih =>
    rw [List.foldl_cons, step_eq, ih]
    cases hf : (s.respond ⟨type, target, m.1⟩ m.2).failure <;> cases progress.failure <;>
      simp [fire, Bool.or_assoc, hf]

/-- What the listeners that an event meets respond, and the session that they leave. -/
def responses (s : Session σ) (target : NodeId) (type : String) : List Response × Session σ :=
  fire type target (s.met target type) s

/-- The pass over the page after the listeners, if one is to follow. -/
def pass? (follows : Bool) (s : Session σ) : Outcome σ := if follows then s.render else (.ok (), s)

/--
What firing an event is to come to: a pass follows if any listener asked for one, also one that failed afterwards, and
the first error of a listener is returned, whatever the pass returns.
-/
def promised (s : Session σ) (target : NodeId) (type : String) : Outcome σ :=
  let (responses, after) := s.responses target type
  let shown := pass? (responses.any (·.asks)) after
  ((responses.findSome? (·.failure)).elim shown.1 .error, shown.2)

theorem length_fire (type : String) (target : NodeId) (met : List (NodeId × Listener)) (s : Session σ) :
    (fire type target met s).1.length = met.length := by
  induction met generalizing s with
  | nil => rfl
  | cons m met ih => simp [fire, ih]

/-- A listener that fails does not ask for a pass, and the error of the pass comes before the error of a listener. -/
theorem dispatch_eq {target : NodeId} (hlive : s.tree.isLive target = true) {type : String}
    {responses : List Response} {after : Session σ} (hr : s.responses target type = (responses, after)) :
    s.dispatch target type =
      andThen (pass? (responses.any (·.counts)) after) fun shown =>
        ((responses.findSome? (·.failure)).elim (.ok ()) .error, shown) := by
  have hfire : fire type target (s.met target type) s = (responses, after) := hr
  rw [dispatch, if_neg (by simpa using hlive), foldl_step, hfire]
  simp only [Bool.false_or, Option.none_or, pass?]
  congr 1
  funext shown
  cases responses.findSome? (·.failure) <;> rfl

/--
Firing an event on a node: every listener that the event meets runs once. One pass follows if a listener has asked for
it and has not failed, and no pass otherwise; the result is the error of the pass or else the first error of a listener.
So this is what firing an event is to come to, but for two cases: only listeners that failed have asked for a pass,
or both a listener and the pass have failed.
-/
theorem dispatch_outcome (s : Session σ) {target : NodeId} (hlive : s.tree.isLive target = true) (type : String)
    {responses : List Response} {after shown : Session σ} {result : Except Error Unit}
    (hr : s.responses target type = (responses, after))
    (hp : pass? (responses.any (·.counts)) after = (result, shown)) :
    responses.length = (s.met target type).length ∧
      (s.dispatch target type).2 = shown ∧
      failure? (s.dispatch target type).1 = (failure? result).or (responses.findSome? (·.failure)) ∧
      (responses.any (·.asks) = responses.any (·.counts) →
        (failure? result).isNone ∨ (responses.findSome? (·.failure)).isNone →
          s.dispatch target type = s.promised target type) := by
  have hlength : responses.length = (s.met target type).length := by
    rw [← length_fire type target (s.met target type) s, show fire type target _ s = (responses, after) from hr]
  rw [dispatch_eq hlive hr, hp, promised, hr]
  refine ⟨hlength, ?_⟩
  cases result with
  | error e =>
    refine ⟨rfl, rfl, fun hasks herr => ?_⟩
    obtain herr | herr := herr
    · cases herr
    · simp [hasks, hp, Option.isNone_iff_eq_none.1 herr, andThen]
  | ok u =>
    refine ⟨rfl, ?_, fun hasks _ => by simp [hasks, hp, andThen]⟩
    cases responses.findSome? (·.failure) <;> simp [andThen, failure?]

/-- A handler that does what its name says: it asks for a pass, it fails, or it does the one and then the other. -/
def asksOrFails : Handler Unit where
  onInit _ := return
  onEvent _ _ handler _ := do
    if handler != "fail" then HandlerContext.requestRender
    if handler != "ask" then throw (.handlerNotImplemented handler)

/-- A page with the view model `vm` and this handler. -/
def ofHtmlAsking (html : String) (model : Value × Heap) : Except Error (Session Unit) :=
  match Document.parse html with
  | .error e => .error e
  | .ok d => ViewModel.create ⟨d, model.2, ()⟩ "vm" model.1 .standard .empty asksOrFails

theorem reached_ofHtmlAsking {html : String} {model : Value × Heap} {s : Session Unit}
    (h : ofHtmlAsking html model = .ok s) : s.Reached := by
  unfold ofHtmlAsking at h
  split at h
  · cases h
  · next hd => exact .create hd h

/-- The wording of the error of a result. -/
def shownError (o : Outcome σ) : Option String := (failure? o.1).map (·.message)

/-- Whether a click meets a listener that fails and one that asks for a pass, and the pass does not fail. -/
def failsAndAsks (s : Session Unit) (target : NodeId) : Bool :=
  let (responses, after) := s.responses target "click"
  s.tree.isLive target && responses.length == 2 && responses.any (·.asks) && responses.any (·.counts) &&
    (failure? (pass? (responses.any (·.counts)) after).1).isNone &&
    shownError (s.dispatch target "click") == some "event handler not implemented: fail"

theorem exists_target_of_check (html : String) (check : Session Unit → NodeId → Bool)
    (h : (ofHtmlAsking html (.null, .empty)).toOption.any (fun s => s.tree.elements.any (check s)) = true) :
    ∃ s, ofHtmlAsking html (.null, .empty) = .ok s ∧ ∃ target, check s target = true := by
  obtain ⟨s, hs, hany⟩ := exists_of_toOption_any h
  obtain ⟨target, -, ht⟩ := List.any_eq_true.1 hany
  exact ⟨s, hs, target, ht⟩

set_option maxRecDepth 10000 in
/-- A listener that asks for a pass and one that fails: there is a pass, and the error of the listener is returned. -/
theorem dispatch_outcome_failed : ∃ s : Session Unit, s.Reached ∧ ∃ target, s.tree.isLive target = true ∧
    (s.met target "click").length = 2 ∧ s.dispatch target "click" = s.promised target "click" ∧
      shownError (s.dispatch target "click") = some "event handler not implemented: fail" := by
  obtain ⟨s, hs, target, hcheck⟩ := exists_target_of_check
    "<div ft-view-model='vm' vm-event-bind='click::fail'><p vm-event-bind='click::ask'></p></div>" failsAndAsks
    (by decide +kernel)
  simp only [failsAndAsks, Bool.and_eq_true, beq_iff_eq] at hcheck
  obtain ⟨⟨⟨⟨⟨hlive, hlength⟩, hasks⟩, hcounts⟩, hpass⟩, herr⟩ := hcheck
  obtain ⟨hmet, -, -, hpromised⟩ := s.dispatch_outcome hlive "click" rfl rfl
  exact ⟨s, reached_ofHtmlAsking hs, target, hlive, hmet ▸ hlength, hpromised (hasks.trans hcounts.symm) (.inl hpass), herr⟩

set_option maxRecDepth 10000 in
/-- The two cases: a handler fails after it has asked for a pass, and a pass fails after a handler has failed. -/
theorem dispatch_not_promised :
    (∃ s : Session Unit, s.Reached ∧ ∃ target, s.tree.isLive target = true ∧
      (s.dispatch target "click").2.page.document.dump ≠ (s.promised target "click").2.page.document.dump) ∧
    ∃ s : Session Unit, s.Reached ∧ ∃ target, s.tree.isLive target = true ∧
      shownError (s.dispatch target "click") ≠ shownError (s.promised target "click") := by
  constructor
  · obtain ⟨s, hs, target, hcheck⟩ := exists_target_of_check
      "<p ft-view-model='vm' vm-event-bind='click::both' vm-content-bind='$vm.name'></p>"
      (fun s target => s.tree.isLive target &&
        (s.dispatch target "click").2.page.document.dump != (s.promised target "click").2.page.document.dump)
      (by decide +kernel)
    simp only [Bool.and_eq_true, bne_iff_ne] at hcheck
    exact ⟨s, reached_ofHtmlAsking hs, target, hcheck⟩
  · obtain ⟨s, hs, target, hcheck⟩ := exists_target_of_check
      ("<div ft-view-model='vm' vm-event-bind='click::fail'>" ++
        "<p vm-event-bind='click::ask' vm-content-bind='$vm.name::nope'></p></div>")
      (fun s target => s.tree.isLive target &&
        shownError (s.dispatch target "click") != shownError (s.promised target "click"))
      (by decide +kernel)
    simp only [Bool.and_eq_true, bne_iff_ne] at hcheck
    exact ⟨s, reached_ofHtmlAsking hs, target, hcheck⟩

end Session

end ViewBinding
