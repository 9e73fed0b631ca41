import ViewBinding.Proofs.Document.Run
import ViewBinding.Proofs.Page.Run
import ViewBinding.Proofs.Session.Edit

/-! Bubbling. An event meets the listeners on its target and on every node above it, in the order in which they were
installed on each node, and each of them runs once on what the listeners before it have left. -/
namespace ViewBinding

open ViewBinding.Document (lastingFor)

namespace Session

variable {σ : Type} {s : Session σ} {type : String} {target : NodeId} {met more : List (NodeId × Listener)}

theorem fire_append (type : String) (target : NodeId) (met more : List (NodeId × Listener)) (s : Session σ) :
    fire type target (met ++ more) s =
      ((fire type target met s).1 ++ (fire type target more (fire type target met s).2).1,
        (fire type target more (fire type target met s).2).2) := by
  induction met generalizing s with
  | nil => rfl
  | cons m met ih => rw [List.cons_append, fire, ih, fire, List.cons_append]

/--
Listeners that run one after the other, each of them on the session that the one before it has left, whether that one
has failed or not. Until the last one has run the document is what it was. A handler gets the value of its argument, which
is evaluated in the scope that the listener was installed with.
-/
structure Fired (s : Session σ) (type : String) (target : NodeId) (met : List (NodeId × Listener)) (states : Nat → Session σ)
    (responses : List Response) : Prop where
  start : states 0 = s
  next : ∀ n m, met[n]? = some m → states (n + 1) = ((states n).runListener ⟨type, target, m.1⟩ m.2).2
  once : responses.length = met.length
  responds : ∀ n m, met[n]? = some m → responses[n]? = some ((states n).respond ⟨type, target, m.1⟩ m.2)
  document : ∀ n ≤ met.length, (states n).page.document = s.page.document
  argument : ∀ n m handler source, met[n]? = some m → m.2.action = .handle handler (some source) →
    let (result, heap) := evaluate source ((m.2.scope.map (·.scope)).getD s.model.view.scope) (states n).page.heap
    ∃ cache, (states n).runListener ⟨type, target, m.1⟩ m.2 =
      ((states n).computed heap (states n).page.user cache).runHandler fun ctx =>
        s.model.handler.onEvent ctx ⟨type, target, m.1⟩ handler (result.toOption.getD (.string ""))

theorem runListener_handle (s : Session σ) (event : Event) {l : Listener} {handler source : String}
    (h : l.action = .handle handler (some source)) :
    let (result, heap) := evaluate source ((l.scope.map (·.scope)).getD s.model.view.scope) s.page.heap
    s.runListener event l = (s.computed heap s.page.user (s.model.cache.parse source).2).runHandler fun ctx =>
      s.model.handler.onEvent ctx event handler (result.toOption.getD (.string "")) := by
  simp only [runListener, h, Session.argument, s.model.cache.evaluate_eq]
  cases (evaluate source ((l.scope.map (·.scope)).getD s.model.view.scope) s.page.heap).1 <;> rfl

theorem fired (s : Session σ) (type : String) (target : NodeId) (met : List (NodeId × Listener)) :
    Fired s type target met (fun n => (fire type target (met.take n) s).2) (fire type target met s).1 where
  start := rfl
  next n m hm := by
    rw [List.take_add_one, hm, fire_append]
    rfl
  once := length_fire ..
  responds n m hm := by
    obtain ⟨hn, rfl⟩ := List.getElem?_eq_some_iff.1 hm
    have hsplit : met.take n ++ met[n] :: met.drop (n + 1) = met := by
      rw [List.getElem_cons_drop, List.take_append_drop]
    have hlength : (fire type target (met.take n) s).1.length = n := by
      rw [length_fire, List.length_take, min_eq_left hn.le]
    have hall := fire_append type target (met.take n) (met[n] :: met.drop (n + 1)) s
    rw [hsplit] at hall
    rw [hall, List.getElem?_append_right hlength.le, hlength, Nat.sub_self]
    rfl
  document n _ := by
    obtain ⟨heap, user, cache, h⟩ := exists_computed_fire type target (met.take n) s
    rw [h]
    rfl
  argument n m handler source _ haction := by
    obtain ⟨heap, user, cache, h⟩ := exists_computed_fire type target (met.take n) s
    have hrun := runListener_handle (fire type target (met.take n) s).2 ⟨type, target, m.1⟩ haction
    simp only [h] at hrun ⊢
    exact ⟨_, hrun⟩

end Session

namespace Page

variable {σ : Type}

open Session

/--
Firing an event on a page with any history. The way of the event leads from the target to its parent and so on up to the
document. It meets the listeners of the view model for the event whose installation has lasted, on each node in the order
of their installation and none of them twice. They run one after the other, and what they respond decides on what follows.
-/
theorem Run.dispatch_bubbles {html : String} {d : Document} {heap : Heap} {user : σ} {changes : List Document.Change}
    {s : Session σ} (hrun : Run ⟨d, heap, user⟩ changes s.page) (hd : Document.parse html = .ok d) {target : NodeId}
    (hlive : s.tree.isLive target = true) (type : String) :
    s.tree.IsWay (target :: s.tree.ancestors target) ∧ (target :: s.tree.ancestors target).Nodup ∧
      (s.tree.InUse target → (target :: s.tree.ancestors target).getLast? = some Tree.root) ∧
      s.met target type =
        (target :: s.tree.ancestors target).flatMap (fun id => (lastingFor s.model.name type changes id).map (id, ·)) ∧
      ((s.met target type).map fun m => (m.1, m.2.slot)).Nodup ∧
      ∃ states responses, Fired s type target (s.met target type) states responses ∧
        s.dispatch target type = andThen (pass? (responses.any (·.counts)) (states (s.met target type).length)) fun shown =>
          ((responses.findSome? (·.failure)).elim (.ok ()) .error, shown) := by
  obtain ⟨hwhole, hempty⟩ := Document.parsed hd
  have ht : s.tree.Whole := (hrun.document.kept hwhole).whole
  have hway := s.tree.isWay_ancestors target
  have hnodup := hway.nodup ht.wellFormed
  have hlast : s.tree.InUse target → (target :: s.tree.ancestors target).getLast? = some Tree.root := fun hused =>
    (ht.consistent.ways target hused).2.2
  have hmet : s.met target type =
      (target :: s.tree.ancestors target).flatMap fun id => (lastingFor s.model.name type changes id).map (id, ·) := by
    unfold met ListenerStore.matching lastingFor
    simp only [hrun.document.on_eq hempty]
  refine ⟨hway, hnodup, hlast, hmet, ?_, _, _, s.fired type target (s.met target type), ?_⟩
  · rw [hmet]
    exact Document.nodup_flatMap_lastingFor s.model.name type changes hnodup
  · rw [List.take_length]
    exact dispatch_eq hlive rfl

/-- Whether a click meets two listeners, of which the first one fails. -/
def failsFirst (s : Session Unit) (target : NodeId) : Bool :=
  s.tree.isLive target && (s.met target "click").length == 2 &&
    (s.met target "click").head?.any fun m => (s.respond ⟨"click", target, m.1⟩ m.2).failure.isSome

set_option maxRecDepth 10000 in
/-- A listener fails on the target, and one on its parent runs nevertheless. -/
theorem dispatch_bubbles_failed : ∃ (html : String) (d : Document) (heap : Heap) (changes : List Document.Change) (s : Session Unit)
    (target : NodeId), Document.parse html = .ok d ∧ Run ⟨d, heap, ()⟩ changes s.page ∧ failsFirst s target = true ∧
      ∃ states responses, Fired s "click" target (s.met target "click") states responses ∧ responses.length = 2 := by
  obtain ⟨s, hs, target, hcheck⟩ := exists_target_of_check
    "<div ft-view-model='vm' vm-event-bind='click::ask'><p vm-event-bind='click::fail'></p></div>" failsFirst
    (by decide +kernel)
  have hreached : s.page.Reached := by
    unfold ofHtmlAsking at hs
    split at hs
    · cases hs
    · next hd => exact .step (.parse hd _ _) (.create hs)
  obtain ⟨html, d, heap, user, changes, hd, hrun⟩ := hreached.exists_history
  have hlive := hcheck
  simp only [failsFirst, Bool.and_eq_true, beq_iff_eq] at hlive
  obtain ⟨-, -, -, -, -, states, responses, hfired, -⟩ := hrun.dispatch_bubbles hd hlive.1.1 "click"
  exact ⟨html, d, heap, changes, s, target, hd, hrun, hcheck, states, responses, hfired, hfired.once.trans hlive.1.2⟩

end Page

end ViewBinding
