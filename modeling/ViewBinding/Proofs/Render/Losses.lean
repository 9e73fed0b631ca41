import ViewBinding.Proofs.Document.Loss
import ViewBinding.Proofs.Render.CopiesBound
import ViewBinding.Proofs.Render.ListsOfPass
import ViewBinding.Proofs.Render.TearDown

/-! What a pass loses. Lists are torn down by dropping their copies with all listeners on them, so whatever a pass does, nodes that
somebody listens to are lost only where the content of an element is replaced. -/
namespace ViewBinding

open ViewBinding.Document ViewBinding.Tree

namespace Tree

variable {t t' : Tree} {id : NodeId}

/-- An element is written, and nothing is taken away; or it gets another content. -/
theorem Rewrite.edit_or_refill (h : t.Rewrite id t') (ht : t.WellFormed) :
    t.Edit id [] t' ∨ ∃ content, t' = ((t.clear id).fill id content).touch := by
  cases h with
  | setAttr h => exact .inl (.write (writes_setAttr ht h))
  | removeAttr h => exact .inl (.write (writes_removeAttr ht h))
  | setFlag h => exact .inl (.write (writes_setFlag ht h))
  | setValue h => exact .inl (.write (writes_setValue ht h))
  | setTextContent h => exact .inr (refill_of_setTextContent h)
  | replaceInner _ h => exact .inr ⟨_, refill_of_replaceInner h⟩

end Tree

/-- What happens to a document is made of acts. -/
def Document.Acted (d d' : Document) : Prop := ∃ lost, d.Acts lost d'

namespace Document

variable {d d' d'' : Document}

theorem Acted.refl (d : Document) : Acted d d := ⟨[], .refl⟩

theorem Acted.single {lost : List NodeId} (h : Act d lost d') : Acted d d' := ⟨lost, .single h⟩

theorem Acted.trans (h : Acted d d') (h' : Acted d' d'') : Acted d d'' :=
  let ⟨_, h⟩ := h
  let ⟨_, h'⟩ := h'
  ⟨_, h.trans h'⟩

theorem Acted.whole (h : Acted d d') (hd : d.tree.Whole) : d'.tree.Whole :=
  let ⟨_, h⟩ := h
  h.whole hd

theorem Acted.rewrite {id : NodeId} {t : Tree} (hd : d.tree.Whole) (h : d.tree.Rewrite id t) : Acted d { d with tree := t } := by
  rcases h.edit_or_refill hd.wellFormed with hedit | ⟨content, rfl⟩
  · exact .single (.edit hedit)
  · exact .single (.refill h.isElement content)

theorem acted_foldl {α : Type} {f : Document → α → Document} {xs : List α} (h : ∀ (d : Document), ∀ x ∈ xs, Acted d (f d x))
    (d : Document) : Acted d (xs.foldl f d) := by
  induction xs generalizing d with
  | nil => exact .refl d
  | cons x xs ih => exact (h d x (by simp)).trans (ih (fun d y hy => h d y (by simp [hy])) (f d x))

end Document

namespace Render

variable {α β : Type} {id : NodeId} {p : Pass}

theorem acted_bind {x : Render α} {f : α → Render β} (hx : Acted p.document (x.exec p).2.document)
    (hf : ∀ v q, x.exec p = (.ok v, q) → Acted p.document q.document → Acted q.document ((f v).exec q).2.document) :
    Acted p.document ((x >>= f).exec p).2.document := by
  rw [exec_bind]
  rcases h : x.exec p with ⟨e | v, q⟩ <;> rw [h] at hx
  · exact hx
  · exact hx.trans (hf v q h hx)

theorem acted_forM {xs : List α} {f : α → Render Unit} (hp : p.tree.Whole)
    (h : ∀ x ∈ xs, ∀ q : Pass, q.tree.Whole → Acted q.document ((f x).exec q).2.document) :
    Acted p.document ((xs.forM f).exec p).2.document := by
  induction xs generalizing p with
  | nil => exact .refl p.document
  | cons x xs ih =>
    exact acted_bind (h x (by simp) p hp) fun _ q _ hq => ih (hq.whole hp) fun y hy => h y (by simp [hy])

/-- An operation on an element, if it does anything. -/
theorem acted_edit {f : Tree → Except Tree.Error Tree} (hp : p.tree.Whole)
    (h : ∀ t, f p.tree = .ok t → t = p.tree ∨ p.tree.Rewrite id t) : Acted p.document ((edit f).exec p).2.document := by
  rw [exec_edit]
  split
  · next t ht =>
    rcases h t ht with rfl | hr
    · exact .refl p.document
    · exact .rewrite hp hr
  · exact .refl p.document

theorem acted_evaluateOrBlank (source : String) (scope : Scope) (p : Pass) :
    Acted p.document ((evaluateOrBlank source scope).exec p).2.document := by
  rw [exec_evaluateOrBlank]
  exact .refl p.document

end Render

namespace View

open Render Pass

variable {v : View} {id : NodeId} {p : Pass} {scope : Scope}

theorem acted_piped (pipe : Option String) (value : Value) (p : Pass) :
    Acted p.document ((v.piped pipe value).exec p).2.document := by
  rw [exec_piped]
  exact .refl p.document

theorem acted_bindAttribute (hp : p.tree.Whole) (b : Binding) :
    Acted p.document ((v.bindAttribute scope id b).exec p).2.document := by
  unfold bindAttribute
  split
  · exact .refl p.document
  refine acted_bind (acted_evaluateOrBlank ..) fun value q _ hq => acted_bind (acted_piped ..) fun shown r _ hr => ?_
  have hr' := hr.whole (hq.whole hp)
  split
  · exact acted_edit hr' fun t ht => .inr (.setAttr ht)
  · split
    · exact acted_edit hr' fun t ht => .inr (.removeAttr ht)
    · rw [exec_bind, exec_view]
      exact acted_edit hr' fun t ht => .inr (.setAttr ht)

theorem acted_bindContentEntry (hp : p.tree.Whole) (b : Binding) :
    Acted p.document ((v.bindContentEntry scope id b).exec p).2.document := by
  unfold bindContentEntry
  refine acted_bind (acted_evaluateOrBlank ..) fun value q _ hq => acted_bind (acted_piped ..) fun shown r _ hr => ?_
  rw [exec_bind, exec_view]
  exact acted_edit (hr.whole (hq.whole hp)) fun t ht => Rewrite.of_setInnerMarkup ht

theorem acted_bindProperty (hp : p.tree.Whole) (b : Binding) :
    Acted p.document ((bindProperty scope id b).exec p).2.document := by
  unfold bindProperty
  split
  · exact .refl p.document
  · next property _ =>
    refine acted_bind (acted_evaluateOrBlank ..) fun value q _ hq => ?_
    rw [exec_bind, exec_view]
    exact acted_edit (hq.whole hp) fun t ht => Rewrite.of_write property ht

theorem acted_sync (hp : p.tree.Whole) (ids : List NodeId) : Acted p.document ((v.sync scope ids).exec p).2.document := by
  unfold sync
  refine acted_bind (acted_forM hp fun id _ q hq => ?_) fun _ q _ hq => ?_
  · rw [bindAttributes, exec_bind, exec_tree]
    exact acted_forM hq fun b _ r hr => acted_bindAttribute hr b
  refine acted_bind (acted_forM (hq.whole hp) fun id _ r hr => ?_) fun _ r _ hr =>
    acted_forM (hr.whole (hq.whole hp)) fun id _ s hs => ?_
  · rw [bindContent, exec_bind, exec_tree]
    exact acted_forM hr fun b _ r hr => acted_bindContentEntry hr b
  · rw [bindProperties, exec_bind, exec_tree]
    exact acted_forM hs fun b _ r hr => acted_bindProperty hr b

theorem acted_dropCopy (hp : p.tree.Whole) {up : NodeId} (hup : p.tree.parent? id = some up) :
    Acted p.document ((dropCopy id).exec p).2.document := by
  obtain ⟨t, ht⟩ := hp.wellFormed.exists_remove hup
  rw [exec_dropCopy, Render.exec_edit_ok (p := forgotten p id) ht]
  exact .single (.drop hup ht)

/-- Only elements have entries, so only elements are listened to. -/
theorem acted_listen (v : View) (scope : Option ItemScope) (d : Document) (id : NodeId) : Acted d (v.listen scope d id) := by
  unfold listen
  cases he : d.tree.isElement id with
  | true =>
    generalize v.writeBackListeners d.tree id scope ++ v.handlerListeners d.tree id scope = listeners
    induction listeners generalizing d with
    | nil => exact .refl d
    | cons l listeners ih => exact (Acted.single (.install he l)).trans (ih { d with listeners := d.listeners.install id l } he)
  | false =>
    have hnone : d.tree.element? id = none := by simpa [isElement] using he
    have hattr : ∀ name, d.tree.attr? id name = none := fun name => by rw [attr?, hnone, Option.bind_none]
    simp [writeBackListeners, handlerListeners, entriesAt, hattr, Acted.refl]

theorem acted_forM_dropCopy {own : List NodeId} {up : NodeId} (hp : p.tree.Whole) (hnodup : own.Nodup)
    (hup : ∀ c ∈ own, p.tree.parent? c = some up) : Acted p.document ((own.forM dropCopy).exec p).2.document := by
  induction own generalizing p with
  | nil => exact .refl p.document
  | cons id own ih =>
    obtain ⟨hid, hnodup⟩ := List.nodup_cons.1 hnodup
    have hidup := hup id (by simp)
    refine acted_bind (acted_dropCopy hp hidup) fun _ q hq hacted => ih (hacted.whole hp) hnodup fun c hc => ?_
    obtain ⟨t, ht⟩ := hp.wellFormed.exists_remove hidup
    rw [exec_dropCopy, Render.exec_edit_ok (p := forgotten p id) ht] at hq
    cases hq
    exact parent?_of_remove hp.wellFormed hidup (hup c (by simp [hc])) (fun he => hid (he ▸ hc)) ht

theorem acted_tearDown (hp : p.tree.Whole) {template up : NodeId} (hup : p.tree.parent? template = some up) (cls : String) :
    Acted p.document ((tearDown template cls).exec p).2.document := by
  have hw := hp.wellFormed
  have hsub := staleCopies_sublist hup p.copies cls
  unfold tearDown
  rw [exec_bind, exec_view]
  exact acted_forM_dropCopy hp ((hw.nodup_children up).sublist hsub) fun c hc => hw.mem_children_iff.1 (hsub.subset hc)

/-- A way of making lists that is made of acts. -/
def ActsList (make : NodeId → Scope → Render Unit) : Prop :=
  ∀ template scope (p : Pass), p.tree.Whole → Acted p.document ((make template scope).exec p).2.document

theorem acted_bindCopy {nested : NodeId → Scope → Render Unit} (hn : ActsList nested) (hp : p.tree.Whole) (c : NodeId)
    (item : ItemScope) : Acted p.document ((v.bindCopy nested c item).exec p).2.document := by
  unfold bindCopy
  rw [exec_bind, exec_view]
  refine acted_bind (acted_sync hp _) fun _ q _ hq => acted_bind ?_ fun _ r _ hr => ?_
  · rw [exec_editDocument]
    exact acted_foldl (fun d id _ => v.acted_listen _ d id) q.document
  · exact acted_forM (hr.whole (hq.whole hp)) fun template _ s hs => hn template item.scope s hs

theorem acted_makeCopies {fuel : Nat} (hn : ActsList (v.renderListWithin fuel)) {template anchor up : NodeId} (hp : p.tree.Whole)
    (ht : p.tree.InUse template) (helement : p.tree.isElement template = true) (hup : p.tree.parent? anchor = some up)
    (scope : Scope) (cls : String) (items : List Value) (index : Nat) :
    Acted p.document ((v.makeCopies (v.renderListWithin fuel) template scope cls items index anchor).exec p).2.document := by
  induction items generalizing p index anchor up with
  | nil => exact .refl p.document
  | cons item items ih =>
    unfold makeCopies
    obtain ⟨c, t, hc, -, hedit⟩ := exec_insertCopy (v := v) hp helement hup
    have hfresh := inserted_of_exec hp.wellFormed hc
    have hedited := hedit.edited hp
    have hstays := hedited.stays template ht List.not_mem_nil
    have hq := hedited.whole
    rw [exec_bind_ok hc]
    refine (Acted.single (.edit hedit)).trans (acted_bind (p := p.withTree t) (acted_bindCopy hn hq c _) fun _ r hr hacted => ?_)
    -- the copy is bound within, so its place and the template stay as they are
    have hout : ¬ t.Inside template c := fun hin =>
      hfresh.unused template ((hq.wellFormed.mem_preorder_iff_inside hfresh.inUse).2 hin) ht
    have hworks := works_bindCopy_fenceBeside (v := v) (p := p.withTree t) hq hfresh.inUse hfresh.plain fuel
      (.within scope item index)
    have htemplate : Stays up (p.withTree t) _ template :=
      stays_bindCopy (v := v) hq hfresh.inUse hfresh.plain fuel (.within scope item index) hstays.1 hout
    rw [hr] at hworks htemplate
    have hr' := hacted.whole hq
    refine acted_bind (acted_edit hr' fun t ht => Rewrite.of_addClass ht) fun _ s hs hclass => ?_
    obtain ⟨t', ht', rfl⟩ := View.exec_edit_ok hs
    have hwrites := writes_addClass hr'.wellFormed ht'
    rw [exec_bind, exec_modify]
    have hself := outside_self hfresh.inUse
    obtain ⟨up', hanchor, hcup, -⟩ := hfresh.next
    have helement' := (hwrites.isElement template).trans
      (htemplate.isElement.trans ((hedited.isElement_eq ht hstays.1).trans helement))
    have hcup' := (hwrites.parent? c).trans ((hworks.confined.parent? c hself).trans hcup)
    exact ih (p := { r.withTree t' with copies := c :: r.copies }) (hclass.whole hr')
      ((hwrites.inUse template).2 htemplate.inUse) helement' hcup' _

theorem actsList_renderListWithin (v : View) (fuel : Nat) : ActsList (v.renderListWithin fuel) := by
  induction fuel with
  | zero => exact fun _ _ p _ => .refl p.document
  | succ fuel ih =>
    intro template scope p hp
    unfold renderListWithin
    rw [exec_bind, exec_tree]
    simp only
    split
    · exact .refl p.document
    next hconnected =>
    have hused : p.tree.InUse template := hp.inUse_iff.2 (by simpa using hconnected)
    split
    · exact .refl p.document
    next expression he =>
    rw [exec_bind, exec_iterate]
    simp only
    split
    · exact .refl p.document
    next items _ =>
    have helement := isElement_of_hasAttr (hasAttr_of_listExpression? he)
    obtain ⟨up, hup⟩ := exists_parent_of_hasAttr hp.wellFormed (hasAttr_of_listExpression? he) (by simpa using hconnected)
    have hp' : (p.evaluated expression scope).tree.Whole := hp
    obtain ⟨q, hq, htorn⟩ := tornDown_tearDown hp' hup (v.copyClass expression)
    have htear := acted_tearDown hp' hup (v.copyClass expression)
    rw [hq] at htear
    rw [exec_bind_ok hq]
    have hq' := htorn.rid.whole
    refine htear.trans (acted_bind ?_ fun _ r _ hr => acted_edit (hr.whole hq') fun t ht => .inr (.setAttr ht))
    rcases htorn.thinned.spent template hused with hstays | hspent
    · obtain ⟨-, hparent, hel⟩ := htorn.thinned.old template hstays
      exact acted_makeCopies ih hq' hstays (hel.trans helement) (hparent.trans hup) ..
    · rw [exec_makeCopies_of_not_isLive hspent.not_isLive]
      exact .refl q.document

/-- What a pass does to the document is made of acts, whether it fails or not. -/
theorem acted_render (v : View) (hp : p.tree.Whole) : Acted p.document (v.render.exec p).2.document := by
  refine acted_forM hp fun root _ q hq => ?_
  unfold renderRoot
  rw [exec_bind, exec_tree]
  simp only
  split
  · rw [exec_bind, exec_view]
    refine acted_bind (acted_sync hq _) fun _ r _ hr => acted_forM (hr.whole hq) fun template _ s hs => ?_
    exact actsList_renderListWithin v _ template v.scope s hs
  · exact .refl q.document

theorem acted_listenAll (v : View) (d : Document) : Acted d (v.listenAll d) :=
  acted_foldl (fun d _ _ => acted_foldl (fun d id _ => v.acted_listen none d id) d) d

end View

end ViewBinding
