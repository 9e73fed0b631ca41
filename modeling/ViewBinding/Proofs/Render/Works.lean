import ViewBinding.Proofs.Document.Deeds
import ViewBinding.Proofs.Render.Lists

/-! What a pass does to the document. Bringing a part of the page up to date changes nothing but what is below the node that
the part lies in, so what is found in a node is changed within the node, and outside of every fence that it is outside of. -/
namespace ViewBinding

open ViewBinding.Tree

namespace Pass

/-- What a part of a pass does: deeds outside of a fence, all of them below `a`. Copies come on record while they are there. -/
structure Works (F : Fence) (a : NodeId) (p q : Pass) : Prop where
  deeds : p.document.Deeds F q.document
  confined : Confined a p.tree q.tree
  copies : ∀ x, F.kept x → (x ∈ q.copies ↔ x ∈ p.copies)
  recorded : ∀ x ∈ q.copies, x ∈ p.copies ∨ ∃ d, p.document.Deeds F d ∧ d.tree.InUse x ∧ d.Deeds F q.document

variable {F : Fence} {a c id up : NodeId} {p q r : Pass}

namespace Works

theorem around (h : Works F a p q) (hp : F.Around p.tree) : F.Around q.tree := (h.deeds.around hp).1

theorem keeps (h : Works F a p q) (hp : F.Around p.tree) : F.Keeps p.tree q.tree := (h.deeds.around hp).2

theorem stands (h : Works F a p q) (hp : F.Stands p.tree) : F.Stands q.tree := (h.deeds.stands hp).1

theorem shelters (h : Works F a p q) (hp : F.Stands p.tree) : F.Shelters p.tree q.tree := (h.deeds.stands hp).2

/-- Where the records stay as they are, the deeds are all there is. -/
theorem of_deeds (hdeeds : p.document.Deeds F q.document) (hconfined : Confined a p.tree q.tree) (hc : q.copies = p.copies) :
    Works F a p q :=
  ⟨hdeeds, hconfined, fun x _ => by rw [hc], fun x hx => .inl (hc ▸ hx)⟩

theorem refl (F : Fence) (a : NodeId) (p : Pass) : Works F a p p := .of_deeds .refl (.refl a p.tree) rfl

theorem of_document_eq (F : Fence) (a : NodeId) (h : q.document = p.document) (hc : q.copies = p.copies) : Works F a p q := by
  refine .of_deeds (h ▸ .refl) ?_ hc
  rw [show q.tree = p.tree from congrArg Document.tree h]
  exact .refl a p.tree

theorem trans (h : Works F a p q) (h' : Works F a q r) : Works F a p r where
  deeds := h.deeds.trans h'.deeds
  confined := h.confined.trans h'.confined
  copies x hx := (h'.copies x hx).trans (h.copies x hx)
  recorded x hx := by
    rcases h'.recorded x hx with hx | ⟨d, hd, hused, hd'⟩
    · rcases h.recorded x hx with hx | ⟨d, hd, hused, hd'⟩
      · exact .inl hx
      · exact .inr ⟨d, hd, hused, hd'.trans h'.deeds⟩
    · exact .inr ⟨d, h.deeds.trans hd, hused, hd'⟩

theorem mono (h : Works F c p q) (hp : F.Stands p.tree) (hc : p.tree.InUse c) (hca : p.tree.Inside c a) : Works F a p q :=
  { h with confined := h.confined.mono hp.whole.wellFormed (h.stands hp).whole.wellFormed hc hca }

/-- A node that is there, but not behind the fence, may be put on record. -/
theorem record (a : NodeId) (hc : p.tree.InUse c) (hkept : ¬ F.kept c) : Works F a p { p with copies := c :: p.copies } where
  deeds := .refl
  confined := .refl a p.tree
  copies x hx := by
    have hne : x ≠ c := fun he => hkept (he ▸ hx)
    simp [hne]
  recorded x hx := by
    rcases List.mem_cons.1 hx with rfl | hx
    · exact .inr ⟨p.document, .refl, hc, .refl⟩
    · exact .inl hx

theorem rewrite {t : Tree} (hp : F.Stands p.tree) (hin : p.tree.Within a id) (hid : ¬ F.kept id) (h : p.tree.Rewrite id t) :
    Works F a p (p.withTree t) := by
  obtain ⟨gone, hedit⟩ := h.edit hp.whole.wellFormed
  have hused := hp.whole.wellFormed.inUse_of_isElement h.isElement
  exact .of_deeds (.single (.rewrite hid h)) ((hedit.edited hp.whole).confined hp.whole (hin hused)) rfl

theorem relist {t : Tree} (hp : F.Stands p.tree) (hin : p.tree.Inside up a) (hup : ¬ F.spared up) (h : p.tree.Relist up t) :
    Works F a p (p.withTree t) := by
  obtain ⟨gone, hedit⟩ := h.edit hp.whole.wellFormed
  exact .of_deeds (.single (.relist hup h)) ((hedit.edited hp.whole).confined hp.whole hin) rfl

end Works

end Pass

namespace Render

open Pass

variable {α β : Type} {F : Fence} {a id : NodeId} {p : Pass}

theorem works_bind {x : Render α} {f : α → Render β} (hx : Works F a p (x.exec p).2)
    (hf : ∀ v q, x.exec p = (.ok v, q) → Works F a p q → Works F a q ((f v).exec q).2) :
    Works F a p ((x >>= f).exec p).2 := by
  rw [exec_bind]
  rcases h : x.exec p with ⟨e | v, q⟩ <;> rw [h] at hx
  · exact hx
  · exact hx.trans (hf v q h hx)

theorem works_forM {xs : List α} {f : α → Render Unit}
    (h : ∀ x ∈ xs, ∀ q, Works F a p q → Works F a q ((f x).exec q).2) : Works F a p ((xs.forM f).exec p).2 := by
  suffices hall : ∀ q, Works F a p q → Works F a q ((xs.forM f).exec q).2 from hall p (.refl F a p)
  induction xs with
  | nil => exact fun q _ => .refl F a q
  | cons x xs ih =>
    intro q hq
    refine works_bind (h x (by simp) q hq) fun _ r _ hr => ?_
    exact ih (fun y hy => h y (by simp [hy])) r (hq.trans hr)

/-- An operation on an element, if it does anything. -/
theorem works_edit {f : Tree → Except Tree.Error Tree} (hp : F.Stands p.tree) (hin : p.tree.Within a id) (hid : ¬ F.kept id)
    (h : ∀ t, f p.tree = .ok t → t = p.tree ∨ p.tree.Rewrite id t) : Works F a p ((edit f).exec p).2 := by
  rw [exec_edit]
  split
  · next t ht =>
    rcases h t ht with rfl | hr
    · exact .refl F a p
    · exact .rewrite hp hin hid hr
  · exact .refl F a p

theorem works_evaluateOrBlank (F : Fence) (a : NodeId) (source : String) (scope : Scope) (p : Pass) :
    Works F a p ((evaluateOrBlank source scope).exec p).2 := by
  rw [exec_evaluateOrBlank]
  exact .of_document_eq F a rfl rfl

end Render

namespace View

open Render Pass

variable {v : View} {F : Fence} {a id : NodeId} {p : Pass} {scope : Scope}

theorem works_piped (F : Fence) (a : NodeId) (pipe : Option String) (value : Value) (p : Pass) :
    Works F a p ((v.piped pipe value).exec p).2 := by
  rw [exec_piped]
  exact .refl F a p

theorem works_bindAttribute (hp : F.Stands p.tree) (hin : p.tree.Within a id) (hid : ¬ F.kept id) (b : Binding) :
    Works F a p ((v.bindAttribute scope id b).exec p).2 := by
  unfold bindAttribute
  split
  · exact .refl F a p
  refine works_bind (works_evaluateOrBlank ..) fun value q _ hq => ?_
  refine works_bind (works_piped ..) fun shown r _ hr => ?_
  have hr' := hr.stands (hq.stands hp)
  have hin' := (hq.trans hr).confined.within hin
  split
  · exact works_edit hr' hin' hid fun t ht => .inr (.setAttr ht)
  · split
    · exact works_edit hr' hin' hid fun t ht => .inr (.removeAttr ht)
    · rw [exec_bind, exec_view]
      exact works_edit hr' hin' hid fun t ht => .inr (.setAttr ht)

theorem works_bindContentEntry (hp : F.Stands p.tree) (hin : p.tree.Within a id) (hid : ¬ F.kept id) (b : Binding) :
    Works F a p ((v.bindContentEntry scope id b).exec p).2 := by
  unfold bindContentEntry
  refine works_bind (works_evaluateOrBlank ..) fun value q _ hq => ?_
  refine works_bind (works_piped ..) fun shown r _ hr => ?_
  rw [exec_bind, exec_view]
  exact works_edit (hr.stands (hq.stands hp)) ((hq.trans hr).confined.within hin) hid fun t ht => Rewrite.of_setInnerMarkup ht

theorem works_bindProperty (hp : F.Stands p.tree) (hin : p.tree.Within a id) (hid : ¬ F.kept id) (b : Binding) :
    Works F a p ((bindProperty scope id b).exec p).2 := by
  unfold bindProperty
  split
  · exact .refl F a p
  · next property _ =>
    refine works_bind (works_evaluateOrBlank ..) fun value q _ hq => ?_
    rw [exec_bind, exec_view]
    exact works_edit (hq.stands hp) (hq.confined.within hin) hid fun t ht => Rewrite.of_write property ht

theorem works_bindAttributes (hp : F.Stands p.tree) (hin : p.tree.Within a id) (hid : ¬ F.kept id) :
    Works F a p ((v.bindAttributes scope id).exec p).2 := by
  rw [bindAttributes, exec_bind, exec_tree]
  exact works_forM fun b _ q hq => works_bindAttribute (hq.stands hp) (hq.confined.within hin) hid b

theorem works_bindContent (hp : F.Stands p.tree) (hin : p.tree.Within a id) (hid : ¬ F.kept id) :
    Works F a p ((v.bindContent scope id).exec p).2 := by
  rw [bindContent, exec_bind, exec_tree]
  exact works_forM fun b _ q hq => works_bindContentEntry (hq.stands hp) (hq.confined.within hin) hid b

theorem works_bindProperties (hp : F.Stands p.tree) (hin : p.tree.Within a id) (hid : ¬ F.kept id) :
    Works F a p ((v.bindProperties scope id).exec p).2 := by
  rw [bindProperties, exec_bind, exec_tree]
  exact works_forM fun b _ q hq => works_bindProperty (hq.stands hp) (hq.confined.within hin) hid b

/-- Bringing elements in `a` up to date works below `a`. -/
theorem works_sync {ids : List NodeId} (hp : F.Stands p.tree) (hin : ∀ id ∈ ids, p.tree.Within a id)
    (hids : ∀ id ∈ ids, ¬ F.kept id) : Works F a p ((v.sync scope ids).exec p).2 := by
  have hwithin : ∀ {q}, Works F a p q → ∀ id ∈ ids, F.Stands q.tree ∧ q.tree.Within a id := fun hq id hid =>
    ⟨hq.stands hp, hq.confined.within (hin id hid)⟩
  unfold sync
  refine works_bind (works_forM fun id hid q hq => ?_) fun _ q _ hq => ?_
  · obtain ⟨hq', hin'⟩ := hwithin hq id hid
    exact works_bindAttributes hq' hin' (hids id hid)
  refine works_bind (works_forM fun id hid r hr => ?_) fun _ r _ hr => works_forM fun id hid s hs => ?_
  · obtain ⟨hr', hin'⟩ := hwithin (hq.trans hr) id hid
    exact works_bindContent hr' hin' (hids id hid)
  · obtain ⟨hs', hin'⟩ := hwithin ((hq.trans hr).trans hs) id hid
    exact works_bindProperties hs' hin' (hids id hid)

end View

end ViewBinding
