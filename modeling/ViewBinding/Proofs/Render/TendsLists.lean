import ViewBinding.Proofs.Render.ListsWork
import ViewBinding.Proofs.Render.Tends

/-! What making lists does to the elements outside of them: copies come and go beside the templates, and no attribute of an
element that is neither a template nor in a copy is written. -/
namespace ViewBinding

open ViewBinding.Tree Document

namespace Tree

variable {t t₁ : Tree} {template c : NodeId}

/-- Only elements are copied to elements. -/
theorem isElement_of_isElement_copy (ht : t.WellFormed) (hcopy : t.copy template = .ok (c, t₁)) (hc : t₁.isElement c = true) :
    t.isElement template = true := by
  obtain ⟨forest, hr⟩ := ht
  obtain ⟨b, rfl, ⟨m, hm, hspells⟩, -, hr₁, -⟩ := copy_spec hr hcopy
  cases hget : t.get? template with
  | none => simp [copy, hget] at hcopy
  | some s =>
    cases hdata : s.data with
    | document => simp [copy, hget, hdata] at hcopy
    | element e => simp [isElement, element?, hget, hdata, NodeData.element?]
    | text text =>
      obtain ⟨n, hn⟩ : ∃ n, t.slots.size = n + 1 := by
        refine Nat.exists_eq_add_one.2 (Nat.pos_of_ne_zero fun h0 => ?_)
        simp [get?, Array.size_eq_zero_iff.1 h0] at hget
      obtain rfl : .text text = m := by simpa [content, hn, contentWithin, hget, hdata] using hm
      obtain ⟨id, rfl⟩ := hspells
      rw [isElement, (hr₁.holds _ (by simp)).element?] at hc
      cases hc

end Tree

namespace View

open Render

variable {v : View} {A : NodeId → Prop} {p q : Pass} {template anchor c id up : NodeId} {scope : Scope} {cls : String}

/-- A copy that has been inserted is a new child. -/
theorem exists_relist_of_exec_insertCopy (hp : p.tree.Whole) (h : (v.insertCopy template anchor).exec p = (.ok c, q)) :
    ∃ up t, q = p.withTree t ∧ p.tree.Relist up t := by
  obtain ⟨t₁, t₂, t₃, t₄, hcopy, h₂, h₃, h₄, rfl⟩ := exec_insertCopy_ok h
  obtain ⟨-, -, -, up, -, -, -, -, -, hup, -⟩ := Relist.exists_reshaped hp hcopy h₂ h₃ h₄
  have helement := isElement_of_isElement_copy hp.wellFormed hcopy (Rewrite.isElement (.removeAttr h₂))
  exact ⟨up, t₄, rfl, .insert hup helement hcopy h₂ h₃ h₄⟩

theorem tends_forgotten (v : View) (A : NodeId → Prop) (p : Pass) (id : NodeId) : Tends v A nothing p (forgotten p id) :=
  .of_tree_eq (.single (.change p _ _)) ⟨_, .single (.purge p.document (p.tree.preorder id))⟩ rfl

theorem tends_forM_dropCopy {stale : List NodeId} (hp : p.tree.Whole) (hnodup : stale.Nodup)
    (hup : ∀ id ∈ stale, p.tree.parent? id = some up) (h : (stale.forM dropCopy).exec p = (.ok (), q)) :
    Tends v A nothing p q := by
  induction stale generalizing p A with
  | nil =>
    cases h
    exact .refl v A q
  | cons id stale ih =>
    obtain ⟨hid, hnodup⟩ := List.nodup_cons.1 hnodup
    obtain ⟨_, r, hdrop, hrest⟩ := exists_of_exec_bind h
    rw [exec_dropCopy] at hdrop
    obtain ⟨t, ht, rfl⟩ := exec_edit_ok hdrop
    have hpid := hup id (by simp)
    have hfirst : Tends v A nothing p ((forgotten p id).withTree t) :=
      .trans_nothing hp (tends_forgotten v A p id) (.relist hp (.remove hpid ht))
    refine .trans_nothing hp hfirst (ih (hfirst.whole hp) hnodup (fun y hy => ?_) hrest)
    exact parent?_of_remove hp.wellFormed hpid (hup y (by simp [hy])) (fun he => hid (he ▸ hy)) ht

theorem tends_tearDown (hp : p.tree.Whole) (h : (tearDown template cls).exec p = (.ok (), q)) : Tends v A nothing p q := by
  unfold tearDown at h
  rw [exec_bind_ok (exec_view _ p)] at h
  cases hup : p.tree.parent? template with
  | none =>
    rw [staleCopies, hup] at h
    cases h
    exact .refl v A p
  | some up =>
    have hsub := staleCopies_sublist hup p.copies cls
    have hw := hp.wellFormed
    exact tends_forM_dropCopy hp ((hw.nodup_children up).sublist hsub)
      (fun id hid => hw.mem_children_iff.1 (hsub.subset hid)) h

/-- A way of making lists that writes no element in use other than its template. -/
def TendsList (v : View) (make : NodeId → Scope → Render Unit) : Prop :=
  ∀ template scope (p q : Pass) (A : NodeId → Prop), p.tree.Whole → (make template scope).exec p = (.ok (), q) →
    Tends v A nothing p q

/-- Binding a copy writes no element outside of it. -/
theorem tends_bindCopy {nested : NodeId → Scope → Render Unit} (hn : TendsList v nested) (hp : p.tree.Whole)
    (hout : ∀ x ∈ p.tree.preorder c, ¬ A x) {item : ItemScope} (h : (v.bindCopy nested c item).exec p = (.ok (), q)) :
    Tends v A nothing p q := by
  unfold bindCopy at h
  rw [exec_bind_ok (exec_view _ p)] at h
  obtain ⟨_, m, hsync, h⟩ := exists_of_exec_bind h
  have hfirst : Tends v A nothing p m :=
    (tends_sync hp (fun id hid hx => absurd hx (hout id (mem_elements_scan hid).1)) hsync).mono_nothing
  have hm := hfirst.whole hp
  rw [exec_bind_ok (exec_editDocument _ m)] at h
  set ids := (v.scan p.tree p.copies c).elements
  have hlistens : Tends v (fun x => A x ∧ v.SameBindings p.tree m.tree x) nothing m
      { m with document := ids.foldl (v.listen (some item)) m.document } := by
    refine .of_tree_eq (.single (.change m _ _)) ?_ (tree_foldl_listen ..)
    refine Deeds.exists_run (F := .nowhere) (deeds_foldl (fun d id _ => v.deeds_listen _ d fun h => h) m.document) hm
  have hsecond := hfirst.trans_nothing hp hlistens
  refine hsecond.trans_nothing hp (tends_forM_nothing (hsecond.whole hp) (fun template _ r s A' hr _ hs => ?_) h)
  exact hn template item.scope r s A' hr hs

/-- Making copies writes new elements only. -/
theorem tends_makeCopies {nested : NodeId → Scope → Render Unit} (hn : TendsList v nested) {items : List Value} {index : Nat}
    (hp : p.tree.Whole) (h : (v.makeCopies nested template scope cls items index anchor).exec p = (.ok (), q)) :
    Tends v A nothing p q := by
  induction items generalizing p A index anchor with
  | nil =>
    cases h
    exact .refl v A q
  | cons item items ih =>
    unfold makeCopies at h
    refine .of_watched ?_
    set A' : NodeId → Prop := fun x => A x ∧ p.tree.InUse x ∧ v.Steady p.tree x
    obtain ⟨c, p₁, hinsert, h⟩ := exists_of_exec_bind h
    obtain ⟨_, p₂, hbind, h⟩ := exists_of_exec_bind h
    obtain ⟨_, p₃, hclass, h⟩ := exists_of_exec_bind h
    have hinserted := inserted_of_exec hp.wellFormed hinsert
    have hunused : ∀ x ∈ p₁.tree.preorder c, ¬ A' x := fun x hx hin => hinserted.unused x hx hin.2.1
    have hnew : Tends v A' nothing p p₁ := by
      obtain ⟨up, t, rfl, hrelist⟩ := exists_relist_of_exec_insertCopy hp hinsert
      exact .relist hp hrelist
    have hp₁ := hnew.whole hp
    have hbound : Tends v A' nothing p p₂ :=
      hnew.trans_nothing hp (tends_bindCopy hn hp₁ (fun x hx hin => hunused x hx hin.1) hbind)
    have hmarked : Tends v A' nothing p p₃ := by
      obtain ⟨t, ht, rfl⟩ := exec_edit_ok hclass
      refine hbound.trans_nothing hp ?_
      rcases Rewrite.of_addClass ht with rfl | hrewrite
      · exact .of_tree_eq (.single (.change _ _ _)) ⟨[], .refl⟩ rfl
      · refine .rewrite (hbound.whole hp) hrewrite fun hin => hunused c ?_ hin.1
        exact hp₁.wellFormed.self_mem_preorder hinserted.inUse
    rw [exec_bind_ok (exec_modify _ p₃)] at h
    have hrecorded := hmarked.trans_nothing hp
      (.of_tree_eq (.single (.change p₃ p₃.document (c :: p₃.copies))) ⟨[], .refl⟩ rfl)
    exact hrecorded.trans_nothing hp (ih (hrecorded.whole hp) h)

/-- Making a list writes its template and new elements. -/
theorem tendsList_renderListWithin (v : View) (fuel : Nat) : TendsList v (v.renderListWithin fuel) := by
  induction fuel with
  | zero =>
    intro template scope p q A _ h
    cases h
    exact .refl v A p
  | succ fuel ih =>
    intro template scope p q A hp h
    unfold renderListWithin at h
    rw [exec_bind_ok (exec_tree p)] at h
    split at h
    · cases h
      exact .refl v A p
    split at h
    · cases h
      exact .refl v A p
    next expression he =>
    rw [exec_bind_ok (exec_iterate expression scope p)] at h
    refine .of_watched ?_
    set A' : NodeId → Prop := fun x => A x ∧ p.tree.InUse x ∧ v.Steady p.tree x
    have hread : Tends v A' nothing p (p.evaluated expression scope) := .evaluated ..
    split at h
    · cases h
      exact hread
    next items _ =>
    obtain ⟨_, m, htear, h⟩ := exists_of_exec_bind h
    obtain ⟨_, m', hmake, h⟩ := exists_of_exec_bind h
    obtain ⟨t, ht, rfl⟩ := exec_edit_ok h
    have htorn := hread.trans_nothing hp (tends_tearDown hp htear)
    have hmade := htorn.trans_nothing hp (tends_makeCopies ih (htorn.whole hp) hmake)
    refine hmade.trans_nothing hp (.rewrite (hmade.whole hp) (.setAttr ht) fun hin => ?_)
    -- a template is not steady
    have hlisted := hasAttr_of_listExpression? he
    rw [hasAttr, hin.1.2.2.unlisted] at hlisted
    cases hlisted

/-- A root that is brought up to date shows the attribute entries of the elements that are found in it. -/
theorem tends_renderRoot {root : NodeId} (hp : p.tree.Whole) (hroot : p.tree.isConnected root = true)
    (h : (v.renderRoot root).exec p = (.ok (), q)) :
    Tends v A (fun x _ => x ∈ (v.scan p.tree p.copies root).elements) p q := by
  unfold renderRoot at h
  rw [exec_bind_ok (exec_tree p), if_pos hroot, exec_bind_ok (exec_view _ p)] at h
  obtain ⟨_, m, hsync, h⟩ := exists_of_exec_bind h
  have hfirst := tends_sync (A := A) hp (fun _ _ _ => rfl) hsync
  refine hfirst.trans_nothing hp (tends_forM_nothing (hfirst.whole hp) (fun template _ r s A' hr _ hs => ?_) h)
  rw [renderList, exec_bind_ok (exec_tree r)] at hs
  exact tendsList_renderListWithin v _ template v.scope r s A' hr hs

/-- Bringing the roots up to date tends every element that stays. -/
theorem tends_forM_renderRoot {roots : List NodeId} (hp : p.tree.Whole) (h : (roots.forM v.renderRoot).exec p = (.ok (), q)) :
    Tends v A nothing p q := by
  refine tends_forM_nothing hp (fun root _ r s A' hr _ hs => ?_) h
  by_cases hroot : r.tree.isConnected root = true
  · exact (tends_renderRoot hr hroot hs).mono_nothing
  · unfold renderRoot at hs
    rw [exec_bind_ok (exec_tree r), if_neg hroot] at hs
    cases hs
    exact .refl v A' r

end View

end ViewBinding
