import ViewBinding.Proofs.Render.ListsOfPass
import ViewBinding.Proofs.Render.Visits

/-! Lists at the end of a pass. A list that has been made is not changed any more, unless a list beside it uses
a class that its copies carry. -/
namespace ViewBinding

open Render

namespace View

open ViewBinding.Tree

variable {v : View} {limit : Nat} {p q s : Pass} {template up : NodeId} {m : MadeList}

/-- A copy that is torn down is gone. -/
theorem expired_of_forM_dropCopy {stale : List NodeId} (hp : p.tree.WellFormed) (hnodup : stale.Nodup)
    (hup : ∀ id ∈ stale, p.tree.parent? id = some up) {u : Unit} (h : (stale.forM dropCopy).exec p = (.ok u, q))
    {x : NodeId} (hx : x ∈ stale) : q.tree.Expired p.tree.mutations x := by
  induction stale generalizing p with
  | nil => simp at hx
  | cons id stale ih =>
    obtain ⟨hid, hnd⟩ := List.nodup_cons.1 hnodup
    have hparent := hup id (by simp)
    have h : (dropCopy id >>= fun _ => stale.forM dropCopy).exec p = (.ok u, q) := h
    rw [exec_bind] at h
    split at h
    · next u' s hs =>
      have hlead : Pass.Leads (s.tree.mutations + 1) .all p s :=
        leads_of_exec hs (leads_dropCopy hp hparent trivial)
      rw [exec_dropCopy] at hs
      obtain ⟨t, ht, rfl⟩ := exec_edit_ok hs
      have hothers : ∀ y ∈ stale, t.parent? y = some up := fun y hy =>
        parent?_of_remove hp hparent (hup y (by simp [hy])) (fun he => hid (he ▸ hy)) ht
      rcases List.mem_cons.1 hx with rfl | hx
      · have hex : t.Expired p.tree.mutations x :=
          expired_of_remove hp hparent ht (hp.self_mem_preorder (hp.inUse_of_parent? hparent))
        have hrest : Pass.Leads (q.tree.mutations + 1) .all _ q := leads_of_exec h <|
          leads_forM_dropCopy hlead.wellFormed hnd hothers fun _ _ => trivial
        exact (hrest.later (Nat.lt_succ_self _)).tree.expired hex
      · exact (ih hlead.wellFormed hnd hothers h hx).since_le hlead.mutations_le
    · cases h

theorem expired_of_tearDown (hp : p.tree.WellFormed) {cls : String} {u : Unit}
    (h : (tearDown template cls).exec p = (.ok u, q)) {x : NodeId}
    (hx : x ∈ staleCopies p.tree p.copies template cls) : q.tree.Expired p.tree.mutations x := by
  rw [tearDown, exec_bind, exec_view] at h
  unfold staleCopies at hx
  split at hx
  · simp at hx
  next up hup =>
    have hsub := staleCopies_sublist hup p.copies cls
    refine expired_of_forM_dropCopy hp ((hp.nodup_children up).sublist hsub)
      (fun id hid => hp.mem_children_iff.1 (hsub.subset hid)) h ?_
    simpa only [staleCopies, hup] using hx

/-- Bringing elements up to date that a scan has found leaves lists alone. -/
theorem Stands.sync (h : Stands v template up m p) (hp : p.tree.WellFormed) {root : NodeId} {scope : Scope}
    (hs : (v.sync scope (v.scan p.tree p.copies root).elements).exec p = (.ok (), q))
    (hlimit : limit ≤ p.tree.mutations + 2 ^ 32) (hq : q.tree.mutations < limit)
    (ht : q.tree.InUse template) : Stands v template up m q := by
  have hlead : Pass.Leads limit (outside (template :: m.copies.map (·.1))) p q := by
    refine leads_of_exec hs (leads_sync hp (fun _ => .inr rfl) (fun _ _ => trivial)
      fun id hid _ => .inl fun hmem => ?_)
    obtain ⟨-, -, hattr, hcopy⟩ := mem_elements_scan hid
    rcases List.mem_cons.1 hmem with rfl | hmem
    · rw [h.isTemplate] at hattr
      cases hattr
    · exact hcopy (h.recorded id hmem)
  exact h.later hp (hlead.later hq) (hq.trans_le hlimit) ht

/-- A list is made beside the one that stands, and copies of this one carry its class. -/
def Displaces (v : View) (template : NodeId) (m : MadeList) (r : ListRun) : Prop :=
  ∃ m', r.made = some m' ∧ r.before.tree.parent? r.template = r.before.tree.parent? template ∧
    ∃ c ∈ m.copies, r.before.tree.hasClass c.1 (v.copyClass m'.expression) = true

/-- Making another list leaves a list alone, unless it displaces it. -/
theorem Stands.run (h : Stands v template up m p) (hp : p.tree.WellFormed) {r : ListRun} {other : NodeId}
    (hr : (v.runList other).exec p = (.ok r, q)) (hother : other ∉ template :: m.copies.map (·.1))
    (hd : ¬ Displaces v template m r) (hlimit : limit ≤ p.tree.mutations + 2 ^ 32)
    (hq : q.tree.mutations < limit) (ht : q.tree.InUse template) : Stands v template up m q := by
  obtain ⟨rfl, rfl, rfl, hmade⟩ := runList_ok hr
  have hexec := exec_renderListWithin hmade
  suffices hlead : Pass.Leads limit (outside (template :: m.copies.map (·.1))) r.before r.after from
    h.later hp (hlead.later hq) (hq.trans_le hlimit) ht
  cases hm : r.made with
  | none =>
    rw [hm] at hmade
    obtain ⟨htree, hcopies⟩ := renderListTraced_none hmade
    exact .of_eq hp htree hcopies fun _ hn => absurd trivial hn
  | some m' =>
    rw [hm] at hmade
    refine leads_of_exec hexec (leadsLists_renderListWithin v limit _ r.template v.scope _ _ hp hlimit hother
      (fun _ => .inr rfl) (.inl hother) fun _ source hsource x hx hmem => ?_)
    obtain ⟨fuel, q₁, q₂, t, u, -, hsource', -, htear, hcopies, hset, hafter⟩ := renderListTraced_ok hmade
    rw [hsource'] at hsource
    obtain rfl := Option.some.inj hsource
    rcases List.mem_cons.1 hmem with rfl | hmem
    · -- the template itself would be gone
      have hex : q₁.tree.Expired r.before.tree.mutations x :=
        expired_of_tearDown (p := r.before.evaluated m'.expression v.scope) hp htear hx
      have hlead₁ : Pass.Leads limit .all r.before q₁ :=
        (leads_evaluated m'.expression v.scope hp).trans
          (leads_of_exec htear (leads_tearDown (p := r.before.evaluated m'.expression v.scope) hp fun _ _ => trivial))
      have hlead₂ : Pass.Leads limit .all q₁ q₂ := by
        have hcopies := exec_forget_ok hcopies
        rw [forget_makeCopiesTraced] at hcopies
        exact leads_of_exec hcopies (leads_makeCopies (leadsLists_renderListWithin v limit _) hlead₁.wellFormed
          (hlimit.trans (Nat.add_le_add_right hlead₁.mutations_le _)) trivial (fun _ => trivial) ..)
      have hwrites := writes_setAttr hlead₂.wellFormed hset
      rw [hafter] at ht hq
      have hq₂ := hwrites.mutations_le.trans_lt hq
      have hex₂ := (hlead₂.later hq₂).tree.expired hex
      exact hex₂.not_inUse (hq₂.trans_le hlimit) ((hwrites.inUse x).1 ht)
    · -- a copy would carry the class of a list that is made beside it
      unfold staleCopies at hx
      split at hx
      · simp at hx
      next up' hup' =>
        obtain ⟨hchild, hstale⟩ := List.mem_filter.1 hx
        have hxup' := hp.mem_children_iff.1 (List.mem_filter.1 hchild).1
        have hxup := hp.mem_children_iff.1 (h.siblings.subset (List.mem_cons_of_mem _ hmem))
        rw [hxup] at hxup'
        obtain ⟨c, hc, rfl⟩ := List.mem_map.1 hmem
        refine hd ⟨m', hm, ?_, c, hc, (Bool.and_eq_true_iff.1 hstale).2⟩
        rw [hup', h.parent?, hxup']

/-- Making further lists leaves a list alone, unless one of them displaces it. -/
theorem Stands.lists {templates : List NodeId} {runs : List ListRun} (hl : Lists v templates p runs q)
    (h : Stands v template up m p) (hp : p.tree.WellFormed)
    (hother : ∀ x ∈ templates, x ∉ template :: m.copies.map (·.1))
    (hd : ∀ r ∈ runs, ¬ Displaces v template m r) (hlimit : limit ≤ p.tree.mutations + 2 ^ 32)
    (hq : q.tree.mutations < limit) (ht : q.tree.InUse template) : Stands v template up m q := by
  induction hl with
  | nil p => exact h
  | cons hr hrest ih =>
    have hlead := leads_runList hr hp hlimit
    have hlimit' := hlimit.trans (Nat.add_le_add_right hlead.mutations_le _)
    have hlead' := hrest.leads hlead.wellFormed hlimit'
    have hs := hlead'.mutations_le.trans_lt hq
    have hts := (hlead.later hs).tree.inUse_between (hlead'.later hq).tree (hq.trans_le hlimit)
      (inUse_of_hasAttr hp h.isTemplate) ht
    have hstands := h.run hp hr (hother _ (by simp)) (hd _ (by simp)) hlimit hs hts
    exact ih hstands hlead.wellFormed (fun x hx => hother x (by simp [hx])) (fun r hr => hd r (by simp [hr]))
      hlimit' hq ht

end View

end ViewBinding
