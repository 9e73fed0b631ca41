import ViewBinding.Proofs.Render.Lists
import ViewBinding.Proofs.Render.Trace

/-! The course of a pass: one root after the other is brought up to date, and then its lists are made. -/
namespace ViewBinding.View

open Render ViewBinding.Tree

variable {v : View} {limit : Nat} {p q s : Pass}

/-- The lists of templates, made one after the other. -/
inductive Lists (v : View) : List NodeId → Pass → List ListRun → Pass → Prop
  | nil (p : Pass) : Lists v [] p [] p
  | cons {template : NodeId} {templates : List NodeId} {p s q : Pass} {r : ListRun} {runs : List ListRun} :
      (v.runList template).exec p = (.ok r, s) → Lists v templates s runs q →
        Lists v (template :: templates) p (r :: runs) q

/-- The roots of a view, visited one after the other. -/
inductive Visits (v : View) : List NodeId → Pass → List ListRun → Pass → Prop
  | nil (p : Pass) : Visits v [] p [] p
  | skip {root : NodeId} {roots : List NodeId} {p q : Pass} {runs : List ListRun} :
      p.tree.isConnected root = false → Visits v roots p runs q → Visits v (root :: roots) p runs q
  | visit {root : NodeId} {roots : List NodeId} {p p' s q : Pass} {runs runs' : List ListRun} :
      p.tree.isConnected root = true →
      (v.sync v.scope (v.scan p.tree p.copies root).elements).exec p = (.ok (), p') →
      Lists v (v.scan p.tree p.copies root).templates p' runs s → Visits v roots s runs' q →
        Visits v (root :: roots) p (runs ++ runs') q

theorem runList_ok {template : NodeId} {r : ListRun} (h : (v.runList template).exec p = (.ok r, q)) :
    r.template = template ∧ r.before = p ∧ r.after = q ∧
      (v.renderListTraced p.tree.slots.size template v.scope).exec p = (.ok r.made, q) := by
  have hget : exec (getThe Pass) = fun p => (Except.ok p, p) := rfl
  rw [runList, exec_bind, hget] at h
  simp only [exec_bind] at h
  split at h
  · next made s hmade =>
    rw [hget] at h
    cases h
    exact ⟨rfl, rfl, rfl, hmade⟩
  · cases h

/-- A template without a list leaves all as it is, but for the heap. -/
theorem renderListTraced_none {fuel : Nat} {template : NodeId} {scope : Scope}
    (h : (v.renderListTraced fuel template scope).exec p = (.ok none, q)) :
    q.tree = p.tree ∧ q.copies = p.copies := by
  cases fuel with
  | zero =>
    cases h
    exact ⟨rfl, rfl⟩
  | succ fuel =>
    rw [renderListTraced, exec_bind, exec_tree] at h
    simp only at h
    split at h
    · cases h
      exact ⟨rfl, rfl⟩
    split at h
    · cases h
      exact ⟨rfl, rfl⟩
    rw [exec_bind, exec_iterate] at h
    simp only at h
    split at h
    · cases h
      exact ⟨rfl, rfl⟩
    rw [exec_bind] at h
    split at h
    · rw [exec_bind] at h
      split at h
      · rw [exec_bind] at h
        split at h <;> cases h
      · cases h
    · cases h

theorem exec_renderListWithin {fuel : Nat} {template : NodeId} {scope : Scope} {made : Option MadeList}
    (h : (v.renderListTraced fuel template scope).exec p = (.ok made, q)) :
    (v.renderListWithin fuel template scope).exec p = (.ok (), q) := by
  rw [← forget_renderListTraced]
  exact exec_forget_ok h

/-- Of a footprint that leaves nothing out, nothing has to be shown. -/
theorem leads_runList {template : NodeId} {r : ListRun} (h : (v.runList template).exec p = (.ok r, q))
    (hp : p.tree.WellFormed) (hlimit : limit ≤ p.tree.mutations + 2 ^ 32) :
    Pass.Leads limit .all p q := by
  obtain ⟨-, -, -, hmade⟩ := runList_ok h
  exact leads_of_exec (exec_renderListWithin hmade) <|
    leadsLists_renderListWithin v limit _ template v.scope p .all hp hlimit trivial (fun _ => trivial) trivial
      fun _ _ _ _ _ => trivial

theorem Lists.leads {templates : List NodeId} {runs : List ListRun} (h : Lists v templates p runs q)
    (hp : p.tree.WellFormed) (hlimit : limit ≤ p.tree.mutations + 2 ^ 32) : Pass.Leads limit .all p q := by
  induction h with
  | nil p => exact .refl hp
  | cons hr _ ih =>
    have hlead := leads_runList hr hp hlimit
    exact hlead.trans (ih hlead.wellFormed (hlimit.trans (Nat.add_le_add_right hlead.mutations_le _)))

theorem Visits.leads {roots : List NodeId} {runs : List ListRun} (h : Visits v roots p runs q)
    (hp : p.tree.WellFormed) (hlimit : limit ≤ p.tree.mutations + 2 ^ 32) : Pass.Leads limit .all p q := by
  induction h with
  | nil p => exact .refl hp
  | skip _ _ ih => exact ih hp hlimit
  | visit _ hsync hlists _ ih =>
    have hlead := leads_of_exec hsync (leads_sync_all limit hp _)
    have hlimit' := hlimit.trans (Nat.add_le_add_right hlead.mutations_le _)
    have hlead' := hlists.leads hlead.wellFormed hlimit'
    refine (hlead.trans hlead').trans (ih hlead'.wellFormed (hlimit'.trans ?_))
    exact Nat.add_le_add_right hlead'.mutations_le _

theorem Lists.at {templates : List NodeId} {earlier later : List ListRun} {r : ListRun}
    (h : Lists v templates p (earlier ++ r :: later) q) :
    ∃ front behind, templates = front ++ r.template :: behind ∧ Lists v front p earlier r.before ∧
      (v.renderListTraced r.before.tree.slots.size r.template v.scope).exec r.before = (.ok r.made, r.after) ∧
      Lists v behind r.after later q := by
  induction earlier generalizing templates p with
  | nil =>
    cases h with
    | cons hr hrest =>
      obtain ⟨ht, hb, ha, hmade⟩ := runList_ok hr
      subst ht hb ha
      exact ⟨[], _, rfl, .nil _, hmade, hrest⟩
  | cons r' earlier ih =>
    cases h with
    | cons hr hrest =>
      obtain ⟨front, behind, rfl, hfront, hmade, hbehind⟩ := ih hrest
      exact ⟨_ :: front, behind, rfl, .cons hr hfront, hmade, hbehind⟩

/-- Where a pass comes to a template, and what it still has to do from there. -/
theorem Visits.at {roots : List NodeId} {earlier later : List ListRun} {r : ListRun}
    (h : Visits v roots p (earlier ++ r :: later) q) :
    ∃ root ∈ roots, ∃ rest ⊆ roots, ∃ done first front behind own others second s s' s'',
      Visits v done p first s ∧ s.tree.isConnected root = true ∧
      (v.sync v.scope (v.scan s.tree s.copies root).elements).exec s = (.ok (), s') ∧
      (v.scan s.tree s.copies root).templates = front ++ r.template :: behind ∧
      Lists v front s' second r.before ∧
      (v.renderListTraced r.before.tree.slots.size r.template v.scope).exec r.before = (.ok r.made, r.after) ∧
      Lists v behind r.after own s'' ∧ Visits v rest s'' others q ∧ later = own ++ others := by
  generalize hruns : earlier ++ r :: later = runs at h
  induction h generalizing earlier with
  | nil p => simp at hruns
  | skip hc _ ih =>
    obtain ⟨root, hroot, rest, hrest, done, first, front, behind, own, others, second, s, s', s'', hdone, h⟩ :=
      ih hruns
    exact ⟨root, List.mem_cons_of_mem _ hroot, rest, fun x hx => List.mem_cons_of_mem _ (hrest hx), _ :: done,
      first, front, behind, own, others, second, s, s', s'', .skip hc hdone, h⟩
  | @visit root roots p p' s q runs runs' hc hsync hlists hvisits ih =>
    rcases List.append_eq_append_iff.1 hruns with ⟨mid, hmid, hlater⟩ | ⟨mid, rfl, hmid⟩
    · rcases mid with _ | ⟨r', mid⟩
      · obtain ⟨root', hroot, rest, hrest, done, first, front, behind, own, others, second, s₁, s', s'', hdone,
          h⟩ := @ih [] hlater
        exact ⟨root', List.mem_cons_of_mem _ hroot, rest, fun x hx => List.mem_cons_of_mem _ (hrest hx),
          _ :: done, _, front, behind, own, others, second, s₁, s', s'', .visit hc hsync hlists hdone, h⟩
      · obtain ⟨rfl, rfl⟩ := List.cons.inj hlater
        subst hmid
        obtain ⟨front, behind, htemplates, hfront, hmade, hbehind⟩ := hlists.at
        exact ⟨root, by simp, roots, fun x hx => List.mem_cons_of_mem _ hx, [], [], front, behind, mid, runs',
          earlier, p, p', s, .nil p, hc, hsync, htemplates, hfront, hmade, hbehind, hvisits, rfl⟩
    · obtain ⟨root', hroot, rest, hrest, done, first, front, behind, own, others, second, s₁, s', s'', hdone,
        h⟩ := ih hmid.symm
      exact ⟨root', List.mem_cons_of_mem _ hroot, rest, fun x hx => List.mem_cons_of_mem _ (hrest hx),
        _ :: done, _, front, behind, own, others, second, s₁, s', s'', .visit hc hsync hlists hdone, h⟩

end ViewBinding.View
