import ViewBinding.Proofs.Render.FailedCopies

/-! Passes that fail. On an orderly page the roots do not get into each other's way, so wherever a pass stops for want
of a pipe, it leaves the page spoiled. -/
namespace ViewBinding

open Render

namespace View

open ViewBinding.Tree

variable {v : View} {p q r : Pass} {a b x base e : NodeId} {scope : Scope} {name : String}

/-- Roots lie apart and are no templates. No binding writes bindings, and contents have known pipes. -/
structure Neat (v : View) (t : Tree) : Prop where
  apart : ∀ a ∈ v.roots, ∀ b ∈ v.roots, a ≠ b → ¬ t.Inside a b
  plain : ∀ a ∈ v.roots, t.hasAttr a (v.attributeName .foreach) = false
  tidy : ∀ x, t.InUse x → Tidy v t x
  hidden : Text.asciiLower v.options.hiddenAttribute ∉ v.marks

/-- A neat page with roots in the document. What is on record is not on the way up from a root. -/
structure Orderly (v : View) (p : Pass) : Prop extends Neat v p.tree where
  wellFormed : p.tree.WellFormed
  known : ∀ x ∈ p.copies, p.tree.Known x
  nodup : v.roots.Nodup
  roots : ∀ a ∈ v.roots, p.tree.Known a ∧ (p.tree.InUse a → p.tree.Inside a root)
  clear : ∀ a ∈ v.roots, p.tree.InUse a → ∀ x, p.tree.Inside a x → x ∉ p.copies

theorem leadsLists_renderList (v : View) (limit : Nat) : LeadsLists v limit v.renderList :=
  fun template scope p => leadsLists_renderListWithin v limit p.tree.slots.size template scope p

theorem failsInCopies_renderList (v : View) (hhidden : Text.asciiLower v.options.hiddenAttribute ∉ v.marks) :
    FailsInCopies v v.renderList := fun template scope p q =>
  failsInCopies_renderListWithin v hhidden p.tree.slots.size template scope p q

/-- The visit of a root that is tidy writes no bindings. -/
theorem leads_quiet_of_tidy (hhidden : Text.asciiLower v.options.hiddenAttribute ∉ v.marks) (hp : p.tree.WellFormed)
    (htidy : ∀ x, p.tree.Inside x a → Tidy v p.tree x) :
    Pass.Leads (2 ^ 32) (quiet v) p ((v.renderRoot a).exec p).2 := by
  unfold renderRoot
  rw [exec_bind, exec_tree]
  simp only
  split
  · next hc =>
    have ha := hp.inUse_of_mem_preorder hp.inUse_root (hp.isConnected_iff.1 hc)
    rw [exec_bind, exec_view]
    refine leads_bind ?_ fun _ q _ hq => leads_forM hq.wellFormed fun template _ r hr => ?_
    · refine Pass.Leads.mono (F := binding v fun _ => True) ?_
        ⟨fun _ => False.elim, fun _ => False.elim, fun _ hf => hf, fun _ => False.elim, fun _ => False.elim,
          fun _ _ hw => hw⟩
      exact leads_sync_tidy hp (tidy_of_mem_elements hp ha htidy) fun _ _ => trivial
    · exact leadsLists_renderList v _ template v.scope r _ hr.wellFormed (Nat.le_add_left _ _) trivial
        (fun x hx => ne_of_mem_marks hx (by decide) rfl) hhidden fun _ _ _ _ _ => trivial
  · exact .refl hp

namespace Orderly

theorem tidy_inside (h : Orderly v p) (ha : p.tree.InUse a) (hx : p.tree.Inside x a) : Tidy v p.tree x :=
  h.tidy x (h.wellFormed.inUse_of_mem_preorder ha ((h.wellFormed.mem_preorder_iff_inside ha).2 hx))

/-- Nothing lies in two roots. -/
theorem not_inside (h : Orderly v p) (ha : a ∈ v.roots) (hb : b ∈ v.roots) (hne : a ≠ b) (hx : p.tree.Inside x a) :
    ¬ p.tree.Inside x b := fun hxb => by
  rcases hx.total hxb with hi | hi
  · exact h.apart a ha b hb hne hi
  · exact h.apart b hb a ha hne.symm hi

/-- The visit of a root leaves all that is in another one alone. -/
theorem leads_other (h : Orderly v p) (ha : a ∈ v.roots) (hb : b ∈ v.roots) (hne : a ≠ b)
    (hra : Pass.Leads (2 ^ 32) (around v p.tree a) p r) (hrb : Pass.Leads (2 ^ 32) (around v p.tree b) p r) :
    Pass.Leads (2 ^ 32) (around v p.tree b) r ((v.renderRoot a).exec r).2 := by
  have hr := hrb.wellFormed
  by_cases hl : r.tree.mutations < 2 ^ 32
  · unfold renderRoot
    rw [exec_bind, exec_tree]
    simp only
    split
    · next hc =>
      have hau : r.tree.InUse a := hr.inUse_of_mem_preorder hr.inUse_root (hr.isConnected_iff.1 hc)
      have hm := lt_limit p.tree hl
      have hap : p.tree.InUse a := ((h.roots a ha).1).resolve_right fun hex =>
        ((hra.later hl).tree.expired hex).not_inUse (by omega) hau
      have hinside : ∀ x, r.tree.Inside x a → p.tree.Inside x a := fun x =>
        (hra.later hl).tree.inside_of_untouched hm h.wellFormed hap (fun y hy hn => hn hy)
          fun y hy hne => ⟨fun hf => hne (hf hy), fun hf => hne (hf hy)⟩
      have htidy : ∀ x, r.tree.Inside x a → Tidy v r.tree x := fun x hx =>
        (ofBindings_tidy v).of_around h.wellFormed hap (fun y => h.tidy_inside hap) (hra.later hl) hl hx
      have hplain : r.tree.hasAttr a (v.attributeName .foreach) = false := by
        rw [hasAttr, attr?_of_later (hra.later hl).tree hm (by simp) hap hau fun name hn hw => hw hn]
        exact h.plain a ha
      rw [exec_bind, exec_view]
      refine leads_bind ?_ fun _ q _ hq => leads_forM hq.wellFormed fun template ht s hs => ?_
      · refine Pass.Leads.mono (F := binding v (¬ p.tree.Inside · b)) ?_
          ⟨fun _ => False.elim, fun _ => False.elim, fun _ hf => hf, fun _ => False.elim, fun _ => False.elim,
            fun _ _ hw => hw⟩
        refine leads_sync_tidy hr (tidy_of_mem_elements hr hau htidy) fun id hid => ?_
        have hida := (hr.mem_preorder_iff_inside hau).1 (mem_elements_scan hid).1
        exact h.not_inside ha hb hne (hinside id hida)
      · have hta := hinside template ((hr.mem_preorder_iff_inside hau).1 (mem_templates_scan ht).1)
        rcases hta.eq_or_up with rfl | ⟨y, hy, hya⟩
        · rw [(mem_templates_scan ht).2.2] at hplain
          cases hplain
        · exact leads_apart h.hidden (leadsLists_renderList v _) h.wellFormed hy
            (h.not_inside ha hb hne hya) ((hrb.trans hq).trans hs)
    · exact .refl hr
  · exact (leads_renderRoot a hr (Nat.le_add_left _ _)).of_limit_le (Nat.not_lt.1 hl)

/-- Visits of some roots leave the others alone. -/
theorem leads_others (h : Orderly v p) {front : List NodeId} (hsub : front ⊆ v.roots) (hnodup : front.Nodup)
    (hb : b ∈ v.roots) (hbf : b ∉ front)
    (hr : ∀ a ∈ b :: front, Pass.Leads (2 ^ 32) (around v p.tree a) p r)
    (hexec : (front.forM v.renderRoot).exec r = (.ok (), q)) :
    Pass.Leads (2 ^ 32) (around v p.tree b) p q := by
  induction front generalizing r with
  | nil =>
    cases hexec
    exact hr b (by simp)
  | cons a front ih =>
    replace hexec : (v.renderRoot a >>= fun _ => front.forM v.renderRoot).exec r = (.ok (), q) := hexec
    rw [exec_bind] at hexec
    obtain ⟨haf, hnodup⟩ := List.nodup_cons.1 hnodup
    obtain ⟨ha, hsub⟩ := List.cons_subset.1 hsub
    split at hexec
    · next u s hs =>
      refine ih hsub hnodup (fun hm => hbf (List.mem_cons_of_mem _ hm)) (fun c hc => ?_) hexec
      have hcr := hr c (by simp only [List.mem_cons] at hc ⊢; tauto)
      have hcv : c ∈ v.roots := (List.mem_cons.1 hc).elim (fun he => he ▸ hb) fun hm => hsub hm
      have hac : a ≠ c := by
        rintro rfl
        exact (List.mem_cons.1 hc).elim (fun he => hbf (by simp [he])) haf
      exact hcr.trans (leads_of_exec hs (h.leads_other ha hcv hac (hr a (by simp)) hcr))
    · cases hexec

/-- A root at which a pass fails is in the document, and the next pass is caught below it. -/
theorem exists_caught_of_renderRoot (h : Orderly v p) (hb : b ∈ v.roots)
    (hr : Pass.Leads (2 ^ 32) (around v p.tree b) p r)
    (herr : (v.renderRoot b).exec r = (.error (.unknownPipe name), q)) (hq : q.tree.mutations < 2 ^ 32) :
    p.tree.InUse b ∧ Pass.Later (quiet v) r q ∧ ∃ e, Caught v q b e := by
  have hw := hr.wellFormed
  have hlead : Pass.Leads (2 ^ 32) .all r q := leads_of_exec herr (leads_renderRoot b hw (Nat.le_add_left _ _))
  have hl := hlead.mutations_le.trans_lt hq
  have hm := lt_limit p.tree hl
  have hlater := hr.later hl
  have herr' := herr
  unfold renderRoot at herr
  rw [exec_bind, exec_tree] at herr
  simp only at herr
  split at herr
  · next hc =>
    have hroot := hw.isConnected_iff_inside.1 hc
    have hbr : r.tree.InUse b := hw.inUse_of_mem_preorder hw.inUse_root (hw.isConnected_iff.1 hc)
    have hbp : p.tree.InUse b := ((h.roots b hb).1).resolve_right fun hex =>
      (hlater.tree.expired hex).not_inUse (by omega) hbr
    have htidy : ∀ x, r.tree.Inside x b → Tidy v r.tree x := fun x hx =>
      (ofBindings_tidy v).of_around h.wellFormed hbp (fun y => h.tidy_inside hbp) hlater hl hx
    have hplain : r.tree.hasAttr b (v.attributeName .foreach) = false := by
      rw [hasAttr, attr?_of_later hlater.tree hm (by simp) hbp hbr fun name hn hw => hw hn]
      exact h.plain b hb
    refine ⟨hbp, (leads_of_exec herr' (leads_quiet_of_tidy h.hidden hw htidy)).later hq, ?_⟩
    rw [exec_bind, exec_view] at herr
    simp only at herr
    rw [exec_bind] at herr
    split at herr
    · next u s hs =>
      exact exists_caught_of_templates h.hidden (leadsLists_renderList v _) hw hbr hplain
        (failsInCopies_renderList v h.hidden) hroot (hlater.known h.known) htidy
        (fun template ht => leads_of_exec hs (leads_sync_around hw hbr htidy ht)) herr hq
    · next hs =>
      cases herr
      exact exists_caught_of_sync hw hbr hroot htidy hs hq
  · cases herr

/-- A pass that fails for want of a pipe leaves the page spoiled. -/
theorem spoiled_of_render (h : Orderly v p) (herr : v.render.exec p = (.error (.unknownPipe name), q))
    (hq : q.tree.mutations < 2 ^ 32) : ∃ base ∈ v.roots, ∃ e, Spoiled v base e (q.tree.Inside e) q := by
  obtain ⟨front, base, behind, r, hroots, hfront, herr⟩ := exec_forM_error herr
  have hbase : base ∈ v.roots := by simp [hroots]
  have hnodup : (front ++ base :: behind).Nodup := hroots ▸ h.nodup
  obtain ⟨hfnodup, -, hdisjoint⟩ := List.nodup_append.1 hnodup
  have hr : Pass.Leads (2 ^ 32) (around v p.tree base) p r := by
    refine h.leads_others (fun a ha => by simp [hroots, ha]) hfnodup hbase (fun hm => ?_)
      (fun a _ => .refl h.wellFormed) hfront
    exact hdisjoint base hm base (by simp) rfl
  obtain ⟨hbp, hquiet, e, hway, hfaulty, htame⟩ := h.exists_caught_of_renderRoot hbase hr herr hq
  have hl := hquiet.tree.mutations_le.trans_lt hq
  have hlater : Pass.Later (quiet v) p q := ((hr.later hl).mono (around_le_quiet ..)).trans hquiet
  have hm := lt_limit p.tree hq
  have hw := hlater.tree.wellFormed
  have heu := inUse_of_faulty hw hfaulty
  have hbq := hw.inUse_of_inside heu hway.1
  have hbroot := (h.roots base hbase).2 hbp
  have hconn := hlater.tree.inside h.wellFormed hm hbroot hbq
  have hinUse : ∀ a ∈ v.roots, q.tree.InUse a → p.tree.InUse a := fun a ha hu =>
    ((h.roots a ha).1).resolve_right fun hex => (hlater.tree.expired hex).not_inUse (by omega) hu
  have hinside : ∀ a ∈ v.roots, q.tree.InUse a → ∀ x, q.tree.Inside a x → p.tree.Inside a x := fun a ha hu x =>
    hlater.tree.inside_of_inside h.wellFormed hm ((h.roots a ha).2 (hinUse a ha hu))
  -- what is on the way up from the root has been there before
  have habove : ∀ x, q.tree.Inside base x → p.tree.InUse x := fun x hx =>
    h.wellFormed.inUse_of_inside hbp (hinside base hbase hbq x hx)
  refine ⟨base, hbase, e, hw, hway.1.trans hconn, fun _ => .rfl, hway, hfaulty, fun x hx => ?_, fun x hx hc => ?_,
    fun a ha => ⟨hlater.tree.known (h.roots a ha).1, fun hu => ?_⟩, fun a ha hne hu => ?_⟩
  · rcases hx.total hway.1 with hxb | hbx
    · exact htame x hx hxb
    · exact (h.tidy x (habove x hbx)).tame.later hlater.tree hm (habove x hbx) fun name hn hw => hw hn
  · rcases hx.total hway.1 with hxb | hbx
    · exact (hway.2 x hx hxb).unrecorded hc
    · rcases hlater.recorded x (habove x hbx) hc with hcp | hf | hex
      · exact h.clear base hbase hbp x (hinside base hbase hbq x hbx) hcp
      · exact hf
      · exact hex.not_inUse hm (hw.inUse_of_inside heu hx)
  · exact hlater.tree.inside h.wellFormed hm ((h.roots a ha).2 (hinUse a ha hu)) hu
  · exact ⟨fun hi => h.apart a ha base hbase hne (hinside a ha hu base hi),
      fun hi => h.apart base hbase a ha hne.symm (hinside base hbase hbq a hi)⟩

end Orderly

end View

end ViewBinding
