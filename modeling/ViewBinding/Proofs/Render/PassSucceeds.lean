import ViewBinding.Proofs.Render.FailedPass
import ViewBinding.Proofs.Render.Rebuild
import ViewBinding.Proofs.Render.Success
import ViewBinding.Proofs.Tree.Copied

/-! Passes that succeed. On an orderly page a pass fails for want of a pipe only: if all pipes that the page names are registered,
and no binding makes a template of a copy, it gets through to the last root. -/
namespace ViewBinding

open Render

namespace View

open ViewBinding.Tree

variable {v : View} {F : Footprint} {p q r s : Pass} {a x c base template anchor up : NodeId} {scope : Scope}

/-! Making lists. A template could only be lost to its own list: if it were on record as a copy. On a settled page no copy becomes
a template, so none of those on record is one. -/

/-- A page on which lists can be made: no copy on record is a template. -/
structure Workable (v : View) (p : Pass) : Prop where
  whole : p.tree.Whole
  known : ∀ x ∈ p.copies, p.tree.Known x
  bare : ∀ x ∈ p.copies, p.tree.InUse x → p.tree.hasAttr x (v.attributeName .foreach) = false

theorem Workable.congr (h : v.Workable p) (ht : q.tree = p.tree) (hc : q.copies = p.copies) : v.Workable q := by
  obtain ⟨hwhole, hknown, hbare⟩ := h
  constructor <;> simpa only [ht, hc]

/-- What changes neither the records nor the marks of templates keeps a page workable. -/
theorem Workable.later (h : v.Workable p) (hw : q.tree.Whole) (hl : Pass.Later F p q) (hm : q.tree.mutations < 2 ^ 32)
    (hc : q.copies = p.copies) (hmarks : ∀ x ∈ p.copies, ∀ name ∈ v.marks, ¬ F.written x name) : v.Workable q := by
  refine ⟨hw, hl.known h.known, fun x hx hxq => ?_⟩
  rw [hc] at hx
  have hxp : p.tree.InUse x := (h.known x hx).resolve_right fun hex => (hl.tree.expired hex).not_inUse (by omega) hxq
  rw [hasAttr, attr?_of_later hl.tree (lt_limit _ hm) (by simp) hxp hxq (hmarks x hx)]
  exact h.bare x hx hxp

theorem Workable.write {t : Tree} {w : NodeId → String → Prop} (h : v.Workable p) (hwrites : Writes p.tree t w)
    (hname : ∀ x, ¬ w x (Text.asciiLower (v.attributeName .foreach))) : v.Workable (p.withTree t) := by
  have hlater : Tree.Later .all p.tree t := (hwrites.mono fun _ _ _ => trivial).later h.whole.wellFormed
  obtain ⟨gone, hedit⟩ : ∃ gone, p.tree.Edit root gone t := ⟨_, .write hwrites⟩
  refine ⟨(hedit.edited h.whole).whole, fun x hx => hlater.known (h.known x hx), fun x hx hxt => ?_⟩
  rw [Pass.tree_withTree, hasAttr, hwrites.attr? (hname x), ← hasAttr]
  exact h.bare x hx ((hwrites.inUse x).1 hxt)

/-- Bringing elements up to date puts nothing on record. -/
theorem copies_sync {ids : List NodeId} (h : (v.sync scope ids).exec p = (.ok (), q)) : q.copies = p.copies := by
  have hentries : ∀ {kind : BindingKind} {f : NodeId → Binding → Render Unit},
      (∀ id b (r s : Pass), (f id b).exec r = (.ok (), s) → s.copies = r.copies) → ∀ {r s : Pass},
      (ids.forM fun id => do (v.entriesAt kind (← Render.tree) id).forM (f id)).exec r = (.ok (), s) → s.copies = r.copies :=
    fun hf r s hs => exec_forM_induct (·.copies = r.copies) rfl (fun id _ r' s' hr' hs' => by
      rw [exec_bind_ok (exec_tree r')] at hs'
      exact exec_forM_induct (·.copies = r.copies) hr' (fun b _ r'' s'' hr'' hs'' => (hf id b r'' s'' hs'').trans hr'') hs') hs
  unfold sync at h
  obtain ⟨_, r, h₁, h⟩ := exists_of_exec_bind h
  obtain ⟨_, s, h₂, h₃⟩ := exists_of_exec_bind h
  refine (hentries (fun id b r s hs => ?_) h₃).trans ((hentries (fun id b r s hs => ?_) h₂).trans (hentries (fun id b r s hs => ?_) h₁))
  · rcases exec_bindProperty_ok hs with rfl | ⟨_, t, -, rfl⟩ <;> rfl
  · obtain ⟨t, _, -, rfl⟩ := exec_bindContentEntry_ok hs
    rfl
  · cases htarget : b.target with
    | none =>
      simp only [bindAttribute, htarget] at hs
      cases hs
      rfl
    | some target =>
      obtain ⟨t, rfl, -⟩ := exec_bindAttribute_ok htarget hs
      rfl

/-- What is known of lists that can be made. -/
def MakesLists (v : View) (make : NodeId → Scope → Render Unit) : Prop :=
  ∀ template scope (p : Pass), v.Workable p → (∀ x, p.tree.Inside x template → v.Settled p.tree x) →
    (make template scope).Reaches (2 ^ 32) p fun _ q => v.Workable q

section

variable {make : NodeId → Scope → Render Unit} (hhidden : Text.asciiLower v.options.hiddenAttribute ∉ v.marks)
  (hn : LeadsLists v (2 ^ 32) make)

include hn in
theorem leads_templates (templates : List NodeId) (hp : p.tree.WellFormed) :
    Pass.Leads (2 ^ 32) .all p ((templates.forM (make · scope)).exec p).2 :=
  leads_forM hp fun template _ q hq => hn template scope q _ hq.wellFormed (Nat.le_add_left _ _) trivial
    (fun _ => trivial) trivial fun _ _ _ _ _ => trivial

include hhidden hn in
/-- The lists of a scan are made one after the other: each leaves alone what is in the templates of the others. -/
theorem reaches_templates (hmake : v.MakesLists make) (hs : s.tree.WellFormed) (hbase : s.tree.InUse base)
    (hplain : s.tree.hasAttr base (v.attributeName .foreach) = false) (hsettled : ∀ x, s.tree.Inside x base → v.Settled s.tree x)
    (hp : v.Workable p)
    (hlead : ∀ template ∈ (v.scan s.tree s.copies base).templates, Pass.Leads (2 ^ 32) (around v s.tree template) s p) :
    ((v.scan s.tree s.copies base).templates.forM (make · scope)).Reaches (2 ^ 32) p fun _ q => v.Workable q := by
  let I (q : Pass) : Prop := (∀ template ∈ (v.scan s.tree s.copies base).templates,
    Pass.Leads (2 ^ 32) (around v s.tree template) s q) ∧ (q.tree.mutations < 2 ^ 32 → v.Workable q)
  have hone : ∀ template ∈ (v.scan s.tree s.copies base).templates, ∀ q, I q →
      q.tree.mutations ≤ ((make template scope).exec q).2.tree.mutations ∧
        (make template scope).Reaches (2 ^ 32) q fun _ r => v.Workable r := fun template ht q hq => by
    have hbelow := (hs.mem_preorder_iff_inside hbase).1 (mem_templates_scan ht).1
    have htused := hs.inUse_of_isElement (mem_templates_scan ht).2.1
    have hle : q.tree.mutations ≤ ((make template scope).exec q).2.tree.mutations :=
      (hn template scope q .all (hq.1 template ht).wellFormed (Nat.le_add_left _ _) trivial
        (fun _ => trivial) trivial fun _ _ _ _ _ => trivial).mutations_le
    refine ⟨hle, fun hm => hmake template scope q (hq.2 (hle.trans_lt hm)) (fun x hx => ?_) hm⟩
    exact (ofBindings_settled v).of_around hs htused (fun y hy => hsettled y (hy.trans hbelow))
      ((hq.1 template ht).later (hle.trans_lt hm)) (hle.trans_lt hm) hx
  have hkept : ∀ template ∈ (v.scan s.tree s.copies base).templates, ∀ q, I q → I ((make template scope).exec q).2 :=
    fun template ht q hq => by
      refine ⟨fun other ho => ?_, fun hm => ?_⟩
      · exact (hq.1 other ho).trans (leads_around hhidden hn hs hbase hplain ho ht (hq.1 other ho))
      · obtain ⟨u, r, hok, hr⟩ := (hone template ht q hq).2 hm
        rwa [hok]
  intro hm
  obtain ⟨u, q, hok, hq⟩ := reaches_forM I hkept (fun template ht q hq hm => by
    obtain ⟨u, r, hok, -⟩ := (hone template ht q hq).2 hm
    exact ⟨u, r, hok, trivial⟩) ⟨hlead, fun _ => hp⟩ hm
  rw [hok] at hm
  exact ⟨u, q, hok, hq.2 hm⟩

/-- Bringing what a scan finds up to date succeeds if everything is settled, and leaves alone what is in the templates. -/
theorem reaches_sync_scan (hp : v.Workable p) (hbase : p.tree.InUse base)
    (hsettled : ∀ x, p.tree.Inside x base → v.Settled p.tree x) :
    (v.sync scope (v.scan p.tree p.copies base).elements).Reaches (2 ^ 32) p fun _ q => v.Workable q ∧
      ∀ template ∈ (v.scan p.tree p.copies base).templates, Pass.Leads (2 ^ 32) (around v p.tree template) p q := by
  have hw := hp.whole.wellFormed
  have hmem : ∀ id ∈ (v.scan p.tree p.copies base).elements, p.tree.InUse id ∧ v.Settled p.tree id := fun id hid =>
    ⟨hw.inUse_of_isElement (mem_elements_scan hid).2.1, hsettled id ((hw.mem_preorder_iff_inside hbase).1 (mem_elements_scan hid).1)⟩
  intro hm
  obtain ⟨u, q, hq, hunder⟩ := reaches_sync hp.whole hmem hm
  rw [hq] at hm
  refine ⟨u, q, hq, hp.later hunder.whole (hunder.leads.later hm) hm (copies_sync hq) fun _ _ _ hn hw => hw hn, fun template ht => ?_⟩
  exact leads_of_exec hq (leads_sync_around hw hbase (fun x hx => (hsettled x hx).tidy) ht)

include hhidden hn in
/-- Binding a copy succeeds if everything in it is settled. -/
theorem reaches_bindCopy (hmake : v.MakesLists make) (hp : v.Workable p) (hc : p.tree.InUse c)
    (hplain : p.tree.hasAttr c (v.attributeName .foreach) = false) (hsettled : ∀ x, p.tree.Inside x c → v.Settled p.tree x)
    (item : ItemScope) : (v.bindCopy make c item).Reaches (2 ^ 32) p fun _ q => v.Workable q := by
  have hw := hp.whole.wellFormed
  have hlisten : ∀ q : Pass, q.tree.WellFormed → Pass.Leads (2 ^ 32) .any q
      { q with document := (v.scan p.tree p.copies c).elements.foldl (v.listen (some item)) q.document } := fun q hq =>
    leads_listen hq _ fun _ _ => trivial
  unfold bindCopy
  refine reaches_bind_ok (exec_view _ p) (reaches_bind (reaches_sync_scan hp hc hsettled) (fun u q hq => ?_) fun u q _ hq => ?_)
  · have hwq := (leads_of_exec hq (leads_sync_all (2 ^ 32) hw _)).wellFormed
    rw [exec_bind, exec_editDocument]
    exact (hlisten q hwq).mutations_le.trans (leads_templates hn _ (hlisten q hwq).wellFormed).mutations_le
  · obtain ⟨hwork, hleads⟩ := hq
    refine reaches_bind_ok (exec_editDocument _ q) (reaches_templates hhidden hn hmake hw hc hplain hsettled ?_ fun template ht => ?_)
    · exact hwork.congr (tree_foldl_listen ..) rfl
    · exact (hleads template ht).trans (leads_listen (hleads template ht).wellFormed _ fun _ _ => trivial)

end

/-! The copies of a list. -/

/-- Where the template and what is in it stay, nothing else comes into it. -/
theorem inside_of_stays_all (hp : p.tree.WellFormed) (hq : q.tree.WellFormed) (ht : p.tree.InUse template)
    (hout : ¬ p.tree.Inside up template) (hstays : ∀ x, p.tree.InUse x → Pass.Stays up p q x) (hx : q.tree.Inside x template) :
    p.tree.Inside x template := by
  induction hx using Relation.ReflTransGen.head_induction_on with
  | refl => exact .refl p.tree template
  | @head x y hy _ ih =>
    have hyu := hp.inUse_of_mem_preorder ht ((hp.mem_preorder_iff_inside ht).2 ih)
    have hchildren := (hstays y hyu).children fun he => hout (he ▸ ih)
    exact .up (hp.mem_children_iff.1 (hchildren ▸ hq.mem_children_iff.2 hy)) ih

section

variable {fuel index : Nat} {cls : String} {item : ItemScope} {t : Tree} (hhidden : Text.asciiLower v.options.hiddenAttribute ∉ v.marks)

/-- A copy that comes on record is no template. -/
theorem Workable.record (h : v.Workable p) (hc : p.tree.InUse c) (hplain : p.tree.attr? c (v.attributeName .foreach) = none) :
    v.Workable { p with copies := c :: p.copies } :=
  ⟨h.whole, List.forall_mem_cons.2 ⟨.inl hc, h.known⟩, List.forall_mem_cons.2 ⟨fun _ => by simp [hasAttr, hplain], h.bare⟩⟩

include hhidden in
/-- Making the copies of a list succeeds if everything in the template is settled. -/
theorem reaches_makeCopies (hmake : v.MakesLists (v.renderListWithin fuel)) {items : List Value} (hp : v.Workable p)
    (helement : p.tree.isElement template = true) (hup : p.tree.parent? anchor = some up) (hout : ¬ p.tree.Inside up template)
    (hsettled : ∀ x, p.tree.Inside x template → v.Settled p.tree x) :
    (v.makeCopies (v.renderListWithin fuel) template scope cls items index anchor).Reaches (2 ^ 32) p
      fun _ q => v.Workable q ∧ q.tree.isElement template = true := by
  induction items generalizing p index anchor with
  | nil => exact fun _ => ⟨(), p, rfl, hp, helement⟩
  | cons item items ih =>
    have hw := hp.whole.wellFormed
    have ht := hw.inUse_of_isElement helement
    obtain ⟨c, tq, hc, -, -⟩ := exec_insertCopy (v := v) hp.whole helement hup
    obtain ⟨front, behind, hchildren⟩ := List.append_of_mem (hw.mem_children_iff.2 hup)
    obtain ⟨hq, -, hcq, -, hentries⟩ := insertCopy_spec hp.whole helement hup hchildren hc
    have hin := inserted_of_exec hw hc
    set q := p.withTree tq with hqdef
    have hlead : Pass.Leads (2 ^ 32) (.behind anchor) p q := leads_of_exec hc (leads_insertCopy hw rfl)
    have hstill : ∀ {u r}, (v.bindCopy (v.renderListWithin fuel) c (.within scope item index)).exec q = (.ok u, r) →
        r.tree.Whole ∧ r.tree.isElement c = true := fun hr => by
      have hworks := works_bindCopy_fenceBeside hq hin.inUse hin.plain fuel (.within scope item index)
      rw [hr] at hworks
      exact ⟨hworks.deeds.whole hq, (hworks.confined.isElement c (outside_self hin.inUse)).trans hcq⟩
    have hbehind : ∀ r : Pass, r.tree.WellFormed → r.tree.mutations ≤
        ((v.makeCopies (v.renderListWithin fuel) template scope cls items (index + 1) c).exec r).2.tree.mutations := fun r hr =>
      (leads_makeCopies (F := .any) (leadsLists_renderListWithin v 0 fuel) hr (Nat.zero_le _) trivial (fun _ => trivial) ..).mutations_le
    unfold makeCopies
    refine reaches_bind_ok hc (reaches_bind (Q := fun _ r => v.Workable r) (fun hm => ?_) (fun u r hr => ?_) fun u r hr hwork => ?_)
    · have hle : q.tree.mutations ≤ ((v.bindCopy (v.renderListWithin fuel) c (.within scope item index)).exec q).2.tree.mutations :=
        (leads_bindCopy_any (leadsLists_renderListWithin v 0 fuel) hq.wellFormed (Nat.zero_le _) hin.inUse hin.plain _).mutations_le
      have hmq := hle.trans_lt hm
      refine reaches_bindCopy hhidden (leadsLists_renderListWithin v _ fuel) hmake ?_ hin.inUse hin.plain (fun x hx => ?_) _ hm
      · exact hp.later hq (hlead.later hmq) hmq rfl fun _ _ _ hn hw => ne_of_mem_marks hn (by decide) hw
      · exact (ofBindings_settled v).of_insertCopy hhidden hw ht hsettled hc hx
    all_goals
      obtain ⟨hr', hcr⟩ := hstill hr
      obtain ⟨t, hmark⟩ := exists_addClass_of_isElement hcr cls
    · have hwrites := writes_addClass hr'.wellFormed hmark
      rw [exec_bind_ok (Render.exec_edit_ok hmark), exec_bind_ok (exec_modify _ _)]
      exact hwrites.mutations_le.trans (hbehind { r.withTree t with copies := c :: r.copies } (hwrites.wellFormed hr'.wellFormed))
    · have hplain := attr?_foreach_bindCopy hq hin.inUse hin.plain
        (fun b hb target htarget hmark => (hsettled template (.refl p.tree template)).unwritten b (hentries .attr b hb) target
          htarget .foreach hmark.symm) hr
      obtain ⟨hwhole, -, hcup, -, hstays⟩ := makeCopy_kept hp.whole helement hup hchildren hc hr hmark
      have hinside := fun {x} => inside_of_stays_all (x := x) hw hwhole.wellFormed ht hout hstays
      refine reaches_bind_ok (Render.exec_edit_ok hmark) (reaches_bind_ok (exec_modify _ _) ?_)
      have hwrites := writes_addClass hr'.wellFormed hmark
      have hmarked := hwork.write hwrites fun _ hx => asciiLower_attributeName_ne v .foreach "class" (by decide) hx.2
      refine ih (hmarked.record ((hwrites.inUse c).2 (hr'.wellFormed.inUse_of_isElement hcr)) ?_) ((hstays template ht).isElement.trans helement) hcup (fun hi => hout (hinside hi)) fun x hx => ?_
      · exact (hwrites.attr? fun hx => asciiLower_attributeName_ne v .foreach "class" (by decide) hx.2).trans hplain
      -- what is in the template is as it was
      have hxp := hinside hx
      have hxu := hw.inUse_of_mem_preorder ht ((hw.mem_preorder_iff_inside ht).2 hxp)
      refine (ofBindings_settled v).congr (hsettled x hxp) fun kind _ => ?_
      rw [entriesAt, (hstays x hxu).attr?, entriesAt]

include hhidden in
/-- Lists in settled templates can be made, whatever their depth. -/
theorem makesLists_renderListWithin (fuel : Nat) : v.MakesLists (v.renderListWithin fuel) := by
  induction fuel with
  | zero => exact fun template scope p hp _ _ => ⟨(), p, rfl, hp⟩
  | succ fuel ih =>
    intro template scope p hp hsettled
    unfold renderListWithin
    refine reaches_bind_ok (exec_tree p) ?_
    split
    · exact fun _ => ⟨(), p, rfl, hp⟩
    split
    · exact fun _ => ⟨(), p, rfl, hp⟩
    next hconn _ expression he =>
    refine reaches_bind_ok (exec_iterate ..) ?_
    split
    · exact fun _ => ⟨(), p.evaluated expression scope, rfl, hp.congr rfl rfl⟩
    next items _ =>
    have hw := hp.whole.wellFormed
    have hattr := hasAttr_of_listExpression? he
    have ht := hw.inUse_of_isElement (isElement_of_hasAttr hattr)
    obtain ⟨up, hup⟩ := exists_parent_of_hasAttr hw hattr (by simpa using hconn)
    obtain ⟨q, hq, htorn⟩ := tornDown_tearDown (p := p.evaluated expression scope) hp.whole hup (v.copyClass expression)
    have hwq := htorn.rid.whole.wellFormed
    -- a template is no copy, so it is not torn down
    have htq : q.tree.InUse template := (htorn.rid.inUse_iff template).2 ⟨ht, fun hgone => by
      obtain ⟨c, hc, hin⟩ := hgone
      have hstale := (mem_staleCopies_iff (p := p.evaluated expression scope) hw hup).1 hc
      rcases hin.eq_or_up with rfl | ⟨y, hy, hyc⟩
      · rw [hp.bare template hstale.2.1 ht] at hattr
        cases hattr
      · obtain rfl : y = up := Option.some.inj (hy.symm.trans hup)
        exact hw.not_inside_of_parent? hstale.1 hyc⟩
    have hstays := htorn.stays template htq
    have hinside : ∀ x, q.tree.Inside x template → p.tree.Inside x template ∧ q.tree.InUse x := fun x hx =>
      have hxq := hwq.inUse_of_mem_preorder htq ((hwq.mem_preorder_iff_inside htq).2 hx)
      ⟨(htorn.rid.inside_iff x template hxq).1 hx, hxq⟩
    have hlead : Pass.Leads (2 ^ 32) .all p q :=
      (leads_evaluated expression scope hw).trans (leads_of_exec hq (leads_tearDown (p := p.evaluated expression scope) hw fun _ _ => trivial))
    refine reaches_bind_ok hq (reaches_bind (Q := fun _ r => v.Workable r ∧ r.tree.isElement template = true) (fun hm => ?_)
      (fun u r hr => ?_) fun u r _ hr hm => ?_)
    · have hle : q.tree.mutations ≤ ((v.makeCopies (v.renderListWithin fuel) template scope (v.copyClass expression) items 0
          template).exec q).2.tree.mutations :=
        (leads_makeCopies (F := .any) (leadsLists_renderListWithin v 0 fuel) hwq (Nat.zero_le _) trivial (fun _ => trivial) ..).mutations_le
      have hwork : v.Workable q := by
        refine ⟨htorn.rid.whole, (hlead.later (hle.trans_lt hm)).known hp.known, fun x hx hxq => ?_⟩
        rw [hasAttr, (htorn.stays x hxq).attr?, ← hasAttr]
        exact hp.bare x ((htorn.stays x hxq).recorded.1 hx) (htorn.thinned.old x hxq).1
      refine reaches_makeCopies hhidden ih hwork (hstays.isElement.trans (isElement_of_hasAttr hattr)) (hstays.parent?.trans hup)
        (fun hi => ?_) (fun x hx => ?_) hm
      · exact hw.not_inside_of_parent? hup (hinside up hi).1
      · obtain ⟨hxp, hxq⟩ := hinside x hx
        refine (ofBindings_settled v).congr (hsettled x hxp) fun kind _ => ?_
        rw [entriesAt, (htorn.stays x hxq).attr?, Pass.tree_evaluated, entriesAt]
    · have hmade : Pass.Leads 0 .any q r := leads_of_exec hr <|
        leads_makeCopies (leadsLists_renderListWithin v 0 fuel) hwq (Nat.zero_le _) trivial (fun _ => trivial) ..
      have hhide : Pass.Leads 0 .any r ((edit (·.setAttr template v.options.hiddenAttribute "")).exec r).2 :=
        leads_edit hmade.wellFormed fun t ht =>
          ((writes_setAttr hmade.wellFormed ht).mono fun _ _ _ => trivial).later hmade.wellFormed
      exact hhide.mutations_le
    · obtain ⟨hwork, helement⟩ := hr
      obtain ⟨t, hset⟩ := exists_setAttr_of_isElement helement v.options.hiddenAttribute ""
      refine ⟨(), r.withTree t, Render.exec_edit_ok hset, hwork.write (writes_setAttr hwork.whole.wellFormed hset) fun x hx => ?_⟩
      exact hhidden (hx.2 ▸ v.mem_marks (by simp))

end

/-! The roots of a page, one after the other. -/

namespace Orderly

/-- The visit of a root on a page that is settled succeeds, if the roots before it have left it alone. -/
theorem reaches_renderRoot (h : Orderly v p) (hsettled : ∀ x, p.tree.InUse x → v.Settled p.tree x) (ha : a ∈ v.roots)
    (hra : Pass.Leads (2 ^ 32) (around v p.tree a) p r) (hwork : v.Workable r) :
    (v.renderRoot a).Reaches (2 ^ 32) r fun _ q => v.Workable q := by
  intro hm
  have hr := hwork.whole.wellFormed
  have hlead : Pass.Leads 0 .all r ((v.renderRoot a).exec r).2 := leads_renderRoot a hr (Nat.zero_le _)
  have hl := hlead.mutations_le.trans_lt hm
  have hm' := lt_limit p.tree hl
  have hlater := hra.later hl
  revert hm
  unfold renderRoot
  refine reaches_bind_ok (exec_tree r) ?_
  split
  · next hc =>
    have hau : r.tree.InUse a := hr.inUse_of_mem_preorder hr.inUse_root (hr.isConnected_iff.1 hc)
    have hap : p.tree.InUse a := ((h.roots a ha).1).resolve_right fun hex => (hlater.tree.expired hex).not_inUse (by omega) hau
    have hinside : ∀ x, r.tree.Inside x a → v.Settled r.tree x := fun x hx =>
      (ofBindings_settled v).of_around h.wellFormed hap
        (fun y hy => hsettled y (h.wellFormed.inUse_of_mem_preorder hap ((h.wellFormed.mem_preorder_iff_inside hap).2 hy))) hlater hl hx
    have hplain : r.tree.hasAttr a (v.attributeName .foreach) = false := by
      rw [hasAttr, attr?_of_later hlater.tree hm' (by simp) hap hau fun name hn hw => hw hn]
      exact h.plain a ha
    have hmake : v.MakesLists v.renderList := fun template scope q hq hs =>
      reaches_bind_ok (exec_tree q) (makesLists_renderListWithin h.hidden q.tree.slots.size template scope q hq hs)
    refine reaches_bind_ok (exec_view _ r) (reaches_bind (reaches_sync_scan hwork hau hinside) (fun u q hq => ?_) fun u q _ hq => ?_)
    · exact (leads_templates (leadsLists_renderList v _) _ (leads_of_exec hq (leads_sync_all (2 ^ 32) hr _)).wellFormed).mutations_le
    · exact reaches_templates h.hidden (leadsLists_renderList v _) hmake hr hau hplain hinside hq.1 hq.2
  · exact fun _ => ⟨(), r, rfl, hwork⟩

theorem reaches_roots (h : Orderly v p) (hsettled : ∀ x, p.tree.InUse x → v.Settled p.tree x) {roots : List NodeId}
    (hsub : roots ⊆ v.roots) (hnodup : roots.Nodup) (hr : ∀ a ∈ roots, Pass.Leads (2 ^ 32) (around v p.tree a) p r)
    (hwork : v.Workable r) : (roots.forM v.renderRoot).Reaches (2 ^ 32) r fun _ q => v.Workable q := by
  induction roots generalizing r with
  | nil => exact fun _ => ⟨(), r, rfl, hwork⟩
  | cons a roots ih =>
    obtain ⟨har, hnodup⟩ := List.nodup_cons.1 hnodup
    obtain ⟨ha, hsub⟩ := List.cons_subset.1 hsub
    have hra := hr a (by simp)
    refine reaches_bind (f := fun _ => roots.forM v.renderRoot) (h.reaches_renderRoot hsettled ha hra hwork) (fun u q hq => ?_)
      fun u q hq hworkq => ?_
    · have hfirst : Pass.Leads 0 .all r q := leads_of_exec hq (leads_renderRoot a hwork.whole.wellFormed (Nat.zero_le _))
      have hrest : Pass.Leads 0 .all q ((roots.forM v.renderRoot).exec q).2 :=
        leads_forM hfirst.wellFormed fun b _ s hs => leads_renderRoot b hs.wellFormed (Nat.zero_le _)
      exact hrest.mutations_le
    · refine ih hsub hnodup (fun b hb => ?_) hworkq
      have hrb := hr b (by simp [hb])
      exact hrb.trans (leads_of_exec hq (h.leads_other ha (hsub hb) (fun he => har (he ▸ hb)) hra hrb))

/-- A pass over a page that is settled succeeds. -/
theorem reaches_render (h : Orderly v p) (hwork : v.Workable p) (hsettled : ∀ x, p.tree.InUse x → v.Settled p.tree x) :
    v.render.Reaches (2 ^ 32) p fun _ q => v.Workable q :=
  h.reaches_roots hsettled (List.Subset.refl _) h.nodup (fun _ _ => .refl h.wellFormed) hwork

end Orderly

end View

end ViewBinding
