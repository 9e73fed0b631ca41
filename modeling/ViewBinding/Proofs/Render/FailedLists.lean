import ViewBinding.Proofs.Render.Failure

/-! Lists that fail. The copy that is being bound when a pass stops has been inserted, but it is neither on record nor
does it carry its class: for the next pass it is an element as any other. -/
namespace ViewBinding

open Render

namespace View

open ViewBinding.Tree

variable {v : View} {p q s : Pass} {x base e : NodeId} {scope : Scope} {name : String}

theorem lt_limit {m : Nat} (t : Tree) (h : m < 2 ^ 32) : m < t.mutations + 2 ^ 32 := h.trans_le (Nat.le_add_left _ _)

/-- The way from `base` down to an element that no pass gets past. -/
structure Caught (v : View) (q : Pass) (base e : NodeId) : Prop where
  way : OpenWay v q.tree q.copies e base
  faulty : Faulty v q.tree e
  tame : ∀ x, q.tree.Inside e x → q.tree.Inside x base → Tame v q.tree x

/-- What may happen on a tidy page: all but that nodes that are there are put on record, or their bindings written. -/
def quiet (v : View) : Footprint where
  followed _ := True
  removed _ := True
  filled _ := True
  recorded _ := False
  heard _ := True
  written _ name := name ∉ v.marks

/-- What may happen outside of a template while nothing happens in it. -/
def around (v : View) (t : Tree) (template : NodeId) : Footprint where
  followed x := t.Inside x template → x = template
  removed x := t.Inside x template → x = template
  filled x := ¬ t.Inside x template
  recorded _ := False
  heard _ := True
  written _ name := name ∉ v.marks

theorem around_le_quiet (v : View) (t : Tree) (template : NodeId) : around v t template ≤ quiet v :=
  ⟨fun _ _ => trivial, fun _ _ => trivial, fun _ _ => trivial, fun _ => False.elim, fun _ => id, fun _ _ => id⟩

/-- What holds of all that is in a template lasts while nothing happens in it. -/
theorem OfBindings.of_around {P : Tree → NodeId → Prop} (hP : v.OfBindings P) {template : NodeId} (hp : p.tree.WellFormed)
    (ht : p.tree.InUse template) (hall : ∀ x, p.tree.Inside x template → P p.tree x)
    (hl : Pass.Later (around v p.tree template) p q) (hq : q.tree.mutations < 2 ^ 32) (hx : q.tree.Inside x template) :
    P q.tree x := by
  have hxp := hl.tree.inside_of_untouched (lt_limit _ hq) hp ht (fun y hy hn => hn hy)
    (fun y hy hne => ⟨fun hf => hne (hf hy), fun hr => hne (hr hy)⟩) hx
  have hxu := hp.inUse_of_mem_preorder ht ((hp.mem_preorder_iff_inside ht).2 hxp)
  exact hP.later (hall x hxp) hl.tree (lt_limit _ hq) hxu fun name hn hw => hw hn

/-- What is found below a copy is found below all to which the way is open. -/
theorem Caught.below {c up : NodeId} (h : Caught v q c e) (hc : q.tree.parent? c = some up)
    (hway : OpenWay v p.tree p.copies up base) (hl : Pass.Later (quiet v) p q) (hp : p.tree.WellFormed)
    (hq : q.tree.mutations < 2 ^ 32) (hroot : p.tree.Inside up root)
    (htame : ∀ x, p.tree.Inside x base → Tidy v p.tree x) : Caught v q base e := by
  have hm := lt_limit p.tree hq
  have hwq := hl.tree.wellFormed
  have hupq := hwq.inUse_parent hc
  have hway' := hway.later hl hp hm hroot hupq (fun _ _ hf => hf) fun _ _ name hn hw => hw hn
  refine ⟨h.way.trans (openWay_up hc (h.way.2 c h.way.1 (.refl _ c)) hway'), h.faulty, fun x hx hxb => ?_⟩
  rcases h.way.1.total hx with hcx | hxc
  · rcases hcx.eq_or_up with rfl | ⟨y, hy, hyx⟩
    · exact h.tame _ h.way.1 (.refl _ _)
    · rw [hc] at hy
      obtain rfl := Option.some.inj hy
      obtain ⟨-, hxp, hxu⟩ := hway.between hl.tree hp hm hroot hupq hyx hxb
      exact (htame x hxp).tame.later hl.tree hm hxu fun name hn hw => hw hn
  · exact h.tame x hx hxc

/-- What is known of lists that fail for want of a pipe. -/
def FailsInCopies (v : View) (make : NodeId → Scope → Render Unit) : Prop :=
  ∀ template scope (p q : Pass) name, p.tree.WellFormed → (∀ x ∈ p.copies, p.tree.Known x) →
    (∀ x, p.tree.Inside x template → Tidy v p.tree x) →
    (make template scope).exec p = (.error (.unknownPipe name), q) → q.tree.mutations < 2 ^ 32 →
    ∃ up c e, p.tree.parent? template = some up ∧ q.tree.parent? c = some up ∧ Caught v q c e

section templates

variable {make : NodeId → Scope → Render Unit} (hhidden : Text.asciiLower v.options.hiddenAttribute ∉ v.marks)
  (hn : LeadsLists v (2 ^ 32) make) (hs : s.tree.WellFormed) (hbase : s.tree.InUse base)
  (hplain : s.tree.hasAttr base (v.attributeName .foreach) = false)

include hs hbase in
/-- No open way leads out of a template that a scan finds. -/
theorem not_inside_template {template : NodeId} (ht : template ∈ (v.scan s.tree s.copies base).templates)
    (h : OpenWay v s.tree s.copies x base) : ¬ s.tree.Inside x template := fun hi => by
  obtain ⟨hmem, -, hattr⟩ := mem_templates_scan ht
  have := (h.2 template hi ((hs.mem_preorder_iff_inside hbase).1 hmem)).plain
  rw [hattr] at this
  cases this

include hs hplain in
theorem exists_up_of_template {template : NodeId} (ht : template ∈ (v.scan s.tree s.copies base).templates) :
    ∃ up, s.tree.parent? template = some up ∧ OpenWay v s.tree s.copies up base := by
  rcases open_of_mem_templates hs ht with rfl | h
  · rw [(mem_templates_scan ht).2.2] at hplain
    cases hplain
  · exact h

include hhidden hn hs in
/-- A list leaves all that is in a node alone if its template is not in there with its parent. -/
theorem leads_apart {target other up : NodeId} (hup : s.tree.parent? other = some up)
    (hupt : ¬ s.tree.Inside up target) (hp : Pass.Leads (2 ^ 32) (around v s.tree target) s p) :
    Pass.Leads (2 ^ 32) (around v s.tree target) p ((make other scope).exec p).2 := by
  have houter : ∀ x, s.tree.parent? x = some up → s.tree.Inside x target → x = target := fun x hx hi => by
    rcases hi.eq_or_up with he | ⟨y, hy, hi⟩
    · exact he
    · rw [hx] at hy
      obtain rfl := Option.some.inj hy
      exact absurd hi hupt
  refine hn other scope p _ hp.wellFormed (Nat.le_add_left _ _) (houter other hup)
    (fun x hx => ne_of_mem_marks hx (by decide) rfl) hhidden fun hl source _ x hx hxt => ?_
  -- a copy beside the template does not lie in the node
  have hlater := (hp.later hl).tree
  have hm := lt_limit s.tree hl
  unfold staleCopies at hx
  split at hx
  · simp at hx
  next up' hup' =>
    have hxp := hp.wellFormed.mem_children_iff.1 (List.mem_filter.1 (List.mem_filter.1 hx).1).1
    have hsame := hlater.parent?_eq_some hm (hs.inUse_of_parent? hup) (hp.wellFormed.inUse_of_parent? hup') hup
    rw [hup'] at hsame
    cases hsame
    rcases hxt.eq_or_up with he | ⟨y, hy, hyt⟩
    · exact he
    · have hsame := hlater.parent?_eq_some hm (hs.inUse_of_parent? hy) (hp.wellFormed.inUse_of_parent? hxp) hy
      rw [hxp] at hsame
      cases hsame
      exact absurd hyt hupt

include hhidden hn hs hbase hplain in
/-- A list leaves all that is in the templates of a scan alone. -/
theorem leads_around {template other : NodeId} (ht : template ∈ (v.scan s.tree s.copies base).templates)
    (ho : other ∈ (v.scan s.tree s.copies base).templates)
    (hp : Pass.Leads (2 ^ 32) (around v s.tree template) s p) :
    Pass.Leads (2 ^ 32) (around v s.tree template) p ((make other scope).exec p).2 := by
  obtain ⟨up, hup, hway⟩ := exists_up_of_template hs hplain ho
  exact leads_apart hhidden hn hs hup (not_inside_template hs hbase ht hway) hp

include hhidden hn hs hbase hplain in
/-- If making the lists of a scan fails, the next pass is caught below what has been scanned. -/
theorem exists_caught_of_templates (hf : FailsInCopies v make) (hroot : s.tree.Inside base root)
    (hknown : ∀ x ∈ s.copies, s.tree.Known x) (htidy : ∀ x, s.tree.Inside x base → Tidy v s.tree x)
    (hp : ∀ template ∈ (v.scan s.tree s.copies base).templates,
      Pass.Leads (2 ^ 32) (around v s.tree template) s p)
    (h : ((v.scan s.tree s.copies base).templates.forM (make · scope)).exec p = (.error (.unknownPipe name), q))
    (hq : q.tree.mutations < 2 ^ 32) : ∃ e, Caught v q base e := by
  obtain ⟨front, template, behind, r, htemplates, hfront, herr⟩ := exec_forM_error h
  have hmem : template ∈ (v.scan s.tree s.copies base).templates := by simp [htemplates]
  have hlead : Pass.Leads (2 ^ 32) (around v s.tree template) s r := by
    refine (hp template hmem).trans (leads_of_exec hfront (leads_forM (hp template hmem).wellFormed ?_))
    intro other ho r' hr'
    exact leads_around hhidden hn hs hbase hplain hmem (by simp [htemplates, ho]) ((hp template hmem).trans hr')
  have hquiet : Pass.Leads (2 ^ 32) (quiet v) r q := leads_of_exec herr <|
    hn template scope r _ hlead.wellFormed (Nat.le_add_left _ _) trivial
      (fun x hx => ne_of_mem_marks hx (by decide) rfl) hhidden fun _ _ _ _ _ => trivial
  have hr := hquiet.mutations_le.trans_lt hq
  have hlater := hlead.later hr
  obtain ⟨up, hup, hway⟩ := exists_up_of_template hs hplain hmem
  have ht := hs.inUse_of_parent? hup
  have hbelow := (hs.mem_preorder_iff_inside hbase).1 (mem_templates_scan hmem).1
  obtain ⟨up', c, e, hup', hc, hcaught⟩ := hf template scope r q name hlead.wellFormed (hlater.known hknown)
    (fun x hx => (ofBindings_tidy v).of_around hs ht (fun y hy => htidy y (hy.trans hbelow)) hlater hr hx) herr hq
  have hsame := hlater.tree.parent?_eq_some (lt_limit _ hr) ht (hlead.wellFormed.inUse_of_parent? hup') hup
  rw [hup'] at hsame
  cases hsame
  refine ⟨e, hcaught.below hc hway ((hlead.mono (around_le_quiet ..)).trans hquiet |>.later hq) hs hq ?_ htidy⟩
  exact hway.1.trans hroot

include hs hbase in
theorem tidy_of_mem_elements (htidy : ∀ x, s.tree.Inside x base → Tidy v s.tree x) :
    ∀ id ∈ (v.scan s.tree s.copies base).elements, s.tree.InUse id ∧ Tidy v s.tree id := fun id hid => by
  have hmem := (mem_elements_scan hid).1
  exact ⟨hs.inUse_of_mem_preorder hbase hmem, htidy id ((hs.mem_preorder_iff_inside hbase).1 hmem)⟩

include hs hbase in
theorem leads_sync_around (htidy : ∀ x, s.tree.Inside x base → Tidy v s.tree x) {template : NodeId}
    (ht : template ∈ (v.scan s.tree s.copies base).templates) :
    Pass.Leads (2 ^ 32) (around v s.tree template) s
      ((v.sync scope (v.scan s.tree s.copies base).elements).exec s).2 := by
  have hleads : Pass.Leads (2 ^ 32) (binding v (¬ s.tree.Inside · template)) s
      ((v.sync scope (v.scan s.tree s.copies base).elements).exec s).2 :=
    leads_sync_tidy hs (tidy_of_mem_elements hs hbase htidy) fun id hid =>
      not_inside_template hs hbase ht ((mem_elements_scan_iff hs hbase).1 hid)
  exact hleads.mono
    ⟨fun _ => False.elim, fun _ => False.elim, fun _ hf => hf, fun _ => False.elim, fun _ => False.elim,
      fun _ _ hw => hw⟩

include hs hbase in
/-- If bringing the elements of a scan up to date fails, the next pass is caught at one of them. -/
theorem exists_caught_of_sync (hroot : s.tree.Inside base root)
    (htidy : ∀ x, s.tree.Inside x base → Tidy v s.tree x)
    (h : (v.sync scope (v.scan s.tree s.copies base).elements).exec s = (.error (.unknownPipe name), q))
    (hq : q.tree.mutations < 2 ^ 32) : ∃ e, Caught v q base e := by
  have hm := lt_limit s.tree hq
  have hway : ∀ id ∈ (v.scan s.tree s.copies base).elements, OpenWay v s.tree s.copies id base := fun id hid =>
    (mem_elements_scan_iff hs hbase).1 hid
  obtain ⟨e, he, hfaulty, hused, hlater⟩ := exists_faulty_of_sync hs (tidy_of_mem_elements hs hbase htidy)
    (fun id hid => (hway id hid).1.trans hroot) h hq
  have hconn := (hway e he).1.trans hroot
  refine ⟨e, (hway e he).later hlater hs hm hconn hused (fun _ _ hf => hf) fun _ _ name hn hw => hw hn, hfaulty,
    fun x hx hxb => ?_⟩
  obtain ⟨-, hxs, hxu⟩ := (hway e he).between hlater.tree hs hm hconn hused hx hxb
  exact (htidy x hxs).tame.later hlater.tree hm hxu fun name hn hw => hw hn

include hhidden hn hs hbase hplain in
/-- If binding a copy fails, the next pass is caught in it. -/
theorem exists_caught_of_bindCopy (hf : FailsInCopies v make) (hroot : s.tree.Inside base root)
    (hknown : ∀ x ∈ s.copies, s.tree.Known x) (htidy : ∀ x, s.tree.Inside x base → Tidy v s.tree x)
    {item : ItemScope} (h : (v.bindCopy make base item).exec s = (.error (.unknownPipe name), q))
    (hq : q.tree.mutations < 2 ^ 32) : ∃ e, Caught v q base e := by
  unfold bindCopy at h
  rw [exec_bind, exec_view] at h
  simp only at h
  rw [exec_bind] at h
  split at h
  · next u s' hs' =>
    rw [exec_bind, exec_editDocument] at h
    refine exists_caught_of_templates hhidden hn hs hbase hplain hf hroot hknown htidy (fun template ht => ?_) h hq
    have hlead := leads_of_exec hs' (leads_sync_around hs hbase htidy ht)
    exact hlead.trans (leads_listen hlead.wellFormed _ fun _ _ => trivial)
  · next err s' hs' =>
    cases h
    exact exists_caught_of_sync hs hbase hroot htidy hs' hq

end templates

end View

end ViewBinding
