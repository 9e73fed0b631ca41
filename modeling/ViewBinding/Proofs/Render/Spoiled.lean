import ViewBinding.Proofs.Render.Lists

/-! Pages that no pass gets through. Attribute bindings come first in a visit of a root, so an element with a pipe
that is not registered ends the visit before anything is done about it. -/
namespace ViewBinding

open Render

namespace View

open ViewBinding.Tree

variable {v : View} {limit : Nat} {F : Footprint} {p q : Pass} {t t' : Tree} {x : NodeId}

/-- The attributes that decide what a pass does at an element. -/
def marks (v : View) : List String :=
  [BindingKind.attr, .content, .foreach].map fun kind => Text.asciiLower (v.attributeName kind)

theorem mem_marks (v : View) {kind : BindingKind} (h : kind ∈ [BindingKind.attr, .content, .foreach]) :
    Text.asciiLower (v.attributeName kind) ∈ v.marks :=
  List.mem_map_of_mem h

/-- All marks have a hyphen. -/
theorem ne_of_mem_marks {name other : String} (h : name ∈ v.marks) (ho : '-' ∉ other.toList) : name ≠ other := by
  obtain ⟨kind, -, rfl⟩ := List.mem_map.1 h
  rintro rfl
  refine ho ?_
  rw [Text.asciiLower, String.toList_map, attributeName, BindingKind.attributeName]
  exact List.mem_map.2 ⟨'-', by simp, by decide⟩

/-- An element with an attribute binding whose pipe is not registered. -/
def Faulty (v : View) (t : Tree) (x : NodeId) : Prop :=
  ∃ b ∈ v.entriesAt .attr t x, b.target.isSome ∧ ∃ name, b.pipe = some name ∧ v.pipes.get? name = none

/-- An element whose attribute bindings do not write bindings. -/
def Tame (v : View) (t : Tree) (x : NodeId) : Prop :=
  ∀ b ∈ v.entriesAt .attr t x, ∀ target ∈ b.target, Text.asciiLower target ∉ v.marks

theorem entriesAt_of_not_inUse (ht : t.WellFormed) (hx : ¬ t.InUse x) (kind : BindingKind) :
    v.entriesAt kind t x = [] := by
  rw [entriesAt, attr?]
  cases he : t.element? x with
  | none => rfl
  | some e => exact absurd (ht.inUse_of_element? he) hx

theorem inUse_of_faulty (ht : t.WellFormed) (h : Faulty v t x) : t.InUse x := by
  by_contra hx
  obtain ⟨b, hb, -⟩ := h
  rw [entriesAt_of_not_inUse ht hx] at hb
  simp at hb

theorem attr?_of_later (h : Later F t t') (hm : t'.mutations < t.mutations + 2 ^ 32) {kind : BindingKind}
    (hk : kind ∈ [BindingKind.attr, .content, .foreach]) (hx : t.InUse x) (hx' : t'.InUse x)
    (hw : ∀ name ∈ v.marks, ¬ F.written x name) :
    t'.attr? x (v.attributeName kind) = t.attr? x (v.attributeName kind) :=
  (h.attrs x _ hx (hw _ (v.mem_marks hk))).resolve_right fun hex => hex.not_inUse hm hx'

theorem Faulty.later (hf : Faulty v t x) (h : Later F t t') (ht : t.WellFormed)
    (hm : t'.mutations < t.mutations + 2 ^ 32) (hx' : t'.InUse x) (hw : ∀ name ∈ v.marks, ¬ F.written x name) :
    Faulty v t' x := by
  unfold Faulty entriesAt at hf ⊢
  rwa [attr?_of_later h hm (by simp) (inUse_of_faulty ht hf) hx' hw]

theorem Tame.later (hx : Tame v t x) (h : Later F t t') (hm : t'.mutations < t.mutations + 2 ^ 32)
    (hu : t.InUse x) (hw : ∀ name ∈ v.marks, ¬ F.written x name) : Tame v t' x := by
  by_cases hx' : t'.InUse x
  · unfold Tame entriesAt at hx ⊢
    rwa [attr?_of_later h hm (by simp) hu hx' hw]
  · intro b hb
    rw [entriesAt_of_not_inUse h.wellFormed hx'] at hb
    simp at hb

theorem Open.later {copies copies' : List NodeId} (ho : Open v t copies x) (h : Later F t t')
    (hm : t'.mutations < t.mutations + 2 ^ 32) (ht : t.WellFormed) (hx' : t'.InUse x)
    (hw : ∀ name ∈ v.marks, ¬ F.written x name) (hc : x ∉ copies') : Open v t' copies' x := by
  obtain ⟨e, he⟩ := Option.isSome_iff_exists.1 ho.isElement
  have hx := ht.inUse_of_element? he
  refine ⟨(h.isElement_eq hm hx hx').trans ho.isElement, ?_, hc⟩
  rw [hasAttr, attr?_of_later h hm (by simp) hx hx' hw]
  exact ho.plain

/-- What is on a way later on was on it before. -/
theorem OpenWay.between {a y : NodeId} (h : OpenWay v p.tree p.copies x a) (hl : Tree.Later F p.tree q.tree)
    (hp : p.tree.WellFormed) (hm : q.tree.mutations < p.tree.mutations + 2 ^ 32) (hc : p.tree.Inside x root)
    (hx' : q.tree.InUse x) (hy : q.tree.Inside x y) (hya : q.tree.Inside y a) :
    p.tree.Inside x y ∧ p.tree.Inside y a ∧ p.tree.InUse y := by
  have hwq := hl.wellFormed
  have hyp := hl.inside_of_inside hp hm hc hy
  have hyap : p.tree.Inside y a := by
    rcases h.1.total hyp with hay | hya'
    · have hyq := hwq.inUse_of_inside hx' hy
      obtain rfl := hwq.inside_antisymm hya (hl.inside hp hm hay (hwq.inUse_of_inside hyq hya))
      exact .refl _ y
    · exact hya'
  obtain ⟨e, he⟩ := Option.isSome_iff_exists.1 (h.2 y hyp hyap).isElement
  exact ⟨hyp, hyap, hp.inUse_of_element? he⟩

/-- A way that is still there is still open, if nothing is recorded on it and its bindings are left alone. -/
theorem OpenWay.later {a : NodeId} (h : OpenWay v p.tree p.copies x a) (hl : Pass.Later F p q)
    (hp : p.tree.WellFormed) (hm : q.tree.mutations < p.tree.mutations + 2 ^ 32) (hc : p.tree.Inside x root)
    (hx' : q.tree.InUse x) (hr : ∀ y, p.tree.Inside x y → ¬ F.recorded y)
    (hw : ∀ y, p.tree.Inside x y → ∀ name ∈ v.marks, ¬ F.written y name) :
    OpenWay v q.tree q.copies x a := by
  refine ⟨hl.tree.inside hp hm h.1 hx', fun y hy hya => ?_⟩
  obtain ⟨hyp, hyap, hyu⟩ := h.between hl.tree hp hm hc hx' hy hya
  have hyq := hl.tree.wellFormed.inUse_of_inside hx' hy
  have ho := h.2 y hyp hyap
  refine ho.later hl.tree hm hp hyq (hw y hyp) fun hyc => ?_
  rcases hl.recorded y hyu hyc with hyc | hyr | hex
  · exact ho.unrecorded hyc
  · exact hr y hyp hyr
  · exact hex.not_inUse hm hyq

/-- What a pass leaves alone of the nodes in `K`: that they are there and what is bound at them. -/
def sparing (v : View) (K : NodeId → Prop) : Footprint where
  followed _ := True
  removed x := ¬ K x
  filled x := ¬ K x
  recorded x := ¬ K x
  heard x := ¬ K x
  written x name := K x → name ∉ v.marks

/-- A binding with a pipe that is not registered fails. -/
theorem exec_bindAttribute_faulty {b : Binding} {scope : Scope} (ht : b.target.isSome) {name : String}
    (hb : b.pipe = some name) (hn : v.pipes.get? name = none) (p : Pass) :
    ((v.bindAttribute scope x b).exec p).1 = .error (.unknownPipe name) := by
  obtain ⟨target, htarget⟩ := Option.isSome_iff_exists.1 ht
  unfold bindAttribute
  rw [htarget]
  simp only
  rw [exec_bind, exec_evaluateOrBlank]
  simp only
  rw [exec_bind, exec_piped, hb]
  simp [pipedText, PipeRegistry.apply, hn, Except.map]

/-- The attribute bindings of an element fail, if one of them has a pipe that is not registered. -/
theorem exec_bindAttributes_faulty {scope : Scope} (hp : p.tree.WellFormed) (h : Faulty v p.tree x) :
    ((v.bindAttributes scope x).exec p).1 ≠ .ok () := by
  obtain ⟨b, hb, ht, name, hpipe, hn⟩ := h
  intro hok
  unfold bindAttributes at hok
  rw [exec_bind, exec_tree] at hok
  have hstep : ∀ b ∈ v.entriesAt .attr p.tree x, ∀ q, Pass.Leads 0 .all p q →
      Pass.Leads 0 .all q ((v.bindAttribute scope x b).exec q).2 := fun b _ q hq =>
    leads_bindAttribute hq.wellFormed b fun _ _ => trivial
  obtain ⟨s, s', -, hrun, -⟩ := exec_forM_ok hp hstep (Prod.ext hok rfl) b hb
  have hfail : ((v.bindAttribute scope x b).exec s).1 = .error (.unknownPipe name) :=
    exec_bindAttribute_faulty ht hpipe hn s
  rw [hrun] at hfail
  cases hfail

/-- The attribute bindings of tame elements spare all marks. -/
theorem leads_attributes_sparing {K : NodeId → Prop} {id : NodeId} {scope : Scope} {r : Pass}
    (hlimit : limit ≤ p.tree.mutations + 2 ^ 32) (htame : K id → p.tree.InUse id ∧ Tame v p.tree id)
    (hr : Pass.Leads limit (sparing v K) p r) :
    Pass.Leads limit (sparing v K) r ((v.bindAttributes scope id).exec r).2 := by
  by_cases hl : r.tree.mutations < limit
  · refine leads_bindAttributes hr.wellFormed fun b hb target htarget hK => ?_
    obtain ⟨hused, ht⟩ := htame hK
    exact ht.later (hr.later hl).tree (hl.trans_le hlimit) hused (fun name hn hw => hw hK hn) b hb target htarget
  · have hall : Pass.Leads limit .all r ((v.bindAttributes scope id).exec r).2 :=
      leads_bindAttributes hr.wellFormed fun _ _ _ _ => trivial
    exact hall.of_limit_le (Nat.not_lt.1 hl)

/--
A page on which `e` has a pipe that is not registered, and the way from the root `base` down to `e` is open. The
nodes in `K` are those on the way from the document to `e`.
-/
structure Spoiled (v : View) (base e : NodeId) (K : NodeId → Prop) (p : Pass) : Prop where
  wellFormed : p.tree.WellFormed
  connected : p.tree.Inside e root
  path : ∀ x, p.tree.Inside e x ↔ K x
  way : OpenWay v p.tree p.copies e base
  faulty : Faulty v p.tree e
  tame : ∀ x, K x → Tame v p.tree x
  clear : ∀ x, K x → x ∉ p.copies
  known : ∀ a ∈ v.roots, p.tree.Known a ∧ (p.tree.InUse a → p.tree.Inside a root)
  apart : ∀ a ∈ v.roots, a ≠ base → p.tree.InUse a → ¬ p.tree.Inside a base ∧ ¬ p.tree.Inside base a

namespace Spoiled

variable {base e : NodeId} {K : NodeId → Prop}

theorem inUse (h : Spoiled v base e K p) (hx : K x) : p.tree.InUse x :=
  h.wellFormed.inUse_of_inside (inUse_of_faulty h.wellFormed h.faulty) ((h.path x).2 hx)

theorem inside_root (h : Spoiled v base e K p) (hx : K x) : p.tree.Inside x root := by
  rcases ((h.path x).2 hx).total h.connected with hi | hi
  · exact hi
  · rcases hi.eq_or_up with hi | ⟨y, hy, -⟩
    · exact hi ▸ .refl _ _
    · rw [h.wellFormed.parent?_root] at hy
      cases hy

/-- What spares the way down to the faulty element leaves the page spoiled. -/
theorem later (h : Spoiled v base e K p) (hl : Pass.Later (sparing v K) p q)
    (hq : q.tree.mutations < 2 ^ 32) : Spoiled v base e K q := by
  have hm : q.tree.mutations < p.tree.mutations + 2 ^ 32 := hq.trans_le (Nat.le_add_left _ _)
  have hw := hl.tree.wellFormed
  have he : q.tree.InUse e := hl.tree.inUse_of_stays hm h.connected
    (fun y hy hr => hr ((h.path y).1 hy)) fun y hy hf => hf ((h.path y).1 hy)
  have hpath : ∀ x, q.tree.Inside e x ↔ K x := fun x => by
    rw [← h.path x]
    exact ⟨hl.tree.inside_of_inside h.wellFormed hm h.connected, fun hx => hl.tree.inside h.wellFormed hm hx he⟩
  have hK : ∀ x, K x → q.tree.InUse x := fun x hx => hw.inUse_of_inside he ((hpath x).2 hx)
  have hmarks : ∀ x, K x → ∀ name ∈ v.marks, ¬ (sparing v K).written x name := fun x hx name hn hwr => hwr hx hn
  have hclear : ∀ x, K x → x ∉ q.copies := fun x hx hc => by
    rcases hl.recorded x (h.inUse hx) hc with hc | hr | hex
    · exact h.clear x hx hc
    · exact hr hx
    · exact hex.not_inUse hm (hK x hx)
  have hbaseK : K base := (h.path base).1 h.way.1
  have hroots : ∀ a ∈ v.roots, q.tree.InUse a → p.tree.InUse a := fun a ha hu => by
    rcases (h.known a ha).1 with hp | hex
    · exact hp
    · exact absurd hu ((hl.tree.expired hex).not_inUse (by omega))
  refine ⟨hw, hl.tree.inside h.wellFormed hm h.connected he, hpath, h.way.later hl h.wellFormed hm h.connected he
    (fun y hy hr => hr ((h.path y).1 hy)) (fun y hy => hmarks y ((h.path y).1 hy)), h.faulty.later hl.tree h.wellFormed hm he (hmarks e ?_),
    fun x hx => (h.tame x hx).later hl.tree hm (h.inUse hx) (hmarks x hx), hclear,
    fun a ha => ⟨hl.tree.known (h.known a ha).1, fun hu => ?_⟩, fun a ha hne hu => ?_⟩
  · exact (h.path e).1 (.refl _ e)
  · exact hl.tree.inside h.wellFormed hm ((h.known a ha).2 (hroots a ha hu)) hu
  · have hap := hroots a ha hu
    obtain ⟨hab, hba⟩ := h.apart a ha hne hap
    refine ⟨fun hi => hab ?_, fun hi => hba ?_⟩
    · exact hl.tree.inside_of_inside h.wellFormed hm ((h.known a ha).2 hap) hi
    · exact hl.tree.inside_of_inside h.wellFormed hm (h.inside_root hbaseK) hi

/-- What a root does that the faulty element does not lie in. -/
theorem leads_other (h : Spoiled v base e K p) {a : NodeId} (ha : a ∈ v.roots) (hne : a ≠ base) :
    Pass.Leads (2 ^ 32) (sparing v K) p ((v.renderRoot a).exec p).2 := by
  have hp := h.wellFormed
  have hlimit : ∀ r : Pass, 2 ^ 32 ≤ r.tree.mutations + 2 ^ 32 := fun r => Nat.le_add_left _ _
  have hselected : ∀ x, (sparing v K).written x "selected" := fun _ _ hn =>
    ne_of_mem_marks hn (by decide) rfl
  unfold renderRoot
  rw [exec_bind, exec_tree]
  simp only
  split
  · next hc =>
    have hau : p.tree.InUse a :=
      hp.inUse_of_mem_preorder hp.inUse_root (hp.isConnected_iff.1 hc)
    obtain ⟨hab, hba⟩ := h.apart a ha hne hau
    have hout : ∀ x, p.tree.Inside x a → ¬ K x := fun x hx hK => by
      rcases (((h.path x).2 hK).trans hx).total h.way.1 with hi | hi
      · exact hab hi
      · exact hba hi
    rw [exec_bind, exec_view]
    refine leads_bind (leads_sync hp hselected (fun x hx hK => ?_) fun x hx _ hK => ?_) fun _ q _ hq => ?_
    · exact absurd hK (hout x ((hp.mem_preorder_iff_inside hau).1 (mem_elements_scan hx).1))
    · exact absurd hK (hout x ((hp.mem_preorder_iff_inside hau).1 (mem_elements_scan hx).1))
    refine leads_forM hq.wellFormed fun template ht r hr => ?_
    have htK := hout template ((hp.mem_preorder_iff_inside hau).1 (mem_templates_scan ht).1)
    refine leadsLists_renderListWithin v _ _ template v.scope r _ hr.wellFormed (hlimit r) trivial hselected
      (fun hK => absurd hK htK) fun hl source _ x hx hK => ?_
    -- what is torn down is on record, and what leads to the faulty element is not
    have hlead := (hq.trans hr).later hl
    have hxr : r.tree.InUse x ∧ x ∈ r.copies := by
      unfold staleCopies at hx
      split at hx
      · simp at hx
      · obtain ⟨hchild, hstale⟩ := List.mem_filter.1 hx
        have hup := hr.wellFormed.mem_children_iff.1 (List.mem_filter.1 hchild).1
        exact ⟨hr.wellFormed.inUse_of_parent? hup, by simpa using (Bool.and_eq_true_iff.1 hstale).1⟩
    rcases hlead.recorded x (h.inUse hK) hxr.2 with hc | hf | hex
    · exact h.clear x hK hc
    · exact hf hK
    · exact hex.not_inUse (hl.trans_le (hlimit p)) hxr.1
  · exact .refl hp

/-- The visit of the root that the faulty element lies in fails. -/
theorem leads_base (h : Spoiled v base e K p) :
    Pass.Leads (2 ^ 32) (sparing v K) p ((v.renderRoot base).exec p).2 ∧
      (((v.renderRoot base).exec p).2.tree.mutations < 2 ^ 32 → ((v.renderRoot base).exec p).1 ≠ .ok ()) := by
  have hp := h.wellFormed
  have hlimit : 2 ^ 32 ≤ p.tree.mutations + 2 ^ 32 := Nat.le_add_left _ _
  have hKbase : K base := (h.path base).1 h.way.1
  have hbase := h.inUse hKbase
  have hconn : p.tree.isConnected base = true := hp.isConnected_iff_inside.2 (h.inside_root hKbase)
  have hmem : e ∈ (v.scan p.tree p.copies base).elements := (mem_elements_scan_iff hp hbase).2 h.way
  have hstep : ∀ id ∈ (v.scan p.tree p.copies base).elements, ∀ r, Pass.Leads (2 ^ 32) (sparing v K) p r →
      Pass.Leads (2 ^ 32) (sparing v K) r ((v.bindAttributes v.scope id).exec r).2 := fun id _ r hr =>
    leads_attributes_sparing hlimit (fun hK => ⟨h.inUse hK, h.tame id hK⟩) hr
  have hattrs := leads_forM hp hstep
  -- the attributes of the faulty element cannot be brought up to date
  have hfail : ∀ u q, ((v.scan p.tree p.copies base).elements.forM (v.bindAttributes v.scope)).exec p =
      (.ok u, q) → ¬ q.tree.mutations < 2 ^ 32 := fun u q hq hl => by
    obtain ⟨s, s', hs, hrun, hsq⟩ := exec_forM_ok hp hstep hq e hmem
    have hsl := ((leads_of_exec hrun (hstep e hmem s hs)).trans hsq).mutations_le.trans_lt hl
    exact exec_bindAttributes_faulty hs.wellFormed (h.later (hs.later hsl) hsl).faulty (by rw [hrun])
  have hrest : ∀ q, q.tree.WellFormed → ∀ F : Footprint, ¬ q.tree.mutations < 2 ^ 32 →
      Pass.Leads (2 ^ 32) F q (((do
        (v.scan p.tree p.copies base).elements.forM (v.bindContent v.scope)
        (v.scan p.tree p.copies base).elements.forM (v.bindProperties v.scope)
        (v.scan p.tree p.copies base).templates.forM (v.renderList · v.scope)) : Render Unit).exec q).2 := by
    intro q hw F hq
    refine Pass.Leads.of_limit_le (F := F) (G := .all) ?_ (Nat.not_lt.1 hq)
    refine leads_bind (leads_forM hw fun id _ r hr => leads_bindContent hr.wellFormed trivial) fun _ r _ hr => ?_
    refine leads_bind (leads_forM hr.wellFormed fun id _ s hs =>
      leads_bindProperties hs.wellFormed (fun _ => trivial) trivial fun _ _ _ => trivial) fun _ s _ hs => ?_
    refine leads_forM hs.wellFormed fun template _ s' hs' => ?_
    exact leadsLists_renderListWithin v _ _ template v.scope s' .all hs'.wellFormed (Nat.le_add_left _ _) trivial
      (fun _ => trivial) trivial fun _ _ _ _ _ => trivial
  unfold renderRoot sync
  rw [exec_bind, exec_tree]
  simp only [hconn, if_true]
  rw [exec_bind, exec_view]
  simp only [bind_assoc]
  rw [exec_bind]
  rcases hq : ((v.scan p.tree p.copies base).elements.forM (v.bindAttributes v.scope)).exec p with ⟨err | u, q⟩
  · exact ⟨leads_of_exec hq hattrs, fun _ hok => by cases hok⟩
  · have hleads := leads_of_exec hq hattrs
    have hq' := hrest q hleads.wellFormed (sparing v K) (hfail u q hq)
    exact ⟨hleads.trans hq', fun hl => absurd (hq'.mutations_le.trans_lt hl) (hfail u q hq)⟩

/-- No pass gets through a spoiled page, and none repairs it. -/
theorem render (h : Spoiled v base e K p) (hbase : base ∈ v.roots)
    (hq : (v.render.exec p).2.tree.mutations < 2 ^ 32) :
    (v.render.exec p).1 ≠ .ok () ∧ Spoiled v base e K (v.render.exec p).2 := by
  have hp := h.wellFormed
  have hvisit : ∀ a ∈ v.roots, ∀ r, Pass.Leads (2 ^ 32) (sparing v K) p r →
      Pass.Leads (2 ^ 32) (sparing v K) r ((v.renderRoot a).exec r).2 := fun a ha r hr => by
    by_cases hl : r.tree.mutations < 2 ^ 32
    · have hs := h.later (hr.later hl) hl
      by_cases he : a = base
      · exact he ▸ hs.leads_base.1
      · exact hs.leads_other ha he
    · exact (leads_renderRoot a hr.wellFormed (Nat.le_add_left _ _)).of_limit_le (Nat.not_lt.1 hl)
  have hlead : Pass.Leads (2 ^ 32) (sparing v K) p (v.render.exec p).2 := leads_forM hp hvisit
  refine ⟨fun hok => ?_, h.later (hlead.later hq) hq⟩
  obtain ⟨s, s', hs, hrun, hsq⟩ := exec_forM_ok hp hvisit (Prod.ext hok rfl) base hbase
  have hsl' := hsq.mutations_le.trans_lt hq
  have hsl := (leads_of_exec hrun (hvisit base hbase s hs)).mutations_le.trans_lt hsl'
  have hbase := (h.later (hs.later hsl) hsl).leads_base.2
  rw [hrun] at hbase
  exact hbase hsl' rfl

end Spoiled

end View

end ViewBinding
