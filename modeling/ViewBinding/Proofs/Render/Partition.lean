import Mathlib.Data.PFun
import ViewBinding.Proofs.Render.Scan
import ViewBinding.Proofs.Tree.Housed
import ViewBinding.Proofs.Tree.Order

/-! How a scan divides the elements below a node. On the way down to an element a first node stops the scan, or none does:
the element then lies in one template that is found, or in one of the topmost copies, or it is found itself. -/
namespace ViewBinding.View

variable {v : View} {t : Tree} {copies : List NodeId} {a c p q x y z : NodeId}

/-- Every node above one, up to another one, is passed. -/
def OpenAbove (v : View) (t : Tree) (copies : List NodeId) (x a : NodeId) : Prop :=
  t.Inside x a ∧ ∀ y, t.Inside x y → t.Inside y a → y ≠ x → Open v t copies y

/-- A copy on record below the node a scan starts from that is no template and lies in no template that is found. -/
structure StandingCopy (v : View) (t : Tree) (copies : List NodeId) (a c : NodeId) : Prop where
  recorded : c ∈ copies
  inside : t.Inside c a
  plain : t.hasAttr c (v.attributeName .foreach) = false
  apart : ∀ p ∈ (v.scan t copies a).templates, ¬ t.Inside c p

/-- A standing copy that lies in no other one. -/
def TopCopy (v : View) (t : Tree) (copies : List NodeId) (a c : NodeId) : Prop :=
  StandingCopy v t copies a c ∧ ∀ z, StandingCopy v t copies a z → t.Inside c z → z = c

theorem OpenWay.above (h : OpenWay v t copies y a) (hx : t.parent? x = some y) : OpenAbove v t copies x a := by
  refine ⟨.up hx h.1, fun z hxz hza hne => ?_⟩
  rcases hxz.eq_or_up with rfl | ⟨w, hw, hwz⟩
  · exact absurd rfl hne
  · rw [hx] at hw
    obtain rfl := Option.some.inj hw
    exact h.2 z hwz hza

theorem openAbove_self (ht : t.WellFormed) (a : NodeId) : OpenAbove v t copies a a :=
  ⟨.refl t a, fun _ hay hya hne => absurd (ht.inside_antisymm hya hay) hne⟩

/-- Either nothing on the way stops a scan, or there is a first node that does. -/
theorem openWay_or_stop (v : View) (copies : List NodeId) (ht : t.WellFormed) (h : t.Inside x a) :
    OpenWay v t copies x a ∨ ∃ y, t.Inside x y ∧ OpenAbove v t copies y a ∧ ¬ Open v t copies y := by
  induction h using Relation.ReflTransGen.head_induction_on with
  | refl =>
    by_cases ho : Open v t copies a
    · exact .inl ⟨.refl t a, fun y hay hya => ht.inside_antisymm hya hay ▸ ho⟩
    · exact .inr ⟨a, .refl t a, openAbove_self ht a, ho⟩
  | @head x w hp _ ih =>
    rcases ih with hway | ⟨y, hwy, hstop⟩
    · by_cases ho : Open v t copies x
      · exact .inl (openWay_up hp ho hway)
      · exact .inr ⟨x, .refl t x, hway.above hp, ho⟩
    · exact .inr ⟨y, .up hp hwy, hstop⟩

theorem mem_templatesWithin_of_openAbove {b : Branch} {parent : Option NodeId} (hb : t.Holds parent b) {fuel : Nat}
    (hfuel : b.size ≤ fuel) (h : OpenAbove v t copies x b.handle) (htemplate : t.hasAttr x (v.attributeName .foreach) = true)
    (ht : t.WellFormed) : x ∈ (v.scanWithin t copies fuel b.handle).templates := by
  induction b using Branch.induct generalizing parent fuel with
  | node id d cs ih =>
    obtain ⟨fuel, rfl⟩ := Nat.exists_eq_add_one.2 ((Branch.size_pos _).trans_le hfuel)
    rw [Branch.handle_node, scanWithin]
    rcases h.1.eq_or_child with rfl | ⟨c, hc, hxc⟩
    · simp [htemplate, Tree.isElement_of_hasAttr htemplate]
    · have hne : x ≠ id := by
        rintro rfl
        exact ht.not_inside_of_parent? hc hxc
      have ho := h.2 id h.1 (.refl t id) hne.symm
      simp only [ho.isElement, ho.plain, Bool.not_true, Bool.false_eq_true, if_false, List.contains_iff_mem, ho.unrecorded,
        Scan.templates_append, Scan.templates_foldr, List.nil_append, List.mem_flatMap, List.mem_map]
      have hmem := ht.mem_children_iff.2 hc
      rw [Branch.handle_node, show t.children id = _ from hb.children] at hmem
      obtain ⟨sub, hsub, rfl⟩ := List.mem_map.1 hmem
      refine ⟨_, ⟨sub.handle, ht.mem_children_iff.2 hc, rfl⟩, ih sub hsub (hb.child hsub) ?_ ?_⟩
      · exact Nat.le_of_lt_succ ((Branch.size_lt_of_mem hsub).trans_le hfuel)
      · exact ⟨hxc, fun y hy hyc => h.2 y hy (hyc.trans (.parent hc))⟩

/-- A scan finds the templates above which the way is open. -/
theorem mem_templates_scan_iff (ht : t.WellFormed) (ha : t.InUse a) :
    x ∈ (v.scan t copies a).templates ↔ OpenAbove v t copies x a ∧ t.hasAttr x (v.attributeName .foreach) = true := by
  constructor
  · intro hx
    refine ⟨?_, (mem_templates_scan hx).2.2⟩
    rcases open_of_mem_templates ht hx with rfl | ⟨up, hup, hway⟩
    · exact openAbove_self ht x
    · exact hway.above hup
  · rintro ⟨h, htemplate⟩
    have hw := ht
    obtain ⟨forest, hr⟩ := ht
    obtain ⟨b, hb, rfl⟩ := hr.exists_part ha
    obtain ⟨p, hp⟩ := hr.part hb
    exact mem_templatesWithin_of_openAbove hp (hr.size_le hb) h htemplate hw

section

variable (ht : t.WellFormed) (ha : t.InUse a)
include ht ha

/-- No template lies above an element that is found. -/
theorem not_inside_template_of_openWay (h : OpenWay v t copies x a) (hp : p ∈ (v.scan t copies a).templates) :
    ¬ t.Inside x p := by
  obtain ⟨habove, htemplate⟩ := (mem_templates_scan_iff ht ha).1 hp
  intro hxp
  have := (h.2 p hxp habove.1).plain
  rw [htemplate] at this
  cases this

/-- A template above which the way is open lies in no other one. -/
theorem eq_of_inside_template (h : OpenAbove v t copies y a) (hp : p ∈ (v.scan t copies a).templates) (hyp : t.Inside y p) :
    p = y := by
  obtain ⟨habove, htemplate⟩ := (mem_templates_scan_iff ht ha).1 hp
  by_contra hne
  have := (h.2 p hyp habove.1 hne).plain
  rw [htemplate] at this
  cases this

/-- No node lies in two templates. -/
theorem template_unique (hp : p ∈ (v.scan t copies a).templates) (hq : q ∈ (v.scan t copies a).templates) (hxp : t.Inside x p)
    (hxq : t.Inside x q) : p = q := by
  rcases hxp.total hxq with hpq | hqp
  · exact (eq_of_inside_template ht ha ((mem_templates_scan_iff ht ha).1 hp).1 hq hpq).symm
  · exact eq_of_inside_template ht ha ((mem_templates_scan_iff ht ha).1 hq).1 hp hqp

/-- No node lies in a template and in a standing copy. -/
theorem StandingCopy.not_inside (hc : StandingCopy v t copies a c) (hp : p ∈ (v.scan t copies a).templates) (hxp : t.Inside x p) :
    ¬ t.Inside x c := by
  intro hxc
  rcases hxc.total hxp with hcp | hpc
  · exact hc.apart p hp hcp
  · obtain ⟨habove, htemplate⟩ := (mem_templates_scan_iff ht ha).1 hp
    by_cases hne : c = p
    · exact hc.apart p hp (hne ▸ .refl t c)
    · exact (habove.2 c hpc hc.inside hne).unrecorded hc.recorded

/-- A copy that stops a scan is a topmost one. -/
theorem topCopy_of_stop (h : OpenAbove v t copies y a) (hplain : t.hasAttr y (v.attributeName .foreach) = false)
    (hy : y ∈ copies) : TopCopy v t copies a y := by
  refine ⟨⟨hy, h.1, hplain, fun p hp hyp => ?_⟩, fun z hz hyz => ?_⟩
  · rw [eq_of_inside_template ht ha h hp hyp] at hp
    exact absurd (mem_templates_scan hp).2.2 (by simp [hplain])
  · by_contra hne
    exact (h.2 z hyz hz.inside hne).unrecorded hz.recorded

end

theorem TopCopy.unique (hc : TopCopy v t copies a c) (hz : TopCopy v t copies a z) (hxc : t.Inside x c) (hxz : t.Inside x z) :
    c = z := by
  rcases hxc.total hxz with hcz | hzc
  · exact (hc.2 z hz.1 hcz).symm
  · exact hz.2 c hc.1 hzc

/-- Between an element and one in which it lies there are elements only. -/
theorem isElement_of_inside (ht : t.WellFormed) (hh : t.Housed) (ha : t.isElement a = true) (hx : t.isElement x = true)
    (hxy : t.Inside x y) (hya : t.Inside y a) : t.isElement y = true := by
  rcases Relation.ReflTransGen.cases_tail hxy with rfl | ⟨w, -, hw⟩
  · exact hx
  · refine (hh w y hw).resolve_left ?_
    rintro rfl
    rcases hya.eq_or_up with rfl | ⟨up, hup, -⟩
    · rw [Tree.isElement, ht.element?_root] at ha
      cases ha
    · rw [ht.parent?_root] at hup
      cases hup

/-- An element below the one a scan starts from is found, lies in one template, or lies in one of the topmost copies. -/
theorem scan_cases (ht : t.WellFormed) (hh : t.Housed) (ha : t.isElement a = true) (hx : t.isElement x = true)
    (hin : t.Inside x a) :
    (x ∈ (v.scan t copies a).elements ∧ (∀ p ∈ (v.scan t copies a).templates, ¬ t.Inside x p) ∧
        ∀ c, TopCopy v t copies a c → ¬ t.Inside x c) ∨
      (x ∉ (v.scan t copies a).elements ∧ (∃! p, p ∈ (v.scan t copies a).templates ∧ t.Inside x p) ∧
        ∀ c, TopCopy v t copies a c → ¬ t.Inside x c) ∨
      (x ∉ (v.scan t copies a).elements ∧ (∀ p ∈ (v.scan t copies a).templates, ¬ t.Inside x p) ∧
        ∃! c, TopCopy v t copies a c ∧ t.Inside x c) := by
  have hused := ht.inUse_of_isElement ha
  rcases openWay_or_stop v copies ht hin with hway | ⟨y, hxy, habove, hstop⟩
  · refine .inl ⟨(mem_elements_scan_iff ht hused).2 hway, fun p hp => not_inside_template_of_openWay ht hused hway hp, ?_⟩
    exact fun c hc hxc => (hway.2 c hxc hc.1.inside).unrecorded hc.1.recorded
  · have hnot : x ∉ (v.scan t copies a).elements := fun hmem =>
      hstop (((mem_elements_scan_iff ht hused).1 hmem).2 y hxy habove.1)
    have hy := isElement_of_inside ht hh ha hx hxy habove.1
    cases htemplate : t.hasAttr y (v.attributeName .foreach) with
    | true =>
      have hmem := (mem_templates_scan_iff ht hused).2 ⟨habove, htemplate⟩
      refine .inr (.inl ⟨hnot, ⟨y, ⟨hmem, hxy⟩, fun q hq => ?_⟩, fun c hc => hc.1.not_inside ht hused hmem hxy⟩)
      exact template_unique ht hused hq.1 hmem hq.2 hxy
    | false =>
      have hcopy : y ∈ copies := by
        by_contra hno
        exact hstop ⟨hy, htemplate, hno⟩
      have htop := topCopy_of_stop ht hused habove htemplate hcopy
      refine .inr (.inr ⟨hnot, fun p hp hxp => htop.1.not_inside ht hused hp hxp hxy, y, ⟨htop, hxy⟩, fun z hz => ?_⟩)
      exact hz.1.unique htop hz.2 hxy

/--
A round of a scan that goes by a stack of nodes still to be visited, the next one in front. The children of a node that is
passed are put on the stack in their order. The scan ends when the stack is empty.
-/
def scanRound (v : View) (t : Tree) (copies : List NodeId) : List NodeId × Scan → Scan ⊕ List NodeId × Scan
  | ([], found) => .inl found
  | (id :: pending, found) => .inr <|
    if !t.isElement id then (pending, found)
    else if t.hasAttr id (v.attributeName .foreach) then (pending, { found with templates := found.templates ++ [id] })
    else if copies.contains id then (pending, found)
    else (t.children id ++ pending, { found with elements := found.elements ++ [id] })

/-- The same scan as a loop, which has a result if it ends. -/
def scanLoop (v : View) (t : Tree) (copies : List NodeId) (pending : List NodeId) (found : Scan) : Part Scan :=
  (PFun.lift (v.scanRound t copies)).fix (pending, found)

theorem scanLoop_nil (v : View) (t : Tree) (copies : List NodeId) (found : Scan) :
    v.scanLoop t copies [] found = .some found := Part.eq_some_iff.2 (PFun.fix_stop (Part.mem_some _))

theorem scanLoop_cons (v : View) (t : Tree) (copies pending : List NodeId) (id : NodeId) (found : Scan) :
    v.scanLoop t copies (id :: pending) found =
      if !t.isElement id then v.scanLoop t copies pending found
      else if t.hasAttr id (v.attributeName .foreach) then
        v.scanLoop t copies pending { found with templates := found.templates ++ [id] }
      else if copies.contains id then v.scanLoop t copies pending found
      else v.scanLoop t copies (t.children id ++ pending) { found with elements := found.elements ++ [id] } := by
  rw [scanLoop, PFun.fix_fwd_eq (Part.mem_some _)]
  split_ifs <;> rfl

/-- The loop is done with a node when it has found what a scan of it finds. -/
theorem scanLoop_handle {b : Branch} {parent : Option NodeId} (hb : t.Holds parent b) {fuel : Nat} (hfuel : b.size ≤ fuel)
    (pending : List NodeId) (found : Scan) : v.scanLoop t copies (b.handle :: pending) found =
      v.scanLoop t copies pending (found.append (v.scanWithin t copies fuel b.handle)) := by
  induction b using Branch.induct generalizing parent fuel pending found with
  | node id d cs ih =>
    obtain ⟨fuel, rfl⟩ := Nat.exists_eq_add_one.2 ((Branch.size_pos _).trans_le hfuel)
    -- the children one after the other, each with what has been found before it
    have hall : ∀ (bs : List Branch), bs ⊆ cs → ∀ found : Scan, v.scanLoop t copies (bs.map Branch.handle ++ pending) found =
        v.scanLoop t copies pending
          (found.append (((bs.map Branch.handle).map (v.scanWithin t copies fuel)).foldr Scan.append .empty)) := by
      intro bs hbs
      induction bs with
      | nil => simp [Scan.append, Scan.empty]
      | cons c bs ihs =>
        intro found
        obtain ⟨hc, hbs⟩ := List.cons_subset.1 hbs
        have hsize : c.size ≤ fuel := Nat.le_of_lt_succ ((Branch.size_lt_of_mem hc).trans_le hfuel)
        rw [List.map_cons, List.cons_append, ih c hc (hb.child hc) hsize, ihs hbs]
        simp [Scan.append]
    have hchildren : t.children id = cs.map Branch.handle := hb.children
    rw [Branch.handle_node, scanLoop_cons, scanWithin, hchildren]
    split_ifs
    · simp [Scan.append, Scan.empty]
    · simp [Scan.append]
    · simp [Scan.append, Scan.empty]
    · rw [hall cs (List.Subset.refl _)]
      simp [Scan.append]

/-- The loop ends, with the scan. -/
theorem scanLoop_eq (ht : t.WellFormed) (ha : t.InUse a) :
    v.scanLoop t copies [a] .empty = .some (v.scan t copies a) := by
  obtain ⟨forest, hr⟩ := ht
  obtain ⟨b, hb, rfl⟩ := hr.exists_part ha
  obtain ⟨p, hp⟩ := hr.part hb
  rw [scanLoop_handle hp (hr.size_le hb), scanLoop_nil]
  rfl

end ViewBinding.View
