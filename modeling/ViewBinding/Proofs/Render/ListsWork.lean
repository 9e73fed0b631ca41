import ViewBinding.Proofs.Render.Works
import ViewBinding.Proofs.Tree.Copied
import ViewBinding.Proofs.Tree.Possible
import ViewBinding.Proofs.Tree.Siblings

/-! Making a list works below the node that the list lies in. A copy that has been made is put into the document whatever
has become of the rest, so no node is left over; and copies that are torn down do not come back. -/
namespace ViewBinding

open ViewBinding.Tree

namespace Tree

open Branch

variable {t t' t₁ t₂ : Tree} {x y id up top template anchor c : NodeId} {gone : List NodeId}

/-- No node in use has the slot of this one, and the slot has gone on. -/
def Spent (t : Tree) (x : NodeId) : Prop := (∀ y, t.InUse y → y.slot ≠ x.slot) ∧ t.generation x.slot ≠ x.generation

theorem Spent.not_isLive (h : t.Spent x) : t.isLive x ≠ true := fun hlive => h.2 (generation_of_isLive hlive)

/-- A later tree without new nodes. -/
structure Thinned (t t' : Tree) : Prop where
  old : ∀ x, t'.InUse x → t.InUse x ∧ t'.parent? x = t.parent? x ∧ t'.isElement x = t.isElement x
  spent : ∀ x, t.InUse x → t'.InUse x ∨ t'.Spent x
  lasting : ∀ x, t.Spent x → t'.Spent x

theorem Thinned.refl (t : Tree) : Thinned t t := ⟨fun _ hx => ⟨hx, rfl, rfl⟩, fun _ => .inl, fun _ => id⟩

theorem Thinned.trans {t'' : Tree} (h : Thinned t t') (h' : Thinned t' t'') : Thinned t t'' where
  old x hx := by
    obtain ⟨hx', hp', he'⟩ := h'.old x hx
    obtain ⟨hx, hp, he⟩ := h.old x hx'
    exact ⟨hx, hp'.trans hp, he'.trans he⟩
  spent x hx := (h.spent x hx).elim (h'.spent x) fun hs => .inr (h'.lasting x hs)
  lasting x hx := h'.lasting x (h.lasting x hx)

theorem Edited.thinned (h : Edited t t' top gone) (ht : t.Whole) (hold : ∀ x, t'.InUse x → t.InUse x) : Thinned t t' where
  old x hx := ⟨hold x hx, h.parent?_eq (hold x hx) hx, h.isElement_eq (hold x hx) hx⟩
  spent x hx := by
    by_cases hg : x ∈ gone
    · refine .inr ⟨fun y hy he => h.not_isLive hg ?_, fun hgen => ?_⟩
      · exact ht.eq_of_slot_eq (hold y hy) hx he ▸ hy.1
      · rw [h.generation, generation_of_isLive hx.1, List.count_eq_one_of_mem h.nodup (List.mem_map_of_mem hg)] at hgen
        simp at hgen
    · exact .inl (h.stays x hx hg).1
  lasting x hx := by
    refine ⟨fun y hy => hx.1 y (hold y hy), ?_⟩
    have hcount : (gone.map (·.slot)).count x.slot = 0 := List.count_eq_zero.2 fun hmem => by
      obtain ⟨y, hy, he⟩ := List.mem_map.1 hmem
      exact hx.1 y (h.taken y hy).1 he
    rw [h.generation, hcount]
    simpa using hx.2

/-- A copy of an element is an element. -/
theorem isElement_of_copy (ht : t.WellFormed) (h : t.isElement template = true) (hcopy : t.copy template = .ok (c, t₁)) :
    t₁.isElement c = true := by
  rw [isElement, element?_of_copy ht h hcopy, ← isElement, h]

/-- A copy that has been made can be put behind every node that has a parent. -/
theorem exists_insertAfter (ht : t.WellFormed) (hp : t.parent? anchor = some up) (hcopy : t.copy template = .ok (c, t₁))
    {w : NodeId → String → Prop} (hw : Writes t₁ t₂ w) : ∃ t', t₂.insertAfter anchor c = .ok t' := by
  have hanchor := ht.inUse_of_parent? hp
  have hup := ht.inUse_parent hp
  have hroot := ht.inUse_root
  obtain ⟨forest, hr⟩ := ht
  obtain ⟨b, rfl, -, -, hr₁, hkept, hfresh, -⟩ := copy_spec hr hcopy
  have hb : b ∈ (b :: forest).flatMap parts := by simp [b.self_mem_parts]
  have hmem : ∀ {x}, x ∈ t₁.preorder b.handle → ¬ t.InUse x := fun hx => hfresh _ (hr₁.preorder hb ▸ hx)
  have hw₁ : t₁.WellFormed := ⟨_, hr₁⟩
  have hcu := hr₁.inUse_of_mem hb b.handle_mem_handles
  have hself := hw₁.self_mem_preorder hcu
  have hp₂ : t₂.parent? anchor = some up := by rw [hw.parent?, Tree.parent?, hkept anchor hanchor, ← Tree.parent?, hp]
  have hbad : ¬ (b.handle = root ∨ b.handle = anchor ∨ t₂.isLive b.handle = false) := by
    rintro (he | he | he)
    · exact hmem hself (he ▸ hroot)
    · exact hmem hself (he ▸ hanchor)
    · rw [hw.isLive, hcu.1] at he
      cases he
  have hcycle : ¬ (up :: t₂.ancestors up).contains b.handle = true := by
    rw [hw.ancestors, List.contains_iff_mem, ← hw₁.mem_preorder_iff hcu]
    exact fun hin => hmem hin hup
  unfold insertAfter
  rw [hp₂]
  simp only [if_neg hbad, if_neg hcycle]
  exact ⟨_, rfl⟩

end Tree

namespace View

open Render Pass ViewBinding.Tree

variable {v : View} {F : Fence} {p q : Pass} {a c id up template anchor : NodeId}

/-- What can be said of a part of a pass that makes no nodes. -/
structure Thins (F : Fence) (a : NodeId) (p q : Pass) : Prop extends Works F a p q where
  thinned : Thinned p.tree q.tree

/-- Dropping a child works below its parent. -/
theorem thins_dropCopy (hp : F.Stands p.tree) (hup : p.tree.parent? id = some up) (hs : ¬ F.spared up)
    (hin : p.tree.Inside up a) : Thins F a p ((dropCopy id).exec p).2 ∧
      ∀ y, p.tree.parent? y = some up → y ≠ id → ((dropCopy id).exec p).2.tree.parent? y = some up := by
  have hw := hp.whole.wellFormed
  have hid := hp.not_kept_of_parent? hs hup
  obtain ⟨t, ht⟩ := hw.exists_remove hup
  rw [exec_dropCopy, Render.exec_edit_ok (p := forgotten p id) ht]
  have hgone : ∀ x ∈ p.tree.preorder id, ¬ F.kept x := fun x hx =>
    hp.not_kept_of_inside hid ((hw.mem_preorder_iff_inside (hw.inUse_of_parent? hup)).1 hx)
  have hpurged : Works F a p (forgotten p id) := by
    refine ⟨.single (.purge _ hgone), .refl a p.tree, fun x hx => ?_, fun x hx => .inl (List.mem_filter.1 hx).1⟩
    have hout : x ∉ p.tree.preorder id := fun hmem => hgone x hmem hx
    simp [forgotten, hout]
  have hremoved : Works F a (forgotten p id) ((forgotten p id).withTree t) := .relist hp hin hs (.remove hup ht)
  refine ⟨⟨hpurged.trans hremoved, ?_⟩, fun y hy hne => ?_⟩
  · exact ((Edit.remove hup ht).edited hp.whole).thinned hp.whole fun x hx => inUse_of_remove hw hup ht hx
  · exact parent?_of_remove hw hup hy hne ht

theorem thins_forM_dropCopy {stale : List NodeId} (hp : F.Stands p.tree) (hnodup : stale.Nodup)
    (hup : ∀ id ∈ stale, p.tree.parent? id = some up) (hs : ¬ F.spared up) (hin : p.tree.Within a up) :
    Thins F a p ((stale.forM dropCopy).exec p).2 := by
  induction stale generalizing p with
  | nil => exact ⟨.refl F a p, .refl p.tree⟩
  | cons id stale ih =>
    obtain ⟨hid, hnodup⟩ := List.nodup_cons.1 hnodup
    have hpid := hup id (by simp)
    obtain ⟨hdrop, hothers⟩ := thins_dropCopy hp hpid hs (hin (hp.whole.wellFormed.inUse_parent hpid))
    show Thins F a p (Render.exec (dropCopy id >>= fun _ => stale.forM dropCopy) p).2
    rw [exec_bind]
    rcases hq : (dropCopy id).exec p with ⟨_ | _, q⟩ <;> rw [hq] at hdrop hothers
    · exact hdrop
    · have hrest := ih (hdrop.stands hp) hnodup (fun y hy => hothers y (hup y (by simp [hy])) fun he => hid (he ▸ hy))
        (hdrop.confined.within hin)
      exact ⟨hdrop.toWorks.trans hrest.toWorks, hdrop.thinned.trans hrest.thinned⟩

/-- Copies are torn down beside their template. -/
theorem thins_tearDown (hp : F.Stands p.tree) (hup : p.tree.parent? template = some up) (hs : ¬ F.spared up)
    (hin : p.tree.Within a up) (cls : String) : Thins F a p ((tearDown template cls).exec p).2 := by
  have hsub := staleCopies_sublist hup p.copies cls
  have hw := hp.whole.wellFormed
  unfold tearDown
  rw [exec_bind, exec_view]
  exact thins_forM_dropCopy hp ((hw.nodup_children up).sublist hsub)
    (fun id hid => hw.mem_children_iff.1 (hsub.subset hid)) hs hin

/-- A copy of an element is made and put into the document. -/
theorem exec_insertCopy (hp : p.tree.Whole) (helement : p.tree.isElement template = true)
    (hup : p.tree.parent? anchor = some up) :
    ∃ c t, (v.insertCopy template anchor).exec p = (.ok c, p.withTree t) ∧ p.tree.Relist up t ∧ p.tree.Edit up [] t := by
  have hw := hp.wellFormed
  obtain ⟨c, t₁, hcopy, -⟩ := hw.exists_copy helement
  have hc := isElement_of_copy hw helement hcopy
  have hw₁ : t₁.WellFormed := by
    obtain ⟨forest, hr⟩ := hw
    obtain ⟨b, -, -, -, hr₁, -⟩ := copy_spec hr hcopy
    exact ⟨_, hr₁⟩
  obtain ⟨t₂, h₂⟩ := exists_removeAttr_of_isElement hc (v.attributeName .foreach)
  have hwrites₂ := writes_removeAttr hw₁ h₂
  have hw₂ := hwrites₂.wellFormed hw₁
  obtain ⟨t₃, h₃⟩ := exists_removeAttr_of_isElement ((hwrites₂.isElement c).trans hc) v.options.hiddenAttribute
  have hwrites₃ : Writes t₂ t₃ fun _ _ => True := (writes_removeAttr hw₂ h₃).mono fun _ _ _ => trivial
  have hwrites := (hwrites₂.mono fun _ _ _ => trivial).trans hwrites₃
  obtain ⟨t₄, h₄⟩ := exists_insertAfter hw hup hcopy hwrites
  refine ⟨c, t₄, ?_, .insert hup helement hcopy h₂ h₃ h₄, .insert hup hcopy hwrites h₄⟩
  unfold insertCopy
  rw [exec_bind, exec_tree]
  simp only [hcopy]
  rw [exec_bind_ok (exec_setTree t₁ p), exec_bind_ok (Render.exec_edit_ok (p := p.withTree t₁) h₂),
    exec_bind_ok (Render.exec_edit_ok (p := (p.withTree t₁).withTree t₂) h₃),
    exec_bind_ok (Render.exec_edit_ok (p := ((p.withTree t₁).withTree t₂).withTree t₃) h₄)]
  rfl

theorem deeds_installs {d : Document} (hid : ¬ F.kept id) (h : d.tree.isElement id = true) (listeners : List Listener) :
    d.Deeds F { d with listeners := listeners.foldl (·.install id ·) d.listeners } := by
  induction listeners generalizing d with
  | nil => exact .refl
  | cons l listeners ih => exact .head (.install hid h l) (ih (d := { d with listeners := d.listeners.install id l }) h)

/-- Only elements have entries, so only elements are listened to. -/
theorem deeds_listen (v : View) (scope : Option ItemScope) (d : Document) (hid : ¬ F.kept id) :
    d.Deeds F (v.listen scope d id) := by
  unfold listen
  cases he : d.tree.isElement id with
  | true => exact deeds_installs hid he _
  | false =>
    have hnone : d.tree.element? id = none := by simpa [isElement] using he
    have hattr : ∀ name, d.tree.attr? id name = none := fun name => by rw [attr?, hnone, Option.bind_none]
    simp [writeBackListeners, handlerListeners, entriesAt, hattr, Relation.ReflTransGen.refl]

theorem deeds_foldl {α : Type} {f : Document → α → Document} {xs : List α} (h : ∀ (d : Document), ∀ x ∈ xs, d.Deeds F (f d x))
    (d : Document) : d.Deeds F (xs.foldl f d) := by
  induction xs generalizing d with
  | nil => exact .refl
  | cons x xs ih => exact (h d x (by simp)).trans (ih (fun d y hy => h d y (by simp [hy])) (f d x))

theorem deeds_listenAll (v : View) (d : Document) : d.Deeds .nowhere (v.listenAll d) :=
  deeds_foldl (fun d _ _ => deeds_foldl (fun d _ _ => v.deeds_listen none d id) d) d

/-- A way of making lists that works below every node in which the template lies, unless the list has a spared parent. -/
def WorksList (F : Fence) (make : NodeId → Scope → Render Unit) : Prop :=
  ∀ template scope (p : Pass) a, F.Stands p.tree → p.tree.Below a template →
    (∀ up, p.tree.parent? template = some up → ¬ F.spared up) → Works F a p ((make template scope).exec p).2

/-- Binding a copy works below it. -/
theorem works_bindCopy {nested : NodeId → Scope → Render Unit} (hn : WorksList F nested) (hp : F.Stands p.tree)
    (hc : p.tree.InUse c) (hkept : ¬ F.kept c) (hplain : p.tree.hasAttr c (v.attributeName .foreach) = false) (item : ItemScope) :
    Works F c p ((v.bindCopy nested c item).exec p).2 := by
  have hw := hp.whole.wellFormed
  have hinside : ∀ {x}, x ∈ p.tree.preorder c → p.tree.Inside x c := fun hx => (hw.mem_preorder_iff_inside hc).1 hx
  have hfound : ∀ id ∈ (v.scan p.tree p.copies c).elements, p.tree.Inside id c := fun id hid =>
    hinside (mem_elements_scan hid).1
  unfold bindCopy
  rw [exec_bind, exec_view]
  refine works_bind (works_sync hp (fun x hx _ => hfound x hx) fun x hx => hp.not_kept_of_inside hkept (hfound x hx))
    fun _ q _ hq => ?_
  refine works_bind ?_ fun _ r _ hr => works_forM fun template ht s hs => ?_
  · rw [exec_editDocument]
    refine .of_deeds (deeds_foldl (fun d id hid => v.deeds_listen _ d ?_) q.document) ?_ rfl
    · exact hp.not_kept_of_inside hkept (hfound id hid)
    · show Confined c q.tree (List.foldl _ q.document _).tree
      rw [tree_foldl_listen]
      exact .refl c q.tree
  · obtain ⟨hmem, -, hattr⟩ := mem_templates_scan ht
    have hall := (hq.trans hr).trans hs
    have hs' := hall.stands hp
    have hbelow : s.tree.Below c template := hall.confined.below fun _ => ⟨hinside hmem, fun he => by
      rw [he, hplain] at hattr
      cases hattr⟩
    refine hn template item.scope s c hs' hbelow fun up hup hspared => ?_
    obtain ⟨hin, hne⟩ := hbelow (hs'.whole.wellFormed.inUse_of_parent? hup)
    obtain ⟨y, hy, hyc⟩ := hin.eq_or_up.resolve_left hne
    rw [hup] at hy
    obtain rfl := Option.some.inj hy
    exact hs'.not_kept_of_inside hkept hyc (F.kept_of_spared _ hspared)

/-- Without the template no copy is made. -/
theorem exec_makeCopies_of_not_isLive {nested : NodeId → Scope → Render Unit} (ht : p.tree.isLive template ≠ true)
    (scope : Scope) (cls : String) (items : List Value) (index : Nat) :
    ((v.makeCopies nested template scope cls items index anchor).exec p).2 = p := by
  cases items with
  | nil => rfl
  | cons item items =>
    have hcopy : p.tree.copy template = .error (.unknownNode template) := by
      have hget : p.tree.get? template = none := by simpa [isLive] using ht
      rw [copy, hget]
    have hfail : (v.insertCopy template anchor).exec p = (.error (.invalidTree (.unknownNode template)), p) := by
      unfold insertCopy
      rw [exec_bind, exec_tree]
      simp only [hcopy]
      rfl
    unfold makeCopies
    rw [exec_bind, hfail]

/-- Making copies behind a node works below the parent of that node. -/
theorem works_makeCopies {nested : NodeId → Scope → Render Unit} (hn : WorksList F nested) (hp : F.Stands p.tree)
    (ht : p.tree.InUse template) (helement : p.tree.isElement template = true) (hup : p.tree.parent? anchor = some up)
    (hs : ¬ F.spared up) (hin : p.tree.Within a up) (scope : Scope) (cls : String) (items : List Value) (index : Nat) :
    Works F a p ((v.makeCopies nested template scope cls items index anchor).exec p).2 := by
  induction items generalizing p index anchor with
  | nil => exact .refl F a p
  | cons item items ih =>
    unfold makeCopies
    have hw := hp.whole.wellFormed
    obtain ⟨c, t, hc, hrelist, hedit⟩ := exec_insertCopy (v := v) hp.whole helement hup
    have hedited := hedit.edited hp.whole
    have hfresh := inserted_of_exec hw hc
    have hq : Works F a p (p.withTree t) := .relist hp (hin (hw.inUse_parent hup)) hs hrelist
    have hq' := hq.stands hp
    have hw' := hq'.whole.wellFormed
    obtain ⟨up', hanchor, hcup, -⟩ := hfresh.next
    obtain rfl : up' = up := by
      have hsame := hedited.parent?_eq (hw.inUse_of_parent? hup) (hw'.inUse_of_parent? hanchor)
      rw [hup] at hsame
      exact Option.some.inj (hanchor.symm.trans hsame)
    have hca : (p.withTree t).tree.Inside c a := .up hcup (hq.confined.within hin (hw'.inUse_parent hcup))
    have hkept : ¬ F.kept c := hq'.not_kept_of_parent? hs hcup
    -- the template is not in the copy, so it stays while the copy is bound
    have htq := (hedited.stays template ht List.not_mem_nil).1
    have hout : (p.withTree t).tree.Outside c template := ⟨htq, fun hin =>
      hfresh.unused template ((hw'.mem_preorder_iff_inside hfresh.inUse).2 hin.1) ht⟩
    rw [exec_bind_ok hc]
    refine hq.trans ?_
    have hbind := works_bindCopy hn hq' hfresh.inUse hkept hfresh.plain (.within scope item index)
    suffices hrest : ∀ r, Works F c (p.withTree t) r → Works F a r
        ((do Render.edit (·.addClass c cls)
             modifyThe Pass fun p => { p with copies := c :: p.copies }
             v.makeCopies nested template scope cls items (index + 1) c : Render Unit).exec r).2 from
      works_bind (hbind.mono hq' hfresh.inUse hca) fun _ r hr _ => hrest r (by rwa [hr] at hbind)
    intro r hr
    have hr' := hr.stands hq'
    have hcr : r.tree.Within a c := (hr.mono hq' hfresh.inUse hca).confined.within fun _ => hca
    refine works_bind (works_edit hr' hcr hkept fun t ht => Rewrite.of_addClass ht) fun _ s hs' has => ?_
    obtain ⟨t', ht', rfl⟩ := View.exec_edit_ok hs'
    have hwrites := writes_addClass hr'.whole.wellFormed ht'
    rw [exec_bind, exec_modify]
    simp only
    have hself := outside_self hfresh.inUse
    have hct := (hwrites.inUse c).2 ((hr.confined.outside c).2 hself).1
    refine Works.trans (q := { r.withTree t' with copies := c :: r.copies }) (.record a hct hkept) (ih ?_ ?_ ?_ ?_ ?_ _)
    · exact has.stands hr'
    · exact (hwrites.inUse template).2 ((hr.confined.outside template).2 hout).1
    · rw [Pass.tree, Pass.withTree]
      refine (hwrites.isElement template).trans ((hr.confined.isElement template hout).trans ?_)
      exact (hedited.isElement_eq ht htq).trans helement
    · exact (hwrites.parent? c).trans ((hr.confined.parent? c hself).trans hcup)
    · exact ((hr.mono hq' hfresh.inUse hca).trans has).confined.within (hq.confined.within hin)

/-- A list is made below every node in which its template lies. -/
theorem worksList_renderListWithin (F : Fence) (v : View) (fuel : Nat) : WorksList F (v.renderListWithin fuel) := by
  induction fuel with
  | zero => exact fun _ _ p a _ _ _ => .refl F a p
  | succ fuel ih =>
    intro template scope p a hp hbelow hspared
    unfold renderListWithin
    rw [exec_bind, exec_tree]
    simp only
    split
    · exact .refl F a p
    next hconnected =>
    have hused : p.tree.InUse template := hp.whole.inUse_iff.2 (by simpa using hconnected)
    split
    · exact .refl F a p
    next expression he =>
    rw [exec_bind, exec_iterate]
    simp only
    refine Works.trans (q := p.evaluated expression scope) (.of_document_eq F a rfl rfl) ?_
    split
    · exact .refl F a _
    next items _ =>
    obtain ⟨hin, hne⟩ := hbelow hused
    obtain ⟨up, hup, hupa⟩ := hin.eq_or_up.resolve_left hne
    have hs := hspared up hup
    have helement := isElement_of_hasAttr (hasAttr_of_listExpression? he)
    have htear := thins_tearDown (p := p.evaluated expression scope) hp hup hs (fun _ => hupa) (v.copyClass expression)
    refine works_bind htear.toWorks fun _ q hq hworks => ?_
    rw [hq] at htear
    have hq' := hworks.stands hp
    refine works_bind ?_ fun _ r _ hr => ?_
    · rcases htear.thinned.spent template hused with hstays | hspent
      · obtain ⟨-, hparent, hel⟩ := htear.thinned.old template hstays
        exact works_makeCopies ih hq' hstays (hel.trans helement) (hparent.trans hup) hs
          (hworks.confined.within fun _ => hupa) ..
      · rw [exec_makeCopies_of_not_isLive hspent.not_isLive]
        exact .refl F a q
    · have hall := hworks.trans hr
      exact works_edit (hall.stands hp) (hall.confined.below hbelow).within (hp.not_kept_of_parent? hs hup)
        fun t ht => .inr (.setAttr ht)

/-- A root is brought up to date within it, and its own list beside it if its parent need not be spared. -/
theorem works_renderRoot {root : NodeId} (hp : F.Stands p.tree) (hkept : ¬ F.kept root)
    (hplain : ∀ up, p.tree.parent? root = some up → F.spared up → p.tree.hasAttr root (v.attributeName .foreach) = false) :
    Works F Tree.root p ((v.renderRoot root).exec p).2 := by
  have hw := hp.whole.wellFormed
  unfold renderRoot
  rw [exec_bind, exec_tree]
  simp only
  split
  next hconnected =>
    have hroot : p.tree.InUse root := hp.whole.inUse_iff.2 hconnected
    rw [exec_bind, exec_view]
    refine works_bind (works_sync hp (fun _ _ hx => hp.whole.inside_root hx) fun x hx => ?_) fun _ q _ hq => ?_
    · exact hp.not_kept_of_inside hkept ((hw.mem_preorder_iff_inside hroot).1 (mem_elements_scan hx).1)
    refine works_forM fun template ht r hr => ?_
    obtain ⟨hmem, helement, hattr⟩ := mem_templates_scan ht
    have hall := hq.trans hr
    have hr' := hall.stands hp
    refine worksList_renderListWithin F v _ template v.scope r _ hr' (hall.confined.below fun hx => ?_) fun up hup hs => ?_
    · refine ⟨hp.whole.inside_root hx, fun he => ?_⟩
      rw [he, isElement, hw.element?_root] at helement
      cases helement
    · -- a spared node has the children that it had
      have hup' := (hall.shelters hp).parent? hw hr'.whole.wellFormed hup hs
      by_cases he : template = root
      · rw [he, hplain up (he ▸ hup') hs] at hattr
        cases hattr
      · obtain ⟨y, hy, hyr⟩ := ((hw.mem_preorder_iff_inside hroot).1 hmem).eq_or_up.resolve_left he
        rw [hup'] at hy
        obtain rfl := Option.some.inj hy
        exact hp.not_kept_of_inside hkept hyr (F.kept_of_spared _ hs)
  · exact .refl F _ p

/-- What a pass does to the document are deeds one after the other, whether it fails or not. -/
theorem works_render (v : View) (hp : p.tree.Whole) : Works .nowhere Tree.root p (v.render.exec p).2 :=
  works_forM fun _ _ _ hq => works_renderRoot (hq.stands (Fence.stands_nowhere hp)) (fun h => h) fun _ _ h => h.elim

end View

end ViewBinding
