import ViewBinding.Proofs.Render.Scan
import ViewBinding.Proofs.Render.Sync

/-! Making lists anew: dropping the copies that are there, and inserting and binding new ones. -/
namespace ViewBinding.View

open Render ViewBinding.Tree

variable {v : View} {limit : Nat} {F : Footprint} {p q : Pass} {id : NodeId}

/-- The state in which the listeners and the records of a copy are gone, but not the copy. -/
def forgotten (p : Pass) (id : NodeId) : Pass :=
  { p with
    document := { p.document with listeners := p.document.listeners.purge (p.tree.preorder id) }
    copies := p.copies.filter fun copy => !(p.tree.preorder id).contains copy }

theorem exec_dropCopy (id : NodeId) (p : Pass) :
    (dropCopy id).exec p = (edit (·.remove id)).exec (forgotten p id) := by
  unfold dropCopy
  simp only [exec_bind, exec_tree, exec_modify]
  rfl

/-- Dropping a child takes away the nodes below it and their records. -/
theorem leads_dropCopy (hp : p.tree.WellFormed) {up : NodeId} (hup : p.tree.parent? id = some up)
    (hr : F.removed id) : Pass.Leads limit F p ((dropCopy id).exec p).2 := by
  rw [exec_dropCopy, exec_edit]
  obtain ⟨t, ht⟩ := hp.exists_remove hup
  rw [show (forgotten p id).tree.remove id = .ok t from ht]
  have hlater := later_remove (F := F) hp hup hr ht
  refine ⟨hlater.wellFormed, hlater.mutations_le, fun _ =>
    ⟨hlater, fun x hx hc => ?_, fun x hx hc => ?_, fun x hx _ => ?_, fun hk x hx => ?_⟩⟩
  · by_cases hmem : x ∈ p.tree.preorder id
    · exact .inr (expired_of_remove hp hup ht hmem)
    · refine .inl (List.mem_filter.2 ⟨hc, ?_⟩)
      simpa using hmem
  · exact .inl (List.mem_filter.1 hc).1
  · by_cases hmem : x ∈ p.tree.preorder id
    · exact .inr (expired_of_remove hp hup ht hmem)
    · refine .inl ((ListenerStore.on_purge ..).trans (if_neg ?_))
      simpa using hmem
  · exact hlater.known (hk x (List.mem_filter.1 hx).1)

theorem leads_forM_dropCopy {stale : List NodeId} {up : NodeId} (hp : p.tree.WellFormed)
    (hnodup : stale.Nodup) (hup : ∀ id ∈ stale, p.tree.parent? id = some up)
    (hr : ∀ id ∈ stale, F.removed id) : Pass.Leads limit F p ((stale.forM dropCopy).exec p).2 := by
  induction stale generalizing p with
  | nil => exact .refl hp
  | cons id stale ih =>
    obtain ⟨hid, hnodup⟩ := List.nodup_cons.1 hnodup
    refine leads_bind (leads_dropCopy hp (hup id (by simp)) (hr id (by simp))) fun _ q hq hlead => ?_
    refine ih hlead.wellFormed hnodup (fun y hy => ?_) fun y hy => hr y (by simp [hy])
    rw [exec_dropCopy, exec_edit] at hq
    split at hq
    · next t ht =>
      cases hq
      refine parent?_of_remove hp (hup id (by simp)) (hup y (by simp [hy])) (fun he => hid ?_) ht
      exact he ▸ hy
    · cases hq

/-- What is torn down lies beside the template. -/
theorem staleCopies_sublist {t : Tree} {template up : NodeId} (hup : t.parent? template = some up) (copies : List NodeId)
    (cls : String) : List.Sublist (staleCopies t copies template cls) (t.children up) := by
  rw [staleCopies, hup]
  exact List.filter_sublist.trans List.filter_sublist

/-- Tearing a list down removes the copies that carry its class, and these only. -/
theorem leads_tearDown (hp : p.tree.WellFormed) {template : NodeId} {cls : String}
    (hr : ∀ id ∈ staleCopies p.tree p.copies template cls, F.removed id) :
    Pass.Leads limit F p ((tearDown template cls).exec p).2 := by
  unfold tearDown
  rw [exec_bind, exec_view]
  simp only
  cases hup : p.tree.parent? template with
  | none =>
    simp only [staleCopies, hup]
    exact .refl hp
  | some up =>
    have hsub := staleCopies_sublist hup p.copies cls
    have hchild : ∀ id ∈ staleCopies p.tree p.copies template cls, p.tree.parent? id = some up :=
      fun id hid => hp.mem_children_iff.1 (hsub.subset hid)
    exact leads_forM_dropCopy hp ((hp.nodup_children up).sublist hsub) hchild hr

theorem exec_edit_ok {f : Tree → Except Tree.Error Tree} {u : Unit} (h : (edit f).exec p = (.ok u, q)) :
    ∃ t, f p.tree = .ok t ∧ q = p.withTree t := by
  rw [exec_edit] at h
  split at h
  · next t ht =>
    cases h
    exact ⟨t, ht, rfl⟩
  · cases h

/-- What has happened when a copy has been inserted. -/
theorem exec_insertCopy_ok {template anchor c : NodeId}
    (h : (v.insertCopy template anchor).exec p = (.ok c, q)) :
    ∃ t₁ t₂ t₃ t₄, p.tree.copy template = .ok (c, t₁) ∧
      t₁.removeAttr c (v.attributeName .foreach) = .ok t₂ ∧
      t₂.removeAttr c v.options.hiddenAttribute = .ok t₃ ∧ t₃.insertAfter anchor c = .ok t₄ ∧
      q = p.withTree t₄ := by
  unfold insertCopy at h
  rw [exec_bind, exec_tree] at h
  simp only at h
  split at h
  · cases h
  · next copy t₁ hcopy =>
    simp only [exec_bind, exec_setTree] at h
    split at h
    · next u₁ p₁ h₁ =>
      obtain ⟨t₂, ht₂, rfl⟩ := exec_edit_ok h₁
      split at h
      · next u₂ p₂ h₂ =>
        obtain ⟨t₃, ht₃, rfl⟩ := exec_edit_ok h₂
        split at h
        · next u₃ p₃ h₃ =>
          obtain ⟨t₄, ht₄, rfl⟩ := exec_edit_ok h₃
          cases h
          exact ⟨t₁, t₂, t₃, t₄, hcopy, ht₂, ht₃, ht₄, rfl⟩
        · cases h
      · cases h
    · cases h

/-- Inserting a copy adds nodes that were not in use, behind the anchor. -/
theorem leads_insertCopy (hp : p.tree.WellFormed) {template anchor : NodeId} (ha : F.followed anchor) :
    Pass.Leads limit F p ((v.insertCopy template anchor).exec p).2 := by
  refine .of_freshen hp ?_
  unfold insertCopy
  rw [exec_bind, exec_tree]
  simp only
  cases hcopy : p.tree.copy template with
  | error e => exact .refl hp
  | ok made =>
    obtain ⟨c, t₁⟩ := made
    obtain ⟨forest, hr⟩ := hp
    have hp : p.tree.WellFormed := ⟨forest, hr⟩
    obtain ⟨b, rfl, -, -, hr₁, -, hunused, -⟩ := copy_spec hr hcopy
    have hfresh : ¬ p.tree.InUse b.handle := hunused _ b.handle_mem_handles
    have hroot : b.handle ≠ root := fun he => hfresh (he ▸ hp.inUse_root)
    have hremove : ∀ {t t' : Tree} {name : String}, t.WellFormed → t.removeAttr b.handle name = .ok t' →
        Tree.Later (F.freshen p.tree) t t' := fun ht h =>
      ((writes_removeAttr ht h).mono fun x n hx => by rw [hx.1]; exact .inr hfresh).later ht
    refine leads_bind (.withTree (later_copy hp hcopy)) fun _ q₁ h₁ hl₁ => ?_
    obtain rfl : p.withTree t₁ = q₁ := by simpa using h₁
    refine leads_bind (leads_edit hl₁.wellFormed fun t ht => ?_) fun _ q₂ h₂ hl₂ => ?_
    · exact hremove hl₁.wellFormed ht
    obtain ⟨t₂, ht₂, rfl⟩ := exec_edit_ok h₂
    obtain ⟨b₂, forest₂, hb₂, -, hr₂⟩ :=
      (writes_removeAttr hl₁.wellFormed ht₂).toSameShape.represents_cons hr₁
    refine leads_bind (leads_edit hl₂.wellFormed fun t ht => ?_) fun _ q₃ h₃ hl₃ => ?_
    · exact hremove hl₂.wellFormed ht
    obtain ⟨t₃, ht₃, rfl⟩ := exec_edit_ok h₃
    obtain ⟨b₃, forest₃, hb₃, -, hr₃⟩ :=
      (writes_removeAttr hl₂.wellFormed ht₃).toSameShape.represents_cons hr₂
    have hb : b₃.handle = b.handle := hb₃.trans hb₂
    refine leads_bind (leads_edit hl₃.wellFormed fun t ht => ?_) fun _ q₄ h₄ hl₄ => .refl hl₄.wellFormed
    rw [← hb] at ht
    refine later_insertAfter hr₃ (hb ▸ hroot) (.inl ha) (.inr ?_) ht
    rwa [hb]

/-- What is known of a copy that has just been inserted. -/
structure Inserted (v : View) (p q : Pass) (anchor c : NodeId) : Prop where
  unused : ∀ x ∈ q.tree.preorder c, ¬ p.tree.InUse x
  inUse : q.tree.InUse c
  next : ∃ up, q.tree.parent? anchor = some up ∧ q.tree.parent? c = some up ∧
    [anchor, c] <:+: q.tree.children up
  plain : q.tree.hasAttr c (v.attributeName .foreach) = false
  copies : q.copies = p.copies

theorem inserted_of_exec (hp : p.tree.WellFormed) {template anchor c : NodeId}
    (h : (v.insertCopy template anchor).exec p = (.ok c, q)) : Inserted v p q anchor c := by
  obtain ⟨t₁, t₂, t₃, t₄, hcopy, h₂, h₃, h₄, rfl⟩ := exec_insertCopy_ok h
  obtain ⟨forest, hr⟩ := hp
  have hp : p.tree.WellFormed := ⟨forest, hr⟩
  obtain ⟨b, rfl, -, -, hr₁, -, hunused, -⟩ := copy_spec hr hcopy
  have hw₂ := writes_removeAttr ⟨_, hr₁⟩ h₂
  obtain ⟨b₂, forest₂, hb₂, hbs₂, hr₂⟩ := hw₂.toSameShape.represents_cons hr₁
  have hw₃ := writes_removeAttr ⟨_, hr₂⟩ h₃
  obtain ⟨b₃, forest₃, hb₃, hbs₃, hr₃⟩ := hw₃.toSameShape.represents_cons hr₂
  have hb : b₃.handle = b.handle := hb₃.trans hb₂
  have hroot : b₃.handle ≠ root := fun he =>
    hunused _ b.handle_mem_handles (hb ▸ he ▸ hp.inUse_root)
  rw [← hb] at h₄ ⊢
  obtain ⟨up, d, pre, post, tb, rfl, -, hreshaped, hchild, -, -⟩ := insertAfter_spec hr₃ hroot h₄
  have hnew := Branch.mem_parts_replace hreshaped.mem (.node up d (pre ++ tb :: b₃ :: post))
  have hb₃mem := Represents.child_mem_parts hnew
    (show b₃ ∈ (Branch.node up d (pre ++ tb :: b₃ :: post)).children by simp)
  have hchildren := hreshaped.holds.children
  refine ⟨fun x hx => ?_, ?_, ⟨up, ?_, ?_, ?_⟩, ?_, rfl⟩
  · rw [Pass.tree_withTree, hreshaped.represents.preorder hb₃mem, hbs₃, hbs₂] at hx
    exact hunused x hx
  · exact hreshaped.represents.inUse_of_mem hb₃mem b₃.handle_mem_handles
  · exact (hreshaped.holds.child (by simp)).parent?
  · exact (hreshaped.holds.child (by simp)).parent?
  · rw [Pass.tree_withTree, show t₄.children up = _ from hchildren]
    exact ⟨pre.map Branch.handle, post.map Branch.handle, by simp⟩
  · have hnone := attr?_removeAttr_of_none ⟨_, hr₂⟩ h₃ (attr?_removeAttr_self ⟨_, hr₁⟩ h₂)
    rw [← hb] at hnone
    have hsame : t₄.element? b₃.handle = t₃.element? b₃.handle := by
      rw [Tree.element?, hchild, Tree.element?]
      cases t₃.get? b₃.handle <;> rfl
    rw [Pass.tree_withTree, hasAttr, attr?, hsame]
    exact congrArg Option.isSome hnone

@[simp] theorem tree_listen (v : View) (scope : Option ItemScope) (d : Document) (id : NodeId) :
    (v.listen scope d id).tree = d.tree := rfl

theorem tree_foldl_listen (v : View) (scope : Option ItemScope) (d : Document) (ids : List NodeId) :
    (ids.foldl (v.listen scope) d).tree = d.tree := by
  induction ids generalizing d with
  | nil => rfl
  | cons id ids ih => exact (ih _).trans (tree_listen v scope d id)

theorem on_foldl_install_of_ne (listeners : List Listener) (s : ListenerStore) {x : NodeId} (hx : x ≠ id) :
    (listeners.foldl (·.install id ·) s).on x = s.on x := by
  induction listeners generalizing s with
  | nil => rfl
  | cons l listeners ih => exact (ih _).trans (s.on_install_of_ne hx l)

theorem on_foldl_listen_of_not_mem (v : View) (scope : Option ItemScope) (d : Document) {ids : List NodeId}
    {x : NodeId} (hx : x ∉ ids) : (ids.foldl (v.listen scope) d).listeners.on x = d.listeners.on x := by
  induction ids generalizing d with
  | nil => rfl
  | cons id ids ih =>
    rw [List.mem_cons, not_or] at hx
    exact (ih _ hx.2).trans (on_foldl_install_of_ne _ d.listeners hx.1)

/-- Listening to elements gives listeners to these elements. -/
theorem leads_listen (hp : p.tree.WellFormed) (scope : Option ItemScope) {ids : List NodeId}
    (hh : ∀ x ∈ ids, F.heard x) :
    Pass.Leads limit F p { p with document := ids.foldl (v.listen scope) p.document } :=
  .of_eq hp (tree_foldl_listen ..) rfl fun x hx => on_foldl_listen_of_not_mem v scope p.document fun hm =>
    hx (hh x hm)

theorem hasAttr_of_listExpression? {t : Tree} {template : NodeId} {source : String}
    (h : v.listExpression? t template = some source) :
    t.hasAttr template (v.attributeName .foreach) = true := by
  unfold hasAttr
  cases hattr : t.attr? template (v.attributeName .foreach) with
  | none => simp [listExpression?, entriesAt, hattr] at h
  | some raw => rfl

/--
What making a list changes: the template gets new siblings and is marked, copies that carry the class of the list are
removed, and all else happens to nodes that are new.
-/
def LeadsLists (v : View) (limit : Nat) (make : NodeId → Scope → Render Unit) : Prop :=
  ∀ template scope (p : Pass) (F : Footprint), p.tree.WellFormed → limit ≤ p.tree.mutations + 2 ^ 32 →
    F.followed template → (∀ x, F.written x "selected") →
    F.written template (Text.asciiLower v.options.hiddenAttribute) →
    (p.tree.mutations < limit → ∀ e, v.listExpression? p.tree template = some e →
      ∀ x ∈ staleCopies p.tree p.copies template (v.copyClass e), F.removed x) →
    Pass.Leads limit F p ((make template scope).exec p).2

/-- What may happen while a copy is bound: anything below it, and options may be marked as the selected ones. -/
def inCopy (t : Tree) (c : NodeId) : Footprint where
  followed x := x ∈ t.preorder c ∧ x ≠ c
  removed x := x ∈ t.preorder c ∧ x ≠ c
  filled x := x ∈ t.preorder c
  recorded _ := False
  heard x := x ∈ t.preorder c
  written x name := x ∈ t.preorder c ∨ name = "selected"

/-- Binding a copy changes nothing outside of it. -/
theorem leads_bindCopy {nested : NodeId → Scope → Render Unit} (hn : LeadsLists v limit nested)
    (hp : p.tree.WellFormed) (hlimit : limit ≤ p.tree.mutations + 2 ^ 32) {c : NodeId} (hc : p.tree.InUse c)
    (hplain : p.tree.hasAttr c (v.attributeName .foreach) = false) (item : ItemScope) :
    Pass.Leads limit (inCopy p.tree c) p ((v.bindCopy nested c item).exec p).2 := by
  refine .of_freshen hp ?_
  unfold bindCopy
  rw [exec_bind, exec_view]
  refine leads_bind (leads_sync hp (fun x => .inl (.inr rfl)) (fun x hx => ?_) fun x hx name => ?_)
    fun _ q _ hq => ?_
  · exact .inl (mem_elements_scan hx).1
  · exact .inl (.inl (mem_elements_scan hx).1)
  refine leads_bind ?_ fun _ q' h' hq' => ?_
  · exact leads_listen hq.wellFormed _ fun x hx => .inl (mem_elements_scan hx).1
  refine leads_forM hq'.wellFormed fun template ht r hr => ?_
  have hlead := (hq.trans hq').trans hr
  obtain ⟨hmem, helement, hattr⟩ := mem_templates_scan ht
  have hne : template ≠ c := fun he => by
    rw [he, hplain] at hattr
    cases hattr
  obtain ⟨e, he⟩ := Option.isSome_iff_exists.1 helement
  have hused := hp.inUse_of_element? he
  obtain ⟨up, hup, hupc⟩ := hp.exists_parent hc hmem hne
  refine hn template _ r _ hr.wellFormed (hlimit.trans ?_) (.inl ⟨hmem, hne⟩) (fun x => .inl (.inr rfl))
    (.inl (.inl hmem)) fun hl e' _ x hx => ?_
  · have := hlead.mutations_le
    omega
  -- a copy beside the template is new, or it is in the copy that is being bound
  have hlater := (hlead.later hl).tree
  have hbound : r.tree.mutations < p.tree.mutations + 2 ^ 32 := hl.trans_le hlimit
  unfold staleCopies at hx
  split at hx
  · simp at hx
  next up' hup' =>
    have hxup : r.tree.parent? x = some up' :=
      hr.wellFormed.mem_children_iff.1 (List.mem_filter.1 (List.mem_filter.1 hx).1).1
    obtain rfl : up = up' := by
      have := hlater.parent?_eq_some hbound hused (hr.wellFormed.inUse_of_parent? hup') hup
      rw [hup'] at this
      exact (Option.some.inj this).symm
    by_cases hxp : p.tree.InUse x
    · have hxr := hr.wellFormed.inUse_of_parent? hxup
      rcases hlater.parent? x hxp with hsame | ⟨hnone, hf⟩ | hex
      · exact .inl (hp.mem_preorder_of_parent? hc hupc (hsame.symm.trans hxup))
      · obtain ⟨hxc, hxne⟩ := hf.resolve_right (not_not_intro hxp)
        obtain ⟨q', hq', -⟩ := hp.exists_parent hc hxc hxne
        rw [hnone] at hq'
        cases hq'
      · exact absurd hxr (hex.not_inUse hbound)
    · exact .inr hxp

theorem leads_bindCopy_any {nested : NodeId → Scope → Render Unit} (hn : LeadsLists v limit nested)
    (hp : p.tree.WellFormed) (hlimit : limit ≤ p.tree.mutations + 2 ^ 32) {c : NodeId} (hc : p.tree.InUse c)
    (hplain : p.tree.hasAttr c (v.attributeName .foreach) = false) (item : ItemScope) :
    Pass.Leads limit .any p ((v.bindCopy nested c item).exec p).2 :=
  (leads_bindCopy hn hp hlimit hc hplain item).mono ⟨fun _ _ => trivial, fun _ _ => trivial, fun _ _ => trivial,
    fun _ => id, fun _ _ => trivial, fun _ _ _ => trivial⟩

/-- Making copies behind a node adds siblings to it. -/
theorem leads_makeCopies {nested : NodeId → Scope → Render Unit} (hn : LeadsLists v limit nested)
    (hp : p.tree.WellFormed) (hlimit : limit ≤ p.tree.mutations + 2 ^ 32) {template anchor : NodeId}
    (ha : F.followed anchor) (hselected : ∀ x, F.written x "selected") (scope : Scope) (cls : String)
    (items : List Value) (index : Nat) :
    Pass.Leads limit F p ((v.makeCopies nested template scope cls items index anchor).exec p).2 := by
  induction items generalizing p F index anchor with
  | nil => exact .refl hp
  | cons item items ih =>
    refine .of_freshen hp ?_
    unfold makeCopies
    refine leads_bind (leads_insertCopy hp (.inl ha)) fun c q hc hq => ?_
    have hin := inserted_of_exec hp hc
    have hunused : ¬ p.tree.InUse c := hin.unused c (hq.wellFormed.self_mem_preorder hin.inUse)
    have hlimit' : ∀ {r : Pass}, q.tree.mutations ≤ r.tree.mutations → limit ≤ r.tree.mutations + 2 ^ 32 :=
      fun hr => hlimit.trans (by have := hq.mutations_le; omega)
    refine leads_bind ((leads_bindCopy hn hq.wellFormed (hlimit' le_rfl) hin.inUse hin.plain _).mono
      ⟨fun x hx => .inr (hin.unused x hx.1), fun x hx => .inr (hin.unused x hx.1), fun x hx => .inr (hin.unused x hx),
        fun _ => False.elim, fun x hx => .inr (hin.unused x hx), fun x name hx => ?_⟩) fun _ r _ hr => ?_
    · exact hx.elim (fun hm => .inr (hin.unused x hm)) fun hs => .inl (hs ▸ hselected x)
    refine leads_bind (leads_edit hr.wellFormed fun t ht => ?_) fun _ s _ hs => ?_
    · exact ((writes_addClass hr.wellFormed ht).mono fun x n hx => .inr (hx.1 ▸ hunused)).later
        hr.wellFormed
    refine leads_bind (.record hs.wellFormed (.inr hunused) fun hl => ?_) fun _ s' h' hs' => ?_
    · exact ((hr.trans hs).later hl).tree.known (.inl hin.inUse)
    exact ih (F := F.freshen p.tree) hs'.wellFormed (hlimit' ((hr.trans hs).trans hs').mutations_le) (.inr hunused)
      (fun x => .inl (hselected x)) _

/-- Lists within lists change what a single list changes, whatever their depth. -/
theorem leadsLists_renderListWithin (v : View) (limit fuel : Nat) :
    LeadsLists v limit (v.renderListWithin fuel) := by
  induction fuel with
  | zero => exact fun _ _ p _ hp _ _ _ _ _ => .refl hp
  | succ fuel ih =>
    intro template scope p F hp hlimit hf hselected hwritten hstale
    unfold renderListWithin
    rw [exec_bind, exec_tree]
    simp only
    split
    · exact .refl hp
    split
    · exact .refl hp
    next expression he =>
    rw [exec_bind, exec_iterate]
    simp only
    refine (leads_evaluated expression scope hp).trans ?_
    split
    · exact .refl hp
    next items _ =>
    have htear : ∀ r : Pass, r.tree = p.tree → r.copies = p.copies →
        Pass.Leads limit F r ((tearDown template (v.copyClass expression)).exec r).2 := by
      intro r ht hc
      by_cases hl : p.tree.mutations < limit
      · refine leads_tearDown (ht ▸ hp) ?_
        rw [ht, hc]
        exact hstale hl expression he
      · have hall : Pass.Leads limit .all r ((tearDown template (v.copyClass expression)).exec r).2 :=
          leads_tearDown (ht ▸ hp) fun _ _ => trivial
        exact hall.of_limit_le (ht ▸ Nat.not_lt.1 hl)
    refine leads_bind (htear _ rfl rfl) fun _ q _ hq => ?_
    refine leads_bind (leads_makeCopies ih hq.wellFormed (hlimit.trans ?_) hf hselected ..) fun _ r _ hr => ?_
    · have := hq.mutations_le
      exact Nat.add_le_add_right this _
    refine leads_edit hr.wellFormed fun t ht => ?_
    refine ((writes_setAttr hr.wellFormed ht).mono fun x n hx => ?_).later hr.wellFormed
    rw [hx.1, hx.2]
    exact hwritten

theorem leads_renderRoot (root : NodeId) (hp : p.tree.WellFormed) (hlimit : limit ≤ p.tree.mutations + 2 ^ 32) :
    Pass.Leads limit .all p ((v.renderRoot root).exec p).2 := by
  unfold renderRoot
  rw [exec_bind, exec_tree]
  simp only
  split
  · rw [exec_bind, exec_view]
    refine leads_bind (leads_sync_all limit hp _) fun _ q _ hq => ?_
    refine leads_forM hq.wellFormed fun template _ r hr => ?_
    refine leadsLists_renderListWithin v limit _ template v.scope r .all hr.wellFormed (hlimit.trans ?_) trivial
      (fun _ => trivial) trivial fun _ _ _ _ _ => trivial
    exact Nat.add_le_add_right (hq.trans hr).mutations_le _
  · exact .refl hp

/-- A pass leads to a later state, whether it fails or not. -/
theorem leads_render (v : View) (hp : p.tree.WellFormed) (hlimit : limit ≤ p.tree.mutations + 2 ^ 32) :
    Pass.Leads limit .all p (v.render.exec p).2 :=
  leads_forM hp fun root _ _ hq =>
    leads_renderRoot root hq.wellFormed (hlimit.trans (Nat.add_le_add_right hq.mutations_le _))

end ViewBinding.View
