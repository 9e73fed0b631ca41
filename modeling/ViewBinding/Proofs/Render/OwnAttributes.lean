import ViewBinding.Proofs.Render.Stays
import ViewBinding.Proofs.Render.TendsLists

/-! The attributes of a copy itself. Binding a copy writes the attributes that its entries name and those of its live
properties; what is below the copy, lists included, writes none of them. So no copy becomes a template. -/
namespace ViewBinding

open ViewBinding.Tree

namespace Property

variable {p : Property} {heap : Heap} {t t' : Tree} {id x : NodeId} {v : Value} {name : String}

/-- A property writes the attribute that shows it, and may mark options as selected. -/
theorem attr?_write (ht : t.Whole) (hx : t.InUse x) (hx' : t'.InUse x) (hselected : Text.asciiLower name ≠ "selected")
    (hown : ∀ n ∈ p.attribute?, Text.asciiLower name ≠ n) (h : p.write heap t id v = .ok t') :
    t'.attr? x name = t.attr? x name := by
  have hw := ht.wellFormed
  have hset : ∀ {n value : String}, Text.asciiLower name ≠ Text.asciiLower n → t.setAttr id n value = .ok t' →
      t'.attr? x name = t.attr? x name := fun hn hset => (writes_setAttr hw hset).attr? fun hx => hn hx.2
  have hflag : ∀ {flag : Markup.Flag} {on : Bool}, Text.asciiLower name ≠ flag.attribute → t.setFlag id flag on = .ok t' →
      t'.attr? x name = t.attr? x name := fun hn hset => (writes_setFlag hw hset).attr? fun hx => hn hx.2
  cases p with
  | checked => exact hflag (hown _ rfl) h
  | disabled => exact hflag (hown _ rfl) h
  | readOnly => exact hflag (hown _ rfl) h
  | required => exact hflag (hown _ rfl) h
  | value => exact (writes_setValue hw h).attr? hselected
  | hidden =>
    have hn : Text.asciiLower name ≠ Text.asciiLower "hidden" := by
      rw [show Text.asciiLower "hidden" = "hidden" by decide +kernel]
      exact hown _ rfl
    simp only [write] at h
    split at h
    · exact hset hn h
    · exact (writes_removeAttr hw h).attr? fun hx => hn hx.2
  | textContent =>
    simp only [write] at h
    split at h
    · cases h
      rfl
    · obtain ⟨content, rfl⟩ := Rewrite.refill_of_setTextContent h
      rw [Tree.attr?, (kept_of_refill ht (Rewrite.isElement (.setTextContent h)) content hx hx').2, Tree.attr?]
  | innerHtml =>
    have hsame : t'.element? x = t.element? x := element?_setInnerMarkup ht h hx hx'
    rw [Tree.attr?, hsame, Tree.attr?]
  | className =>
    refine hset ?_ h
    rw [show Text.asciiLower "class" = "class" by decide +kernel]
    exact hown _ rfl
  | id =>
    refine hset ?_ h
    rw [show Text.asciiLower "id" = "id" by decide +kernel]
    exact hown _ rfl

end Property

namespace Tree

variable {t : Tree} {c : NodeId}

/-- Everything that does not lie in a node is spared, and the node itself keeps its attributes. -/
def fenceAbove (t : Tree) (c : NodeId) : Fence where
  spared x := t.InUse x ∧ ¬ t.Inside x c
  kept x := t.Outside c x
  kept_of_spared _ h := ⟨h.1, fun hin => h.2 hin.1⟩

theorem stands_fenceAbove (ht : t.Whole) (c : NodeId) : (t.fenceAbove c).Stands t where
  whole := ht
  inUse _ hx := hx.1
  up x up hx hup := by
    have hw := ht.wellFormed
    refine ⟨hw.inUse_parent hup, fun hin => hx.2 ⟨.up hup hin, ?_⟩⟩
    rintro rfl
    exact hw.not_inside_of_parent? hup hin

end Tree

namespace Render

/-- What each element of a sequence preserves is preserved by the sequence. -/
theorem exec_forM_induct {α : Type} {f : α → Render Unit} {xs : List α} {p q : Pass} (I : Pass → Prop) (hp : I p)
    (h : ∀ x ∈ xs, ∀ r s, I r → (f x).exec r = (.ok (), s) → I s) (hq : (xs.forM f).exec p = (.ok (), q)) : I q := by
  induction xs generalizing p with
  | nil =>
    cases hq
    exact hp
  | cons x xs ih =>
    obtain ⟨_, r, hx, hxs⟩ := exists_of_exec_bind hq
    exact ih (h x (by simp) p r hp hx) (fun y hy => h y (by simp [hy])) hxs

end Render

namespace Pass

/-- Below a node things have changed since a tree was there, but an attribute of the node is what it was. -/
structure KeepsOwn (t : Tree) (c : NodeId) (name : String) (p : Pass) : Prop where
  stands : (t.fenceAbove c).Stands p.tree
  confined : Confined c t p.tree
  attr? : p.tree.attr? c name = t.attr? c name

variable {t t' : Tree} {c : NodeId} {name : String} {p q : Pass}

namespace KeepsOwn

theorem refl (hp : p.tree.Whole) (c : NodeId) (name : String) : KeepsOwn p.tree c name p :=
  ⟨stands_fenceAbove hp c, .refl c p.tree, rfl⟩

theorem of_tree_eq (h : KeepsOwn t c name p) (he : q.tree = p.tree) : KeepsOwn t c name q := by
  constructor <;> rw [he]
  · exact h.stands
  · exact h.confined
  · exact h.attr?

/-- The node is there, and its place is spared. -/
theorem inUse (h : KeepsOwn t c name p) (hc : t.InUse c) : p.tree.InUse c := ((h.confined.outside c).2 (outside_self hc)).1

/-- What works below the node and spares it writes none of its attributes. -/
theorem works (h : KeepsOwn t c name p) (hc : t.InUse c) (hw : Works (t.fenceAbove c) c p q) : KeepsOwn t c name q where
  stands := hw.stands h.stands
  confined := h.confined.trans hw.confined
  attr? := (attr?_eq_of_attrs ((hw.shelters h.stands).attrs c (outside_self hc)) name).trans h.attr?

theorem rewrite (h : KeepsOwn t c name p) (hr : p.tree.Rewrite c t') (hattr : t'.attr? c name = p.tree.attr? c name) :
    KeepsOwn t c name (p.withTree t') := by
  obtain ⟨gone, hedit⟩ := hr.edit h.stands.whole.wellFormed
  have hedited := hedit.edited h.stands.whole
  exact ⟨h.stands.edited hedited fun hs => hs.2 (.refl t c), h.confined.trans (hedited.confined h.stands.whole (.refl _ c)),
    hattr.trans h.attr?⟩

end KeepsOwn

end Pass

namespace View

open Render Pass

variable {v : View} {t : Tree} {c id : NodeId} {name : String} {p q : Pass} {scope : Scope} {b : Binding}

theorem keepsOwn_bindAttribute (h : KeepsOwn t c name p)
    (hb : ∀ target ∈ b.target, Text.asciiLower target ≠ Text.asciiLower name)
    (hq : (v.bindAttribute scope c b).exec p = (.ok (), q)) : KeepsOwn t c name q := by
  cases htarget : b.target with
  | none =>
    simp only [bindAttribute, htarget] at hq
    cases hq
    exact h
  | some target =>
    have hw := h.stands.whole.wellFormed
    have hne := (hb target htarget).symm
    obtain ⟨t', rfl, -, hwritten⟩ := exec_bindAttribute_ok htarget hq
    have h' := h.of_tree_eq (q := p.evaluated b.expression scope) rfl
    rcases hwritten with ⟨text, hset⟩ | hremove
    · exact h'.rewrite (.setAttr hset) ((writes_setAttr hw hset).attr? fun hx => hne hx.2)
    · exact h'.rewrite (.removeAttr hremove) ((writes_removeAttr hw hremove).attr? fun hx => hne hx.2)

theorem keepsOwn_bindContentEntry (h : KeepsOwn t c name p) (hc : t.InUse c)
    (hq : (v.bindContentEntry scope c b).exec p = (.ok (), q)) : KeepsOwn t c name q := by
  obtain ⟨t', markup, hset, rfl⟩ := exec_bindContentEntry_ok hq
  have h' := h.of_tree_eq (q := p.evaluated b.expression scope) rfl
  rcases Rewrite.of_setInnerMarkup hset with rfl | hrewrite
  · exact h'
  · obtain ⟨gone, hedit⟩ := hrewrite.edit h.stands.whole.wellFormed
    have hused := (hedit.edited h.stands.whole).inUse_of_outside (outside_self (h.inUse hc))
    have hsame : t'.element? c = p.tree.element? c := element?_setInnerMarkup h.stands.whole hset (h.inUse hc) hused
    exact h'.rewrite hrewrite (by rw [Tree.attr?, hsame, Pass.tree_evaluated, Tree.attr?])

theorem keepsOwn_bindProperty (h : KeepsOwn t c name p) (hc : t.InUse c) (hselected : Text.asciiLower name ≠ "selected")
    (hname : ∀ (property : Property), ∀ n ∈ property.attribute?, Text.asciiLower name ≠ n)
    (hq : (bindProperty scope c b).exec p = (.ok (), q)) : KeepsOwn t c name q := by
  rcases exec_bindProperty_ok hq with rfl | ⟨property, t', hwrite, rfl⟩
  · exact h
  have h' := h.of_tree_eq (q := p.evaluated b.expression scope) rfl
  rcases Rewrite.of_write property hwrite with rfl | hrewrite
  · exact h'
  · obtain ⟨gone, hedit⟩ := hrewrite.edit h.stands.whole.wellFormed
    have hused := (hedit.edited h.stands.whole).inUse_of_outside (outside_self (h.inUse hc))
    exact h'.rewrite hrewrite
      (Property.attr?_write h.stands.whole (h.inUse hc) hused hselected (hname property) hwrite)

/-- Bringing a copy and what is in it up to date writes those attributes of the copy that its entries and properties name. -/
theorem keepsOwn_sync (hp : p.tree.Whole) (hc : p.tree.InUse c) (hselected : Text.asciiLower name ≠ "selected")
    (hname : ∀ (property : Property), ∀ n ∈ property.attribute?, Text.asciiLower name ≠ n)
    (hown : ∀ b ∈ v.entriesAt .attr p.tree c, ∀ target ∈ b.target, Text.asciiLower target ≠ Text.asciiLower name)
    {ids : List NodeId} (hids : ids.Sublist (p.tree.preorder c)) (hq : (v.sync scope ids).exec p = (.ok (), q)) :
    KeepsOwn p.tree c name q := by
  have hw := hp.wellFormed
  have hstart := KeepsOwn.refl hp c name
  have hbelow : ∀ {r}, KeepsOwn p.tree c name r → ∀ x ∈ ids, x ≠ c → r.tree.Within c x ∧ ¬ (p.tree.fenceAbove c).kept x :=
    fun hr x hx hne => by
      have hin := (hw.mem_preorder_iff_inside hc).1 (hids.subset hx)
      exact ⟨hr.confined.within fun _ => hin, fun hkept => hkept.2 ⟨hin, hne⟩⟩
  unfold sync at hq
  obtain ⟨_, m, hattrs, hq⟩ := exists_of_exec_bind hq
  obtain ⟨_, m', hcontent, hproperties⟩ := exists_of_exec_bind hq
  -- the entries of the copy are read before anything else is done
  have hfirst : KeepsOwn p.tree c name m := by
    have hrest : ∀ {rest : List NodeId} {r s : Pass}, c ∉ rest → (∀ x ∈ rest, x ∈ ids) → KeepsOwn p.tree c name r →
        (rest.forM (v.bindAttributes scope)).exec r = (.ok (), s) → KeepsOwn p.tree c name s := by
      intro rest r s hnot hsub hr hs
      refine exec_forM_induct (KeepsOwn p.tree c name) hr (fun x hx r s hr hs => ?_) hs
      obtain ⟨hin, hkept⟩ := hbelow hr x (hsub x hx) fun he => hnot (he ▸ hx)
      have hworks : Works (p.tree.fenceAbove c) c r ((v.bindAttributes scope x).exec r).2 :=
        works_bindAttributes hr.stands hin hkept
      rw [hs] at hworks
      exact hr.works hc hworks
    have hnodup := hw.nodup_preorder hc
    rw [hw.preorder_eq_cons hc] at hids hnodup
    have hnot := (List.nodup_cons.1 hnodup).1
    rcases List.sublist_cons_iff.1 hids with hsub | ⟨rest, rfl, hsub⟩
    · exact hrest (fun hm => hnot (hsub.subset hm)) (fun _ => id) hstart hattrs
    · obtain ⟨_, r, hself, hattrs⟩ := exists_of_exec_bind (x := v.bindAttributes scope c)
        (f := fun _ => rest.forM (v.bindAttributes scope)) hattrs
      refine hrest (fun hm => hnot (hsub.subset hm)) (fun _ => List.mem_cons_of_mem c) ?_ hattrs
      unfold bindAttributes at hself
      rw [exec_bind_ok (exec_tree p)] at hself
      exact exec_forM_induct (KeepsOwn p.tree c name) hstart
        (fun b hb _ _ hr hs => keepsOwn_bindAttribute hr (hown b hb) hs) hself
  have hsecond : KeepsOwn p.tree c name m' := by
    refine exec_forM_induct (KeepsOwn p.tree c name) hfirst (fun x hx r s hr hs => ?_) hcontent
    by_cases he : x = c
    · subst he
      unfold bindContent at hs
      rw [exec_bind_ok (exec_tree r)] at hs
      exact exec_forM_induct (KeepsOwn p.tree x name) hr (fun b _ _ _ hr hs => keepsOwn_bindContentEntry hr hc hs) hs
    · obtain ⟨hin, hkept⟩ := hbelow hr x hx he
      have hworks : Works (p.tree.fenceAbove c) c r ((v.bindContent scope x).exec r).2 := works_bindContent hr.stands hin hkept
      rw [hs] at hworks
      exact hr.works hc hworks
  refine exec_forM_induct (KeepsOwn p.tree c name) hsecond (fun x hx r s hr hs => ?_) hproperties
  by_cases he : x = c
  · subst he
    unfold bindProperties at hs
    rw [exec_bind_ok (exec_tree r)] at hs
    exact exec_forM_induct (KeepsOwn p.tree x name) hr
      (fun b _ _ _ hr hs => keepsOwn_bindProperty hr hc hselected hname hs) hs
  · obtain ⟨hin, hkept⟩ := hbelow hr x hx he
    have hworks : Works (p.tree.fenceAbove c) c r ((v.bindProperties scope x).exec r).2 :=
      works_bindProperties hr.stands hin hkept
    rw [hs] at hworks
    exact hr.works hc hworks

/-- A copy does not become a template by being bound, unless an entry of its own makes it one. -/
theorem attr?_foreach_bindCopy (hp : p.tree.Whole) (hc : p.tree.InUse c)
    (hplain : p.tree.hasAttr c (v.attributeName .foreach) = false)
    (hown : ∀ b ∈ v.entriesAt .attr p.tree c, ∀ target ∈ b.target,
      Text.asciiLower target ≠ Text.asciiLower (v.attributeName .foreach))
    {fuel : Nat} {item : ItemScope} (hq : (v.bindCopy (v.renderListWithin fuel) c item).exec p = (.ok (), q)) :
    q.tree.attr? c (v.attributeName .foreach) = none := by
  have hw := hp.wellFormed
  unfold bindCopy at hq
  rw [exec_bind_ok (exec_view _ p)] at hq
  obtain ⟨_, m, hsync, hq⟩ := exists_of_exec_bind hq
  have hsynced := keepsOwn_sync hp hc (asciiLower_attributeName_ne v .foreach "selected" (by decide))
    (fun property n hn => asciiLower_attributeName_ne v .foreach n (by
      cases property <;> simp only [Property.attribute?, Option.mem_def, Option.some.injEq, reduceCtorEq] at hn <;>
        subst hn <;> decide)) hown (elements_scan_sublist ..) hsync
  rw [exec_bind_ok (exec_editDocument _ m)] at hq
  have hlistened := hsynced.of_tree_eq
    (q := { m with document := (v.scan p.tree p.copies c).elements.foldl (v.listen (some item)) m.document })
    (tree_foldl_listen ..)
  have hdone : KeepsOwn p.tree c (v.attributeName .foreach) q := by
    refine exec_forM_induct (KeepsOwn p.tree c (v.attributeName .foreach)) hlistened (fun template ht r s hr hs => ?_) hq
    obtain ⟨hmem, -, hattr⟩ := mem_templates_scan ht
    have hne : template ≠ c := fun he => by
      rw [he, hplain] at hattr
      cases hattr
    have hbelow : r.tree.Below c template := hr.confined.below fun _ => ⟨(hw.mem_preorder_iff_inside hc).1 hmem, hne⟩
    have hworks := worksList_renderListWithin (p.tree.fenceAbove c) v fuel template item.scope r c hr.stands hbelow
      fun up hup hspared => ?_
    · rw [hs] at hworks
      exact hr.works hc hworks
    · -- the parent of a template in the copy lies in the copy
      obtain ⟨hin, -⟩ := hbelow (hr.stands.whole.wellFormed.inUse_of_parent? hup)
      obtain ⟨y, hy, hyc⟩ := hin.eq_or_up.resolve_left hne
      rw [hup] at hy
      obtain rfl := Option.some.inj hy
      by_cases he : up = c
      · exact hspared.2 (he ▸ .refl p.tree c)
      · have hout := (hr.confined.outside up).2 ⟨hspared.1, fun hin => hspared.2 hin.1⟩
        exact hout.2 ⟨hyc, he⟩
  rw [hdone.attr?]
  simpa [Tree.hasAttr] using hplain

end View

end ViewBinding
