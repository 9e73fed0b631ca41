import ViewBinding.Proofs.Tree.Rewrite

/-! Fences around nodes that are to be left alone. As long as only elements outside of a fence are written, and children are
added to and taken from nodes outside of it only, what is inside stays as it is. -/
namespace ViewBinding.Tree

variable {t t' t'' : Tree} {x p a id up top : NodeId} {gone : List NodeId}

/-- Nodes that are to be spared, and nodes that are to keep their attributes, those that are spared among them. -/
structure Fence where
  spared : NodeId → Prop
  kept : NodeId → Prop
  kept_of_spared : ∀ x, spared x → kept x

namespace Fence

variable {F G : Fence}

/-- A fence without anything in it. -/
def nowhere : Fence := ⟨fun _ => False, fun _ => False, fun _ h => h⟩

/-- A fence with less in it. -/
structure Encloses (F G : Fence) : Prop where
  spared : ∀ x, G.spared x → F.spared x
  kept : ∀ x, G.kept x → F.kept x

theorem encloses_nowhere (F : Fence) : F.Encloses nowhere := ⟨fun _ => False.elim, fun _ => False.elim⟩

/-- A fence whose nodes are there. Whatever is above them is spared, so that nobody removes them. -/
structure Stands (F : Fence) (t : Tree) : Prop where
  whole : t.Whole
  inUse : ∀ x, F.kept x → t.InUse x
  up : ∀ x p, F.kept x → t.parent? x = some p → F.spared p

/-- A fence that goes around selects: who spares one spares all that is in it, because the select follows its options. -/
structure Around (F : Fence) (t : Tree) : Prop extends F.Stands t where
  selects : ∀ s x, F.spared s → t.hasTag s "select" = true → t.Inside x s → F.spared x

/-- What is spared is as it was, apart from selects that follow; it has its children, and what is kept its attributes. -/
structure Shelters (F : Fence) (t t' : Tree) : Prop where
  get? : ∀ x, F.spared x → t.hasTag x "select" = false → t'.get? x = t.get? x
  children : ∀ x, F.spared x → t'.children x = t.children x
  attrs : ∀ x, F.kept x → (t'.element? x).map (·.attrs) = (t.element? x).map (·.attrs)

/-- What is behind a fence is as it was. -/
structure Keeps (F : Fence) (t t' : Tree) : Prop where
  get? : ∀ x, F.spared x → t'.get? x = t.get? x
  attrs : ∀ x, F.kept x → (t'.element? x).map (·.attrs) = (t.element? x).map (·.attrs)

theorem around_nowhere (ht : t.Whole) : nowhere.Around t :=
  ⟨⟨ht, fun _ => False.elim, fun _ _ => False.elim⟩, fun _ _ => False.elim⟩

theorem stands_nowhere (ht : t.Whole) : nowhere.Stands t := (around_nowhere ht).toStands

namespace Shelters

theorem refl (F : Fence) (t : Tree) : F.Shelters t t := ⟨fun _ _ _ => rfl, fun _ _ => rfl, fun _ _ => rfl⟩

theorem trans (h : F.Shelters t t') (h' : F.Shelters t' t'') : F.Shelters t t'' where
  get? x hx htag := by
    have hsame := h.get? x hx htag
    refine (h'.get? x hx ?_).trans hsame
    rwa [hasTag, element?_eq_of_get?_eq hsame, ← hasTag]
  children x hx := (h'.children x hx).trans (h.children x hx)
  attrs x hx := (h'.attrs x hx).trans (h.attrs x hx)

/-- A spared node has no new children. -/
theorem parent? (h : F.Shelters t t') (ht : t.WellFormed) (ht' : t'.WellFormed) (hp : t'.parent? x = some p)
    (hs : F.spared p) : t.parent? x = some p := by
  have hx := ht'.mem_children_iff.2 hp
  rw [h.children p hs] at hx
  exact ht.mem_children_iff.1 hx

end Shelters

namespace Keeps

theorem refl (F : Fence) (t : Tree) : F.Keeps t t := ⟨fun _ _ => rfl, fun _ _ => rfl⟩

theorem trans (h : F.Keeps t t') (h' : F.Keeps t' t'') : F.Keeps t t'' where
  get? x hx := (h'.get? x hx).trans (h.get? x hx)
  attrs x hx := (h'.attrs x hx).trans (h.attrs x hx)

theorem mono (h : F.Keeps t t') (hG : F.Encloses G) : G.Keeps t t' where
  get? x hx := h.get? x (hG.spared x hx)
  attrs x hx := h.attrs x (hG.kept x hx)

theorem hasAttr (h : F.Keeps t t') (hx : F.kept x) (name : String) : t'.hasAttr x name = t.hasAttr x name := by
  rw [Tree.hasAttr, attr?_eq_of_attrs (h.attrs x hx), Tree.hasAttr]

/-- A spared node has no new children. -/
theorem parent? (h : F.Keeps t t') (ht : t.WellFormed) (ht' : t'.WellFormed) (hp : t'.parent? x = some p) (hs : F.spared p) :
    t.parent? x = some p := by
  have hx := ht'.mem_children_iff.2 hp
  rw [children, h.get? p hs, ← children] at hx
  exact ht.mem_children_iff.1 hx

end Keeps

namespace Stands

theorem not_kept_of_parent? (h : F.Stands t) (hup : ¬ F.spared up) (hx : t.parent? x = some up) : ¬ F.kept x :=
  fun hk => hup (h.up x up hk hx)

/-- Nothing is kept within a node that is not. -/
theorem not_kept_of_inside (h : F.Stands t) (ha : ¬ F.kept a) (hx : t.Inside x a) : ¬ F.kept x := by
  induction hx using Relation.ReflTransGen.head_induction_on with
  | refl => exact ha
  | head hp _ ih => exact h.not_kept_of_parent? (fun hs => ih (F.kept_of_spared _ hs)) hp

/-- Nothing is kept below a node that is not spared. -/
theorem not_kept_of_below (h : F.Stands t) (hup : ¬ F.spared up) (hx : t.Inside x up) (hne : x ≠ up) : ¬ F.kept x := by
  obtain ⟨c, hc, hxc⟩ := hx.eq_or_child.resolve_left hne
  exact h.not_kept_of_inside (h.not_kept_of_parent? hup hc) hxc

/-- An edit of a node that is not spared leaves the fence standing. -/
theorem edited (h : F.Stands t) (he : Edited t t' top gone) (htop : ¬ F.spared top) : F.Stands t' := by
  have hstays : ∀ x, F.kept x → t'.InUse x := fun x hx => (he.inUse_iff (h.inUse x hx)).2 fun hg => by
    obtain ⟨-, hin, hne⟩ := he.taken x hg
    exact h.not_kept_of_below htop hin hne hx
  refine ⟨he.whole, hstays, fun x p hx hp => ?_⟩
  rw [he.parent?_eq (h.inUse x hx) (hstays x hx)] at hp
  exact h.up x p hx hp

/-- Elements outside of a fence may be written. -/
theorem rewrite (h : F.Stands t) (hid : ¬ F.kept id) (hr : t.Rewrite id t') : F.Stands t' ∧ F.Shelters t t' := by
  obtain ⟨gone, hedit⟩ := hr.edit h.whole.wellFormed
  have houtside : ∀ x, F.kept x → t.Outside id x ∧ x ≠ id := fun x hx =>
    ⟨⟨h.inUse x hx, fun hin => h.not_kept_of_inside hid hin.1 hx⟩, fun he => hid (he ▸ hx)⟩
  refine ⟨h.edited (hedit.edited h.whole) fun hs => hid (F.kept_of_spared id hs), fun x hx htag => ?_, fun x hx => ?_,
    fun x hx => ?_⟩
  · obtain ⟨hout, hne⟩ := houtside x (F.kept_of_spared x hx)
    exact (hr.kept h.whole hout hne).1 fun _ => htag
  · obtain ⟨hout, hne⟩ := houtside x (F.kept_of_spared x hx)
    exact hr.children h.whole hout hne
  · obtain ⟨hout, hne⟩ := houtside x hx
    exact (hr.kept h.whole hout hne).2

/-- Children may come to nodes that are not spared, and go from them. -/
theorem relist (h : F.Stands t) (hup : ¬ F.spared up) (hr : t.Relist up t') : F.Stands t' ∧ F.Shelters t t' := by
  obtain ⟨gone, hedit⟩ := hr.edit h.whole.wellFormed
  have h' := h.edited (hedit.edited h.whole) hup
  have hkept : ∀ x, F.kept x → (x ≠ up → t'.get? x = t.get? x) ∧ t'.element? x = t.element? x := fun x hx =>
    hr.kept h.whole (h.inUse x hx) (h'.inUse x hx)
  have hsame : ∀ x, F.spared x → t'.get? x = t.get? x := fun x hx =>
    (hkept x (F.kept_of_spared x hx)).1 fun he => hup (he ▸ hx)
  refine ⟨h', fun x hx _ => hsame x hx, fun x hx => ?_, fun x hx => ?_⟩
  · rw [children, hsame x hx, ← children]
  · rw [(hkept x hx).2]

end Stands

namespace Around

theorem mono (h : F.Around t) (hG : F.Encloses G) (hs : ∀ x, F.spared x → G.spared x) : G.Around t where
  whole := h.whole
  inUse x hx := h.inUse x (hG.kept x hx)
  up x p hx hp := hs p (h.up x p (hG.kept x hx) hp)
  selects s x hsp htag hin := hs x (h.selects s x (hG.spared s hsp) htag hin)

/-- An edit of a node that is not spared leaves the fence standing. -/
theorem edited (h : F.Around t) (he : Edited t t' top gone) (htop : ¬ F.spared top) : F.Around t' := by
  have ht := h.whole.wellFormed
  have hstands := h.toStands.edited he htop
  have hstays := hstands.inUse
  refine ⟨hstands, fun s x hs htag hin => ?_⟩
  have hs' := F.kept_of_spared s hs
  have htag' : t.hasTag s "select" = true := by
    have hsame := (he.stays s (h.inUse s hs') ((he.inUse_iff (h.inUse s hs')).1 (hstays s hs'))).2.2
    rw [hasTag] at htag ⊢
    cases hold : t.element? s <;> cases hnew : t'.element? s <;> simp_all
  rcases hin.eq_or_up with rfl | ⟨y, hy, -⟩
  · exact hs
  have hx' := he.whole.wellFormed.inUse_of_parent? hy
  by_cases hx : t.InUse x
  · exact h.selects s x hs htag' ((he.inside_iff ht hx hx').1 hin)
  -- a new node is below the top of the edit, and this neither lies in a select that is spared nor around it
  obtain ⟨hxt, -⟩ := he.made x hx' hx
  have htop' := he.whole.wellFormed.inUse_of_inside hx' hxt
  have hold : t.InUse top := by
    by_contra hn
    exact (he.made top htop' hn).2 rfl
  rcases hxt.total hin with hts | hst
  · exact absurd (h.selects s top hs htag' ((he.inside_iff ht hold htop').1 hts)) htop
  · have hst' := (he.inside_iff ht (h.inUse s hs') (hstays s hs')).1 hst
    by_cases hne : s = top
    · exact absurd (hne ▸ hs) htop
    · exact absurd hs' (h.not_kept_of_below htop hst' hne)

/-- Elements outside of a fence may be written. -/
theorem rewrite (h : F.Around t) (hid : ¬ F.kept id) (hr : t.Rewrite id t') : F.Around t' ∧ F.Keeps t t' := by
  obtain ⟨gone, hedit⟩ := hr.edit h.whole.wellFormed
  have houtside : ∀ x, F.kept x → t.Outside id x ∧ x ≠ id := fun x hx =>
    ⟨⟨h.inUse x hx, fun hin => h.not_kept_of_inside hid hin.1 hx⟩, fun he => hid (he ▸ hx)⟩
  refine ⟨h.edited (hedit.edited h.whole) fun hs => hid (F.kept_of_spared id hs), fun x hx => ?_, fun x hx => ?_⟩
  · obtain ⟨hout, hne⟩ := houtside x (F.kept_of_spared x hx)
    refine (hr.kept h.whole hout hne).1 fun hin => ?_
    by_contra htag
    exact hid (F.kept_of_spared id (h.selects x id hx (by simpa using htag) hin))
  · obtain ⟨hout, hne⟩ := houtside x hx
    exact (hr.kept h.whole hout hne).2

/-- Children may come to nodes that are not spared, and go from them. -/
theorem relist (h : F.Around t) (hup : ¬ F.spared up) (hr : t.Relist up t') : F.Around t' ∧ F.Keeps t t' := by
  obtain ⟨gone, hedit⟩ := hr.edit h.whole.wellFormed
  have h' := h.edited (hedit.edited h.whole) hup
  have hkept : ∀ x, F.kept x → (x ≠ up → t'.get? x = t.get? x) ∧ t'.element? x = t.element? x := fun x hx =>
    hr.kept h.whole (h.inUse x hx) (h'.inUse x hx)
  refine ⟨h', fun x hx => ?_, fun x hx => ?_⟩
  · exact (hkept x (F.kept_of_spared x hx)).1 fun he => hup (he ▸ hx)
  · rw [(hkept x hx).2]

end Around

end Fence

end ViewBinding.Tree
