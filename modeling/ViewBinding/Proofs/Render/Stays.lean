import ViewBinding.Proofs.Render.ListsWork

/-! What a part of a pass leaves alone. A copy that is bound is changed within, and all else stays: the nodes with their places
and what is in them, who listens to them, and which of them are on record. -/
namespace ViewBinding

open ViewBinding.Tree

namespace Tree

variable {t : Tree} {c : NodeId}

/-- Everything that does not lie in a node is spared. -/
def fenceBeside (t : Tree) (c : NodeId) : Fence where
  spared x := t.InUse x ∧ ¬ t.Inside x c
  kept x := t.InUse x ∧ ¬ t.Inside x c
  kept_of_spared _ h := h

theorem stands_fenceBeside (ht : t.Whole) (c : NodeId) : (t.fenceBeside c).Stands t where
  whole := ht
  inUse _ hx := hx.1
  up _ _ hx hp := ⟨ht.wellFormed.inUse_parent hp, fun hin => hx.2 (.up hp hin)⟩

end Tree

namespace Pass

/--
A node is there afterwards as it was, apart from the children of `up`. Of a select, which follows its options, the attributes and
the children are.
-/
structure Stays (up : NodeId) (p q : Pass) (x : NodeId) : Prop where
  inUse : q.tree.InUse x
  parent? : q.tree.parent? x = p.tree.parent? x
  get? : x ≠ up → p.tree.hasTag x "select" = false → q.tree.get? x = p.tree.get? x
  children : x ≠ up → q.tree.children x = p.tree.children x
  attrs : (q.tree.element? x).map (·.attrs) = (p.tree.element? x).map (·.attrs)
  listeners : q.document.listeners.on x = p.document.listeners.on x
  recorded : x ∈ q.copies ↔ x ∈ p.copies

variable {F : Fence} {c id up x : NodeId} {p q r : Pass} {t : Tree}

namespace Stays

/-- Where document and records are the same, every node stays. -/
theorem of_document_eq (hx : p.tree.InUse x) (h : q.document = p.document) (hc : q.copies = p.copies) : Stays up p q x := by
  have htree : q.tree = p.tree := congrArg Document.tree h
  exact ⟨htree ▸ hx, by rw [htree], fun _ _ => by rw [htree], fun _ => by rw [htree], by rw [htree], by rw [h], by rw [hc]⟩

theorem trans (h : Stays up p q x) (h' : Stays up q r x) : Stays up p r x where
  inUse := h'.inUse
  parent? := h'.parent?.trans h.parent?
  get? hne htag := by
    have hsame := h.get? hne htag
    refine (h'.get? hne ?_).trans hsame
    rwa [hasTag, element?_eq_of_get?_eq hsame, ← hasTag]
  children hne := (h'.children hne).trans (h.children hne)
  attrs := h'.attrs.trans h.attrs
  listeners := h'.listeners.trans h.listeners
  recorded := h'.recorded.trans h.recorded

/-- It does not matter at which other node children may come and go. -/
theorem of_ne (h : Stays up p q x) (hne : x ≠ up) (up' : NodeId) : Stays up' p q x :=
  { h with get? := fun _ => h.get? hne, children := fun _ => h.children hne }

theorem attr? (h : Stays up p q x) (name : String) : q.tree.attr? x name = p.tree.attr? x name :=
  attr?_eq_of_attrs h.attrs name

theorem isElement (h : Stays up p q x) : q.tree.isElement x = p.tree.isElement x := by
  simpa [Tree.isElement] using congrArg Option.isSome h.attrs

theorem hasClass (h : Stays up p q x) (cls : String) : q.tree.hasClass x cls = p.tree.hasClass x cls := by
  have hof : ∀ t : Tree, t.hasClass x cls = ((t.element? x).map (·.attrs)).any fun attrs =>
      (Text.words Text.isBlank ((attrs.get? "class").getD "").toList).map String.ofList |>.contains cls := fun t => by
    rw [Tree.hasClass, Option.any_map]
    rfl
  rw [hof, h.attrs, ← hof]

/-- What works below a node leaves alone what is spared and does not lie there. -/
theorem of_works (h : Works F c p q) (hp : F.Stands p.tree) (hx : F.spared x) (hout : p.tree.Outside c x) : Stays up p q x where
  inUse := ((h.confined.outside x).2 hout).1
  parent? := h.confined.parent? x hout
  get? _ := (h.shelters hp).get? x hx
  children _ := (h.shelters hp).children x hx
  attrs := (h.shelters hp).attrs x (F.kept_of_spared x hx)
  listeners := h.deeds.listeners_on (F.kept_of_spared x hx)
  recorded := h.copies x (F.kept_of_spared x hx)

/-- When a child comes or goes, all other nodes stay. -/
theorem relist (hp : p.tree.Whole) (h : p.tree.Relist up t) (hx : p.tree.InUse x) (hx' : t.InUse x) :
    Stays up p (p.withTree t) x := by
  obtain ⟨gone, hedit⟩ := h.edit hp.wellFormed
  obtain ⟨hget, helement⟩ := h.kept hp hx hx'
  refine ⟨hx', (hedit.edited hp).parent?_eq hx hx', fun hne _ => hget hne, fun hne => ?_, ?_, rfl, .rfl⟩
  · rw [Pass.tree_withTree, Tree.children, hget hne, ← Tree.children]
  · rw [Pass.tree_withTree, helement]

/-- When an attribute is written, all other nodes stay. -/
theorem setAttr {name value : String} (hp : p.tree.Whole) (h : p.tree.setAttr id name value = .ok t) (hx : p.tree.InUse x)
    (hne : x ≠ id) : Stays up p (p.withTree t) x := by
  have hw := hp.wellFormed
  have hwrites := writes_setAttr hw h
  obtain ⟨hget, hattrs⟩ := kept_of_setAttr hw h hne
  refine ⟨(hwrites.inUse x).2 hx, hwrites.parent? x, fun _ htag => hget fun he => ?_, fun _ => hwrites.children x, hattrs, rfl,
    .rfl⟩
  rw [(inside_of_ancestorWithTag? he).2] at htag
  cases htag

theorem addClass {cls : String} (hp : p.tree.Whole) (h : p.tree.addClass id cls = .ok t) (hx : p.tree.InUse x) (hne : x ≠ id) :
    Stays up p (p.withTree t) x := by
  simp only [Tree.addClass, Except.bind, bind] at h
  split at h
  · cases h
  · split at h
    · cases h
      exact .of_document_eq hx rfl rfl
    · exact .setAttr hp h hx hne

/-- When a copy comes on record, all other nodes stay. -/
theorem record (hx : p.tree.InUse x) (hne : x ≠ c) : Stays up p { p with copies := c :: p.copies } x :=
  ⟨hx, rfl, fun _ _ => rfl, fun _ => rfl, rfl, rfl, by simp [hne]⟩

end Stays

end Pass

namespace View

open Pass

variable {v : View} {p : Pass} {c up x : NodeId}

/-- Binding a copy works below it, and spares what does not lie in it. -/
theorem works_bindCopy_fenceBeside (hp : p.tree.Whole) (hc : p.tree.InUse c)
    (hplain : p.tree.hasAttr c (v.attributeName .foreach) = false) (fuel : Nat) (item : ItemScope) :
    Works (p.tree.fenceBeside c) c p ((v.bindCopy (v.renderListWithin fuel) c item).exec p).2 :=
  works_bindCopy (worksList_renderListWithin _ v fuel) (stands_fenceBeside hp c) hc (fun hkept => hkept.2 (.refl _ c)) hplain item

/-- Binding a copy leaves alone what does not lie in it. -/
theorem stays_bindCopy (hp : p.tree.Whole) (hc : p.tree.InUse c) (hplain : p.tree.hasAttr c (v.attributeName .foreach) = false)
    (fuel : Nat) (item : ItemScope) (hx : p.tree.InUse x) (hout : ¬ p.tree.Inside x c) :
    Stays up p ((v.bindCopy (v.renderListWithin fuel) c item).exec p).2 x :=
  .of_works (works_bindCopy_fenceBeside hp hc hplain fuel item) (stands_fenceBeside hp c) ⟨hx, hout⟩
    ⟨hx, fun hin => hout hin.1⟩

end View

end ViewBinding
