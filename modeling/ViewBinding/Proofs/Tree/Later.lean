import ViewBinding.Proofs.Tree.Control
import ViewBinding.Proofs.Tree.Edit

/-! Later states of a tree. A node that was in use is still there, below the same parent, or its slot has been
given back since. Whatever changes a tree can be followed step by step in these terms. -/
namespace ViewBinding

namespace Tree

open Branch

/-- The slot of a node has been given back at least once and at most once for each change since `since`. -/
def Expired (t : Tree) (since : Nat) (x : NodeId) : Prop :=
  ∃ k, 1 ≤ k ∧ since + k ≤ t.mutations ∧ t.generation x.slot = x.generation + UInt32.ofNat k

/-- Where a change may happen to nodes that stay. -/
structure Footprint where
  /-- Nodes that may get a new next sibling, and trees that may be attached. -/
  followed : NodeId → Prop
  /-- Nodes that may be taken away from their parent while the parent stays. -/
  removed : NodeId → Prop
  /-- Nodes that may get a new content. -/
  filled : NodeId → Prop
  /-- Nodes that may be put on record. -/
  recorded : NodeId → Prop
  /-- Nodes that may get listeners. -/
  heard : NodeId → Prop
  /-- Attributes that may be written. -/
  written : NodeId → String → Prop

namespace Footprint

/-- Everything may happen, but only new nodes are put on record. -/
def any : Footprint where
  followed _ := True
  removed _ := True
  filled _ := True
  recorded _ := False
  heard _ := True
  written _ _ := True

/-- Everything may happen, but only new nodes are put on record and get listeners. -/
def all : Footprint := { any with heard := fun _ => False }

/-- Trees may be attached behind a node, and options may be marked as the selected ones. -/
def behind (anchor : NodeId) : Footprint where
  followed x := x = anchor
  removed _ := False
  filled _ := False
  recorded _ := False
  heard _ := False
  written _ name := name = "selected"

structure Le (F G : Footprint) : Prop where
  followed : ∀ x, F.followed x → G.followed x
  removed : ∀ x, F.removed x → G.removed x
  filled : ∀ x, F.filled x → G.filled x
  recorded : ∀ x, F.recorded x → G.recorded x
  heard : ∀ x, F.heard x → G.heard x
  written : ∀ x name, F.written x name → G.written x name

instance : LE Footprint := ⟨Le⟩

end Footprint

/-- A later state of a tree: what has not happened within the footprint is as it was. -/
structure Later (F : Footprint) (t t' : Tree) : Prop where
  wellFormed : t'.WellFormed
  mutations_le : t.mutations ≤ t'.mutations
  generation : ∀ i, ∃ k, t.mutations + k ≤ t'.mutations ∧
    t'.generation i = t.generation i + UInt32.ofNat k
  nodes : ∀ x, t.InUse x → t'.InUse x ∨ t'.Expired t.mutations x
  parent? : ∀ x, t.InUse x → t'.parent? x = t.parent? x ∨ (t.parent? x = none ∧ F.followed x) ∨
    t'.Expired t.mutations x
  /-- A run of siblings stays together. Behind its last node there may be new ones. -/
  siblings : ∀ p l, (∀ y ∈ l.dropLast, ¬ F.followed y) → (∀ y ∈ l, ¬ F.removed y) → l <:+: t.children p →
    l <:+: t'.children p ∨ ∀ y ∈ l, t'.Expired t.mutations y
  attrs : ∀ x name, t.InUse x → ¬ F.written x name →
    (t'.element? x).bind (·.attrs.get? name) = (t.element? x).bind (·.attrs.get? name) ∨
      t'.Expired t.mutations x
  elements : ∀ x, t.InUse x → t'.isElement x = t.isElement x ∨ t'.Expired t.mutations x
  /-- Below a node that gets no new content the children stay, if nothing happens to them. -/
  children : ∀ x, t.InUse x → ¬ F.filled x → (∀ y ∈ t.children x, ¬ F.followed y ∧ ¬ F.removed y) →
    t'.children x = t.children x ∨ t'.Expired t.mutations x
  /-- A node stays with its parent. -/
  stays : ∀ x p, t.parent? x = some p → ¬ F.removed x → ¬ F.filled p →
    t'.parent? x = some p ∨ t'.Expired t.mutations p

variable {F : Footprint} {t t' t'' : Tree}

theorem Expired.since_le {m m' : Nat} {x : NodeId} (h : t.Expired m x) (hm : m' ≤ m) : t.Expired m' x := by
  obtain ⟨k, hk, hle, hg⟩ := h
  exact ⟨k, hk, by omega, hg⟩

/-- A node whose slot has been given back is gone, unless the slot has gone through all its generations. -/
theorem Expired.not_isLive {m : Nat} {x : NodeId} (h : t.Expired m x) (hm : t.mutations < m + 2 ^ 32) :
    t.isLive x ≠ true := by
  intro hlive
  obtain ⟨k, hk, hle, hg⟩ := h
  rw [generation_of_isLive hlive] at hg
  have hzero : UInt32.ofNat k = 0 := by simpa using hg
  have hmod : k % 2 ^ 32 = 0 := by simpa using congrArg UInt32.toNat hzero
  omega

theorem Expired.not_inUse {m : Nat} {x : NodeId} (h : t.Expired m x) (hm : t.mutations < m + 2 ^ 32) :
    ¬ t.InUse x := fun hx => h.not_isLive hm hx.1

theorem Expired.touch {m : Nat} {x : NodeId} (h : t.Expired m x) : t.touch.Expired m x := by
  obtain ⟨k, hk, hle, hg⟩ := h
  exact ⟨k, hk, Nat.le_succ_of_le hle, hg⟩

namespace Later

theorem refl (h : t.WellFormed) : Later F t t where
  wellFormed := h
  mutations_le := le_rfl
  generation _ := ⟨0, by simp, by simp⟩
  nodes _ hx := .inl hx
  parent? _ _ := .inl rfl
  siblings _ _ _ _ hl := .inl hl
  attrs _ _ _ _ := .inl rfl
  elements _ _ := .inl rfl
  children _ _ _ _ := .inl rfl
  stays _ _ hp _ _ := .inl hp

theorem expired (h : Later F t t') {m : Nat} {x : NodeId} (hx : t.Expired m x) :
    t'.Expired m x := by
  obtain ⟨k, hk, hle, hg⟩ := hx
  obtain ⟨k', hle', hg'⟩ := h.generation x.slot
  refine ⟨k + k', by omega, by omega, ?_⟩
  rw [hg', hg, UInt32.ofNat_add, UInt32.add_assoc]

theorem trans (h : Later F t t') (h' : Later F t' t'') :
    Later F t t'' where
  wellFormed := h'.wellFormed
  mutations_le := h.mutations_le.trans h'.mutations_le
  generation i := by
    obtain ⟨k, hle, hg⟩ := h.generation i
    obtain ⟨k', hle', hg'⟩ := h'.generation i
    exact ⟨k + k', by omega, by rw [hg', hg, UInt32.ofNat_add, UInt32.add_assoc]⟩
  nodes x hx := by
    rcases h.nodes x hx with hx' | hx'
    · exact (h'.nodes x hx').imp_right fun hex => hex.since_le h.mutations_le
    · exact .inr (h'.expired hx')
  parent? x hx := by
    rcases h.nodes x hx with hx' | hex
    · rcases h.parent? x hx with hp | hp | hex
      · rcases h'.parent? x hx' with hp' | ⟨hnone, hf⟩ | hex
        · exact .inl (hp'.trans hp)
        · exact .inr (.inl ⟨hp ▸ hnone, hf⟩)
        · exact .inr (.inr (hex.since_le h.mutations_le))
      · exact .inr (.inl hp)
      · exact .inr (.inr (h'.expired hex))
    · exact .inr (.inr (h'.expired hex))
  siblings p l hf hr hin := by
    rcases h.siblings p l hf hr hin with hin' | hex
    · exact (h'.siblings p l hf hr hin').imp_right fun hex y hy => (hex y hy).since_le h.mutations_le
    · exact .inr fun y hy => h'.expired (hex y hy)
  attrs x name hx hw := by
    rcases h.nodes x hx with hx' | hex
    · rcases h.attrs x name hx hw with ha | hex
      · rcases h'.attrs x name hx' hw with ha' | hex
        · exact .inl (ha'.trans ha)
        · exact .inr (hex.since_le h.mutations_le)
      · exact .inr (h'.expired hex)
    · exact .inr (h'.expired hex)
  elements x hx := by
    rcases h.nodes x hx with hx' | hex
    · rcases h.elements x hx with he | hex
      · rcases h'.elements x hx' with he' | hex
        · exact .inl (he'.trans he)
        · exact .inr (hex.since_le h.mutations_le)
      · exact .inr (h'.expired hex)
    · exact .inr (h'.expired hex)
  children x hx hf hc := by
    rcases h.nodes x hx with hx' | hex
    · rcases h.children x hx hf hc with hsame | hex
      · rcases h'.children x hx' hf (hsame ▸ hc) with hsame' | hex
        · exact .inl (hsame'.trans hsame)
        · exact .inr (hex.since_le h.mutations_le)
      · exact .inr (h'.expired hex)
    · exact .inr (h'.expired hex)
  stays x p hp hr hf := by
    rcases h.stays x p hp hr hf with hp' | hex
    · exact (h'.stays x p hp' hr hf).imp_right fun hex => hex.since_le h.mutations_le
    · exact .inr (h'.expired hex)

theorem mono {G : Footprint} (h : Later F t t') (hle : F ≤ G) : Later G t t' :=
  { h with
    parent? := fun x hx =>
      (h.parent? x hx).imp_right fun hp => hp.imp_left fun hn => ⟨hn.1, hle.followed x hn.2⟩
    siblings := fun p l hf hr =>
      h.siblings p l (fun y hy hs => hf y hy (hle.followed y hs)) fun y hy hs => hr y hy (hle.removed y hs)
    attrs := fun x name hx hn => h.attrs x name hx fun hw => hn (hle.written x name hw)
    children := fun x hx hf hc => h.children x hx (fun hs => hf (hle.filled x hs)) fun y hy =>
      ⟨fun hs => (hc y hy).1 (hle.followed y hs), fun hs => (hc y hy).2 (hle.removed y hs)⟩
    stays := fun x p hp hr hf =>
      h.stays x p hp (fun hs => hr (hle.removed x hs)) fun hs => hf (hle.filled p hs) }

theorem touch (h : Later F t t') : Later F t t'.touch where
  wellFormed := by
    obtain ⟨forest, hr⟩ := h.wellFormed
    exact ⟨forest, hr.touch⟩
  mutations_le := Nat.le_succ_of_le h.mutations_le
  generation i := by
    obtain ⟨k, hle, hg⟩ := h.generation i
    exact ⟨k, Nat.le_succ_of_le hle, hg⟩
  nodes x hx := (h.nodes x hx).imp_right Expired.touch
  parent? x hx := (h.parent? x hx).imp_right fun hp => hp.imp_right Expired.touch
  siblings p l hf hr hin := (h.siblings p l hf hr hin).imp_right fun hex y hy => (hex y hy).touch
  attrs x name hx hw := (h.attrs x name hx hw).imp_right Expired.touch
  elements x hx := (h.elements x hx).imp_right Expired.touch
  children x hx hf hc := (h.children x hx hf hc).imp_right Expired.touch
  stays x p hp hr hf := (h.stays x p hp hr hf).imp_right Expired.touch

end Later

/-- A node with a parent that is still in use has the same parent. -/
theorem Later.parent?_eq_some (h : Later F t t') (hm : t'.mutations < t.mutations + 2 ^ 32) {x p : NodeId}
    (hx : t.InUse x) (hx' : t'.InUse x) (hp : t.parent? x = some p) : t'.parent? x = some p := by
  rcases h.parent? x hx with hsame | ⟨hnone, -⟩ | hex
  · exact hsame.trans hp
  · rw [hp] at hnone
    cases hnone
  · exact absurd hx' (hex.not_inUse hm)

/-- A handle that the tree has given out. -/
def Known (t : Tree) (x : NodeId) : Prop := t.InUse x ∨ t.Expired 0 x

theorem Later.known (h : Later F t t') {x : NodeId} (hx : t.Known x) : t'.Known x := by
  rcases hx with hx | hx
  · exact (h.nodes x hx).imp_right fun hex => hex.since_le (Nat.zero_le _)
  · exact .inr (h.expired hx)

/-- Writing attributes and live state keeps all nodes. -/
theorem Writes.later (h : Writes t t' F.written) (ht : t.WellFormed) : Later F t t' where
  wellFormed := h.wellFormed ht
  mutations_le := h.mutations_le
  generation i := ⟨0, h.mutations_le, by simp [h.generation]⟩
  nodes x hx := .inl ((h.inUse x).2 hx)
  parent? x _ := .inl (h.parent? x)
  siblings p l _ _ hl := .inl (by rwa [h.children])
  attrs x name _ hw := .inl (h.attrs x name hw)
  elements x _ := .inl (h.isElement x)
  children x _ _ _ := .inl (h.children x)
  stays x p hp _ _ := .inl (by rwa [h.parent?])

/-- What a node that a change passes by shows of it. -/
structure PassedBy (F : Footprint) (t t' : Tree) (x : NodeId) : Prop where
  inUse : t'.InUse x
  parent? : t'.parent? x = t.parent? x ∨ t.parent? x = none ∧ F.followed x
  element? : t'.element? x = t.element? x
  siblings : ∀ l, (∀ y ∈ l.dropLast, ¬ F.followed y) → (∀ y ∈ l, ¬ F.removed y) → l <:+: t.children x →
    l <:+: t'.children x ∨ ∀ y ∈ l, t'.Expired t.mutations y
  children : ¬ F.filled x → (∀ y ∈ t.children x, ¬ F.followed y ∧ ¬ F.removed y) →
    t'.children x = t.children x

theorem PassedBy.of_get?_eq {x : NodeId} (hin : t'.InUse x) (h : t'.get? x = t.get? x) :
    PassedBy F t t' x where
  inUse := hin
  parent? := .inl (by rw [Tree.parent?, h, Tree.parent?])
  element? := by rw [Tree.element?, h, Tree.element?]
  siblings l _ _ hl := .inl (by rwa [Tree.children, h])
  children _ _ := by rw [Tree.children, h, Tree.children]

theorem later_of_passedBy (ht : t.WellFormed) (hw : t'.WellFormed) (hm : t.mutations ≤ t'.mutations)
    (hgen : ∀ i, ∃ k, t.mutations + k ≤ t'.mutations ∧
      t'.generation i = t.generation i + UInt32.ofNat k)
    (h : ∀ x, t.InUse x → PassedBy F t t' x ∨
      t'.Expired t.mutations x ∧ (∀ y ∈ t.children x, t'.Expired t.mutations y) ∧
        ∀ p, t.parent? x = some p → t'.Expired t.mutations p ∨ F.removed x ∨ F.filled p) :
    Later F t t' where
  wellFormed := hw
  mutations_le := hm
  generation := hgen
  nodes x hx := (h x hx).imp PassedBy.inUse And.left
  parent? x hx := by
    rcases h x hx with hp | ⟨hex, -⟩
    · exact hp.parent?.imp_right .inl
    · exact .inr (.inr hex)
  siblings p l hf hr hin := by
    rcases l.eq_nil_or_concat with rfl | ⟨_, y, rfl⟩
    · exact .inl List.nil_infix
    · have hy : t.parent? y = some p := ht.mem_children_iff.1 (hin.subset (by simp))
      rcases h p (ht.inUse_parent hy) with hp | ⟨-, hex⟩
      · exact hp.siblings _ hf hr hin
      · exact .inr fun z hz => hex.1 z (hin.subset hz)
  attrs x name hx _ := (h x hx).imp (fun hp => by rw [hp.element?]) And.left
  elements x hx := (h x hx).imp (fun hp => by rw [isElement, hp.element?, isElement]) And.left
  children x hx hf hc := (h x hx).imp (fun hp => hp.children hf hc) And.left
  stays x p hp hr hf := by
    rcases h x (ht.inUse_of_parent? hp) with hx | ⟨-, -, hup⟩
    · rcases hx.parent? with hsame | ⟨hnone, -⟩
      · exact .inl (hsame.trans hp)
      · rw [hp] at hnone
        cases hnone
    · exact .inr ((hup p hp).resolve_right fun ho => ho.elim hr hf)

theorem generation_add_le {gone : List NodeId}
    (hgen : ∀ i, t'.generation i = t.generation i + if i ∈ gone.map (·.slot) then 1 else 0)
    (hm : t.mutations + 1 ≤ t'.mutations) (i : Nat) :
    ∃ k, t.mutations + k ≤ t'.mutations ∧ t'.generation i = t.generation i + UInt32.ofNat k := by
  by_cases hi : i ∈ gone.map (·.slot)
  · exact ⟨1, hm, by rw [hgen, if_pos hi]; rfl⟩
  · exact ⟨0, by omega, by rw [hgen, if_neg hi]; rfl⟩

namespace Reshaped

variable {forest : List Branch} {old new : Branch} {gone : List NodeId}

theorem expired (h : Reshaped t t' forest old new gone) (hm : t.mutations + 1 ≤ t'.mutations) {x : NodeId}
    (hx : t.InUse x) (hgone : x ∈ gone) : t'.Expired t.mutations x := by
  refine ⟨1, le_rfl, hm, ?_⟩
  rw [h.generation, if_pos (List.mem_map_of_mem hgone), generation_of_isLive hx.1]
  rfl

theorem inUse_of_mem (h : Reshaped t t' forest old new gone) (hnd : (forest.flatMap handles).Nodup)
    {x : NodeId} (hx : x ∈ new.handles) : t'.InUse x := by
  obtain ⟨rest, hperm⟩ := exists_perm_of_mem_parts hnd h.mem
  exact h.represents.mem_handles_iff.1
    ((perm_replace hnd h.mem hperm new).mem_iff.2 (List.mem_append_left _ hx))

theorem inUse (h : Reshaped t t' forest old new gone) (hnd : (forest.flatMap handles).Nodup) {x : NodeId}
    (hx : x ∈ forest.flatMap handles) (hgone : x ∉ gone) : t'.InUse x := by
  obtain ⟨rest, hperm⟩ := exists_perm_of_mem_parts hnd h.mem
  refine h.represents.mem_handles_iff.1 ((perm_replace hnd h.mem hperm new).mem_iff.2 ?_)
  rcases List.mem_append.1 (hperm.mem_iff.1 hx) with hx | hx
  · exact List.mem_append_left _ (h.survive x hx hgone)
  · exact List.mem_append_right _ hx

/-- A node that is not given back keeps its data. -/
theorem element? (h : Reshaped t t' forest old new gone) {x : NodeId} (hx : x ∈ forest.flatMap handles)
    (hgone : x ∉ gone) : t'.element? x = t.element? x := by
  by_cases he : x = old.handle
  · subst he
    rw [h.held.element?, ← h.handle, h.holds.element?, h.data]
  · rw [Tree.element?, h.kept x hx he hgone, Tree.element?]

/-- A node that is not given back keeps its parent. -/
theorem parent? (h : Reshaped t t' forest old new gone) {x : NodeId} (hx : x ∈ forest.flatMap handles)
    (hgone : x ∉ gone) : t'.parent? x = t.parent? x := by
  by_cases he : x = old.handle
  · subst he
    exact h.handle ▸ h.holds.parent?
  · rw [Tree.parent?, h.kept x hx he hgone, Tree.parent?]

/-- A node that is not given back is passed by, if the node on top of the branch is. -/
theorem passedBy (h : Reshaped t t' forest old new gone) (hnd : (forest.flatMap handles).Nodup)
    {x : NodeId} (hx : x ∈ forest.flatMap handles) (hgone : x ∉ gone)
    (hsiblings : ∀ l, (∀ y ∈ l.dropLast, ¬ F.followed y) → (∀ y ∈ l, ¬ F.removed y) →
      l <:+: old.children.map Branch.handle →
        l <:+: new.children.map Branch.handle ∨ ∀ y ∈ l, t'.Expired t.mutations y)
    (hchildren : ¬ F.filled old.handle →
      (∀ y ∈ old.children.map Branch.handle, ¬ F.followed y ∧ ¬ F.removed y) →
        new.children.map Branch.handle = old.children.map Branch.handle) : PassedBy F t t' x := by
  have hin := h.inUse hnd hx hgone
  by_cases hxo : x = old.handle
  · subst hxo
    have hget := h.holds.get?
    rw [h.handle] at hget
    refine ⟨hin, .inl ?_, ?_, fun l hf hr hinfix => ?_, fun hf hc => ?_⟩
    · simp [Tree.parent?, hget]
    · simp [Tree.element?, hget, h.data, h.held.get?]
    · rw [h.held.children] at hinfix
      simpa [Tree.children, hget] using hsiblings l hf hr hinfix
    · rw [h.held.children] at hc ⊢
      simpa [Tree.children, hget] using hchildren hf hc
  · exact .of_get?_eq hin (h.kept x hx hxo hgone)

theorem touch (h : Reshaped t t' forest old new gone) : Reshaped t t'.touch forest old new gone :=
  { h with
    represents := h.represents.touch
    holds := h.holds.congr fun _ _ => rfl }

/-- What is below a branch that is given back is given back. -/
theorem later (h : Reshaped t t' forest old new gone) (hr : t.Represents forest)
    (hm : t.mutations + 1 ≤ t'.mutations)
    (hgone : ∀ x ∈ gone, x ∈ forest.flatMap handles ∧ (∀ y ∈ t.children x, y ∈ gone) ∧
      ∀ p, t.parent? x = some p → p ∈ gone ∨ F.removed x ∨ F.filled p)
    (hsiblings : ∀ l, (∀ y ∈ l.dropLast, ¬ F.followed y) → (∀ y ∈ l, ¬ F.removed y) →
      l <:+: old.children.map Branch.handle → l <:+: new.children.map Branch.handle ∨ ∀ y ∈ l, y ∈ gone)
    (hchildren : ¬ F.filled old.handle →
      (∀ y ∈ old.children.map Branch.handle, ¬ F.followed y ∧ ¬ F.removed y) →
        new.children.map Branch.handle = old.children.map Branch.handle) : Later F t t' := by
  have hw : t.WellFormed := ⟨forest, hr⟩
  have hex : ∀ x ∈ gone, t'.Expired t.mutations x := fun x hx =>
    h.expired hm (hr.mem_handles_iff.1 (hgone x hx).1) hx
  refine later_of_passedBy hw ⟨_, h.represents⟩ (by omega) (generation_add_le h.generation hm)
    fun x hx => ?_
  by_cases hxg : x ∈ gone
  · refine .inr ⟨hex x hxg, fun y hy => hex y ((hgone x hxg).2.1 y hy), fun p hp => ?_⟩
    exact ((hgone x hxg).2.2 p hp).imp_left (hex p)
  · refine .inl (h.passedBy hr.nodup (hr.mem_handles_iff.2 hx) hxg (fun l hfl hrl hin => ?_) hchildren)
    exact (hsiblings l hfl hrl hin).imp_right fun hl y hy => hex y (hl y hy)

end Reshaped

/-- Whatever is below a part of a forest is so with its children, and with its parent unless it is on top. -/
theorem Represents.children_mem {forest bs : List Branch} (h : t.Represents forest)
    (hbs : ∀ b ∈ bs, b ∈ forest.flatMap parts) {x : NodeId} (hx : x ∈ bs.flatMap handles) :
    x ∈ forest.flatMap handles ∧ (∀ y ∈ t.children x, y ∈ bs.flatMap handles) ∧
      (x ∈ bs.map Branch.handle ∨ ∀ p, t.parent? x = some p → p ∈ bs.flatMap handles) := by
  obtain ⟨b, hb, hxb⟩ := List.mem_flatMap.1 hx
  obtain ⟨sub, hsub, rfl⟩ := List.mem_map.1 hxb
  have hmem : sub ∈ forest.flatMap parts := by
    obtain ⟨top, htop, hbt⟩ := List.mem_flatMap.1 (hbs b hb)
    exact List.mem_flatMap.2 ⟨top, htop, parts_trans hsub hbt⟩
  refine ⟨handles_subset hmem sub.handle_mem_handles, fun y hy => ?_, ?_⟩
  · obtain ⟨q, hq⟩ := h.part hmem
    rw [hq.children] at hy
    obtain ⟨c, hc, rfl⟩ := List.mem_map.1 hy
    exact List.mem_flatMap.2 ⟨b, hb,
      List.mem_map_of_mem (parts_trans (mem_parts_of_mem_children hc) hsub)⟩
  · rcases eq_or_mem_children hsub with rfl | ⟨mid, hmid, hc⟩
    · exact .inl (List.mem_map_of_mem hb)
    · refine .inr fun p hp => ?_
      obtain ⟨q, hq⟩ := h.part (hbs b hb)
      obtain ⟨q', hq'⟩ := hq.part hmid
      rw [(hq'.child hc).parent?] at hp
      cases hp
      exact List.mem_flatMap.2 ⟨b, hb, List.mem_map_of_mem hmid⟩

/-- Replacing what is in a node removes all that was in it. -/
theorem later_refill (ht : t.WellFormed) {id : NodeId} (hid : t.InUse id) (hf : F.filled id)
    (ms : List Markup) : Later F t ((t.clear id).fill id ms).touch := by
  obtain ⟨forest, h⟩ := ht
  obtain ⟨sub, hsub, rfl⟩ := h.exists_part hid
  obtain ⟨cs, -, hr, hmut⟩ := refill_spec h hsub ms
  refine hr.touch.later h (by simp [Tree.touch, hmut]) (fun x hx => ?_) (fun l _ _ hin => .inr fun y hy => ?_)
    fun hn _ => absurd hf hn
  · obtain ⟨hmem, hchildren, hup⟩ := h.children_mem (fun b hb => Represents.child_mem_parts hsub hb) hx
    refine ⟨hmem, hchildren, fun p hp => ?_⟩
    rcases hup with htop | hup
    · obtain ⟨q, hq⟩ := h.part hsub
      obtain ⟨b, hb, rfl⟩ := List.mem_map.1 htop
      rw [(hq.child hb).parent?] at hp
      cases hp
      exact .inr (.inr hf)
    · exact .inl (hup p hp)
  · obtain ⟨b, hb, rfl⟩ := List.mem_map.1 (hin.subset hy)
    exact List.mem_flatMap.2 ⟨b, hb, b.handle_mem_handles⟩

/-- Removing a child removes all that is in it; the child is a site. -/
theorem later_remove (ht : t.WellFormed) {id p : NodeId} (hp : t.parent? id = some p) (hs : F.removed id)
    (h : t.remove id = .ok t') : Later F t t' := by
  obtain ⟨forest, hr⟩ := ht
  obtain ⟨d, pre, post, sub, rfl, hreshaped, hmut⟩ := remove_spec hr hp h
  refine hreshaped.later hr (by omega) (fun x hx => ?_) (fun l _ hl hin => .inl ?_)
    fun _ hc => absurd hs (hc sub.handle (by simp)).2
  · have hsub : sub ∈ forest.flatMap parts := Represents.child_mem_parts hreshaped.mem (by simp)
    have hbs : ∀ b ∈ [sub], b ∈ forest.flatMap parts := by simpa using hsub
    obtain ⟨hmem, hchildren, hup⟩ := hr.children_mem hbs (x := x) (by simpa using hx)
    refine ⟨hmem, by simpa using hchildren, fun p hp => ?_⟩
    rcases hup with htop | hup
    · obtain rfl : x = sub.handle := by simpa using htop
      exact .inr (.inl hs)
    · exact .inl (by simpa using hup p hp)
  · have hnd := hr.nodup_of_mem_parts hreshaped.mem
    rw [handles_node] at hnd
    rw [children_node, ← filter_ne_handle (nodup_map_handle (List.nodup_cons.1 hnd).2)]
    have hkeep : l.filter (· != sub.handle) = l :=
      List.filter_eq_self.2 fun y hy => bne_iff_ne.2 fun he => hl y hy (he ▸ hs)
    exact hkeep ▸ hin.filter _

/-- All that is in a removed node is given back. -/
theorem expired_of_remove (ht : t.WellFormed) {id p x : NodeId} (hp : t.parent? id = some p)
    (h : t.remove id = .ok t') (hx : x ∈ t.preorder id) : t'.Expired t.mutations x := by
  obtain ⟨forest, hr⟩ := ht
  obtain ⟨d, pre, post, sub, rfl, hreshaped, hmut⟩ := remove_spec hr hp h
  have hsub : sub ∈ forest.flatMap parts := Represents.child_mem_parts hreshaped.mem (by simp)
  rw [hr.preorder hsub] at hx
  exact hreshaped.expired (by omega) (hr.inUse_of_mem hsub hx) hx

theorem later_place (ht : t.WellFormed) (m : Markup) : Later F t (t.place none m).2 := by
  have hw := ht
  obtain ⟨forest, h⟩ := ht
  obtain ⟨b, -, -, hr, hkept, -, hgen, hmut⟩ := place_none_spec h m
  refine later_of_passedBy hw ⟨_, hr⟩ hmut.ge (fun i => ⟨0, hmut.ge, by simp [hgen]⟩) fun x hx => .inl ?_
  refine .of_get?_eq (hr.mem_handles_iff.1 ?_) (hkept x hx)
  exact List.mem_append_right _ (h.mem_handles_iff.2 hx)

theorem later_copy (ht : t.WellFormed) {id c : NodeId} (h : t.copy id = .ok (c, t')) : Later F t t' := by
  unfold copy at h
  split at h
  · cases h
  · split at h
    · cases h
    · next m rest _ _ =>
      have := later_place (F := F) ht m
      rwa [Except.ok.inj h] at this
    · cases h

theorem prefix_insertBehind {target child : NodeId} {l xs : List NodeId} (ht : target ∉ l.dropLast)
    (h : l <+: xs) : l <+: insertBehind target child xs := by
  induction xs generalizing l with
  | nil => exact h
  | cons x xs ih =>
    obtain _ | ⟨y, _ | ⟨z, l⟩⟩ := l
    · exact List.nil_prefix
    · obtain ⟨rfl, -⟩ := List.cons_prefix_cons.1 h
      rw [insertBehind]
      split <;> exact List.cons_prefix_cons.2 ⟨rfl, List.nil_prefix⟩
    · obtain ⟨rfl, hl⟩ := List.cons_prefix_cons.1 h
      rw [List.dropLast_cons_cons, List.mem_cons, not_or] at ht
      rw [insertBehind, if_neg (Ne.symm ht.1)]
      exact List.cons_prefix_cons.2 ⟨rfl, ih ht.2 hl⟩

/-- A run of siblings stays together unless the target is in it and not the last. -/
theorem infix_insertBehind {target child : NodeId} {l xs : List NodeId} (ht : target ∉ l.dropLast)
    (h : l <:+: xs) : l <:+: insertBehind target child xs := by
  induction xs with
  | nil => exact h
  | cons x xs ih =>
    rcases List.infix_cons_iff.1 h with h | h
    · exact (prefix_insertBehind ht h).isInfix
    · rw [insertBehind]
      split
      · exact h.trans (List.suffix_append [x, child] xs).isInfix
      · exact (ih h).trans (List.suffix_cons x _).isInfix

/-- Attaching a tree of the forest keeps all nodes; the node in front of it is a site. -/
theorem later_insertAfter {c : Branch} {forest : List Branch} (h : t.Represents (c :: forest))
    (hroot : c.handle ≠ root) {target : NodeId} (hs : F.followed target) (hc : F.followed c.handle)
    (ht : t.insertAfter target c.handle = .ok t') : Later F t t' := by
  obtain ⟨p, d, pre, post, tb, rfl, -, hr, hchild, hbelow, hmut⟩ := insertAfter_spec h hroot ht
  have hnd := h.nodup
  rw [List.flatMap_cons] at hnd
  have hndf := (List.nodup_append.1 hnd).2.1
  have hwf : t'.WellFormed := ⟨_, hr.represents⟩
  refine later_of_passedBy ⟨_, h⟩ hwf (by omega) (fun i => ⟨0, by omega, by simp [hr.generation]⟩)
    fun x hx => .inl ?_
  have hmem := h.mem_handles_iff.2 hx
  rw [List.flatMap_cons, List.mem_append] at hmem
  rcases hmem with hxc | hxf
  · have hin : t'.InUse x := hr.inUse_of_mem hndf (by simp [hxc])
    by_cases hx' : x = c.handle
    · subst hx'
      have hheld := h.holds c (by simp)
      rw [hheld.get?, Option.map_some] at hchild
      refine ⟨hin, .inr ⟨hheld.parent?, hc⟩, ?_, fun l _ _ hl => .inl ?_, fun _ _ => ?_⟩
      · rw [hheld.element?, Tree.element?, hchild]
        rfl
      · rw [hheld.children] at hl
        simpa [Tree.children, hchild] using hl
      · rw [hheld.children]
        simp [Tree.children, hchild]
    · exact .of_get?_eq hin (hbelow x hxc hx')
  · refine hr.passedBy hndf hxf List.not_mem_nil (fun l hl _ hin => .inl ?_)
      fun _ hc => absurd hs (hc tb.handle (by simp)).1
    have hnodup : ((pre ++ tb :: post).map Branch.handle).Nodup := by
      have hold := hnd.sublist ((splicesAt_sublist hndf hr.mem).trans (List.sublist_append_right ..))
      rw [handles_node] at hold
      exact nodup_map_handle (List.nodup_cons.1 hold).2
    rw [children_node, ← insertBehind_map_handle hnodup]
    exact infix_insertBehind (fun hm => hl _ hm hs) hin

theorem later_replaceInner (ht : t.WellFormed) {id : NodeId} (hf : F.filled id) {ms : List Markup}
    (h : t.replaceInner id ms = .ok t') : Later F t t' := by
  simp only [replaceInner, Except.bind, bind] at h
  split at h
  · cases h
  · next e he =>
    cases h
    exact later_refill ht (ht.inUse_of_element? (element?_of_element he)) hf ms

theorem later_setTextContent (ht : t.WellFormed) {id : NodeId} (hf : F.filled id) {text : String}
    (h : t.setTextContent id text = .ok t') : Later F t t' := by
  simp only [setTextContent, Except.bind, bind] at h
  split at h
  · cases h
  · next e he =>
    cases h
    exact later_refill ht (ht.inUse_of_element? (element?_of_element he)) hf _

theorem later_setInnerMarkup (ht : t.WellFormed) {id : NodeId} (hf : F.filled id) {markup : String}
    (h : t.setInnerMarkup id markup = .ok t') : Later F t t' := by
  unfold setInnerMarkup at h
  split at h
  · split at h
    · cases h
      exact .refl ht
    · exact later_setTextContent ht hf h
  · simp only [Except.bind, bind] at h
    split at h
    · cases h
    · split at h
      · cases h
        exact .refl ht
      · exact later_replaceInner ht hf h

end Tree

/-- The attribute that a property writes beside live state and content. -/
def Property.attribute? : Property → Option String
  | .checked => some "checked"
  | .disabled => some "disabled"
  | .readOnly => some "readonly"
  | .required => some "required"
  | .hidden => some "hidden"
  | .className => some "class"
  | .id => some "id"
  | .value | .textContent | .innerHtml => none

/-- Whether writing a property replaces what is in the element. -/
def Property.isContent : Property → Bool
  | .textContent | .innerHtml => true
  | _ => false

namespace Tree

variable {F : Footprint} {t t' : Tree}

theorem later_write (p : Property) {h : Heap} (ht : t.WellFormed) {id : NodeId} {v : Value}
    (hselected : ∀ x, F.written x "selected") (hown : ∀ name ∈ p.attribute?, F.written id name)
    (hf : p.isContent = true → F.filled id) (hw : p.write h t id v = .ok t') : Later F t t' := by
  have hflag : ∀ {flag : Markup.Flag} {on : Bool}, p.attribute? = some flag.attribute →
      t.setFlag id flag on = .ok t' → Later F t t' := fun hp hset =>
    ((writes_setFlag ht hset).mono fun x n hx => by
      rw [hx.1, hx.2]; exact hown _ hp).later ht
  have hattr : ∀ {name value : String}, p.attribute? = some name → Text.asciiLower name = name →
      t.setAttr id name value = .ok t' → Later F t t' := fun hp hlow hset =>
    ((writes_setAttr ht hset).mono fun x n hx => by
      rw [hx.1, hx.2, hlow]; exact hown _ hp).later ht
  cases p with
  | checked => exact hflag rfl hw
  | disabled => exact hflag rfl hw
  | readOnly => exact hflag rfl hw
  | required => exact hflag rfl hw
  | value =>
    refine ((writes_setValue ht hw).mono fun x n hx => ?_).later ht
    rw [hx]
    exact hselected x
  | hidden =>
    simp only [Property.write] at hw
    split at hw
    · exact hattr rfl (by decide +kernel) hw
    · refine ((writes_removeAttr ht hw).mono fun x n hx => ?_).later ht
      rw [hx.1, hx.2, show Text.asciiLower "hidden" = "hidden" by decide +kernel]
      exact hown _ rfl
  | textContent =>
    simp only [Property.write] at hw
    split at hw
    · cases hw
      exact .refl ht
    · exact later_setTextContent ht (hf rfl) hw
  | innerHtml => exact later_setInnerMarkup ht (hf rfl) hw
  | className => exact hattr rfl (by decide +kernel) hw
  | id => exact hattr rfl (by decide +kernel) hw

end Tree

end ViewBinding
