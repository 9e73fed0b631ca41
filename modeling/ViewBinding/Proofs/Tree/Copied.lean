import Mathlib.Data.PFun
import ViewBinding.Proofs.Tree.Whole

/-! Copies made node by node. The nodes of a copy are appended to each other one at a time, in the same arena and with a list
of nodes whose children are still to be copied. A copy has the shape and the data of what is copied, and its nodes are new. -/
namespace ViewBinding

namespace Branch

mutual

/-- The second branch has the shape of the first one, and the same data at each node. -/
def Copies : Branch → Branch → Prop
  | .node _ data cs, b => ∃ id cs', b = .node id data cs' ∧ CopiesAll cs cs'

def CopiesAll : List Branch → List Branch → Prop
  | [], bs => bs = []
  | c :: cs, bs => ∃ b bs', bs = b :: bs' ∧ Copies c b ∧ CopiesAll cs bs'

end

mutual

theorem Copies.content {a b : Branch} (h : Copies a b) : b.content = a.content := by
  cases a with
  | node id data cs =>
    obtain ⟨id', cs', rfl, hcs⟩ := h
    cases data <;> simp only [Branch.content, contentAll_eq, hcs.content]

theorem CopiesAll.content {as bs : List Branch} (h : CopiesAll as bs) :
    bs.flatMap Branch.content = as.flatMap Branch.content := by
  cases as with
  | nil =>
    obtain rfl : bs = [] := h
    rfl
  | cons a as =>
    obtain ⟨b, bs, rfl, hb, hbs⟩ := h
    rw [List.flatMap_cons, List.flatMap_cons, hb.content, hbs.content]

end

/-- What is to be seen of a node without its handle. -/
def outline (b : Branch) : NodeData × Nat := (b.data, b.children.length)

mutual

/-- A copy has the same nodes in document order, each with as many children. -/
theorem Copies.outlines {a b : Branch} (h : Copies a b) : b.parts.map outline = a.parts.map outline := by
  cases a with
  | node id data cs =>
    obtain ⟨id', cs', rfl, hcs⟩ := h
    obtain ⟨hlength, hbelow⟩ := hcs.outlines
    simp only [parts_node, List.map_cons, List.map_flatMap, hbelow, outline, data_node, children_node, hlength]

theorem CopiesAll.outlines {as bs : List Branch} (h : CopiesAll as bs) : bs.length = as.length ∧
    bs.flatMap (fun b => b.parts.map outline) = as.flatMap (fun a => a.parts.map outline) := by
  cases as with
  | nil =>
    obtain rfl : bs = [] := h
    exact ⟨rfl, rfl⟩
  | cons a as =>
    obtain ⟨b, bs, rfl, hb, hbs⟩ := h
    obtain ⟨hlength, hbelow⟩ := hbs.outlines
    exact ⟨congrArg (· + 1) hlength, by rw [List.flatMap_cons, List.flatMap_cons, hb.outlines, hbelow]⟩

end

end Branch

namespace Tree

open Branch

variable {t t' : Tree} {used : List NodeId} {forest : List Branch} {sub : Branch}

/-- A new node at the end of the children of another one. -/
def appendNew (t : Tree) (parent : NodeId) (data : NodeData) : NodeId × Tree :=
  let (id, t) := t.allocate (some parent) data
  (id, t.modify parent fun s => { s with children := s.children ++ [id] })

/-- Appends copies of nodes, without what is in them. Each is put on the list of those still to be done, with its copy. -/
def copyChildren (target : NodeId) : List NodeId → List (NodeId × NodeId) → Tree → List (NodeId × NodeId) × Tree
  | [], pending, t => (pending, t)
  | child :: children, pending, t =>
    match t.get? child with
    | none => copyChildren target children pending t
    | some s =>
      let (id, t) := t.appendNew target s.data
      copyChildren target children ((child, id) :: pending) t

/-- Copies what is in the node that was put on the list last, or ends if none is left. -/
def copyRound : List (NodeId × NodeId) × Tree → Tree ⊕ List (NodeId × NodeId) × Tree
  | ([], t) => .inl t
  | ((source, target) :: pending, t) => .inr (copyChildren target (t.children source) pending t)

/-- Copies what is in the nodes of a list, if that comes to an end. -/
def copyPending (pending : List (NodeId × NodeId)) (t : Tree) : Part Tree := (PFun.lift copyRound).fix (pending, t)

theorem copyPending_nil (t : Tree) : copyPending [] t = .some t := Part.eq_some_iff.2 (PFun.fix_stop (Part.mem_some _))

theorem copyPending_cons (source target : NodeId) (pending : List (NodeId × NodeId)) (t : Tree) :
    copyPending ((source, target) :: pending) t =
      copyPending (copyChildren target (t.children source) pending t).1 (copyChildren target (t.children source) pending t).2 :=
  PFun.fix_fwd_eq (Part.mem_some _)

/-- Copies a node and what is in it, with a list of pending nodes instead of a recursion. -/
def copyByList (t : Tree) (id : NodeId) : Part (Except Error (NodeId × Tree)) :=
  match t.get? id with
  | none => .some (.error (.unknownNode id))
  | some s =>
    match s.data with
    | .document => .some (.error .copyOfRoot)
    | data =>
      let (copy, t) := t.allocate none data
      (copyPending [(id, copy)] t).map fun t => .ok (copy, t)

/-- More nodes are added where other ones count as being there already. -/
theorem Grown.then {t₁ t₂ : Tree} {used₀ used₁ xs ys zs : List NodeId} (h : Grown t t₁ used₀ xs)
    (h' : Grown t₁ t₂ used₁ ys) (h₀ : used ⊆ used₀) (h₁ : used ⊆ used₁) (hperm : (ys ++ used₁).Perm (zs ++ used)) :
    Grown t t₂ used zs where
  arena := h'.arena.perm hperm
  kept x hx := (h'.kept x (h₁ hx)).trans (h.kept x (h₀ hx))
  generation i := (h'.generation i).trans (h.generation i)
  mutations := h'.mutations.trans h.mutations

/-- A new node at the end of the children of a node that is itself new. -/
theorem appendNew_spec {c : NodeId} {parent : Option NodeId} {ids : List NodeId} {d : NodeData}
    (hc : t.get? c = some ⟨c.generation, parent, ids, d⟩) (h : t.Arena (c :: used)) (data : NodeData) :
    Grown t (t.appendNew c data).2 used [c, (t.appendNew c data).1] ∧
      (t.appendNew c data).2.get? c = some ⟨c.generation, parent, ids ++ [(t.appendNew c data).1], d⟩ ∧
      (t.appendNew c data).2.Holds (some c) (.node (t.appendNew c data).1 data []) := by
  obtain ⟨hgrown, hget⟩ := allocate_spec h (some c) data
  unfold appendNew
  generalize t.allocate (some c) data = made at hgrown hget
  obtain ⟨id, t₁⟩ := made
  simp only at hgrown hget ⊢
  have hmod : ∀ s : Slot, ({ s with children := s.children ++ [id] } : Slot).generation = s.generation := fun _ => rfl
  have hne : id ≠ c := fun he => hgrown.fresh (List.mem_singleton_self id) (by simp [he])
  have hadded : Grown t t₁ used [c, id] :=
    ⟨hgrown.arena.perm (List.Perm.swap ..), fun x hx => hgrown.kept x (List.mem_cons_of_mem _ hx), hgrown.generation,
      hgrown.mutations⟩
  refine ⟨hadded.modify (by simp) hmod, ?_, holds_node.2 ⟨?_, by simp⟩⟩
  · rw [get?_modify_self t₁ c hmod, hgrown.kept c (by simp), hc]
    rfl
  · rw [get?_modify_of_ne t₁ hne hmod, hget]
    rfl

/-- Copies of nodes come to stand behind the children that are there, and wait for what is in them. -/
theorem copyChildren_spec {subs : List Branch} {p : Option NodeId} (hsubs : ∀ s ∈ subs, t.Holds p s)
    (hin : ∀ s ∈ subs, s.handles ⊆ used) {c : NodeId} {parent : Option NodeId} {ids : List NodeId} {d : NodeData}
    (hc : t.get? c = some ⟨c.generation, parent, ids, d⟩) (h : t.Arena (c :: used)) :
    ∃ (xs : List NodeId) (t' : Tree), (∀ pending, copyChildren c (subs.map handle) pending t =
        (((subs.map handle).zip xs).reverse ++ pending, t')) ∧
      List.Forall₂ (fun s x => t'.Holds (some c) (.node x s.data [])) subs xs ∧
      t'.get? c = some ⟨c.generation, parent, ids ++ xs, d⟩ ∧ Grown t t' used (c :: xs) := by
  induction subs generalizing t used ids with
  | nil =>
    refine ⟨[], t, fun _ => rfl, .nil, by simpa using hc, ?_⟩
    exact ⟨h, fun _ _ => rfl, fun _ => rfl, rfl⟩
  | cons s subs ih =>
    obtain ⟨hs, hsubs⟩ := List.forall_mem_cons.1 hsubs
    obtain ⟨hsin, hin⟩ := List.forall_mem_cons.1 hin
    obtain ⟨hgrown, hc₁, hx⟩ := appendNew_spec hc h s.data
    generalize hmade : t.appendNew c s.data = made at hgrown hc₁ hx
    obtain ⟨x, t₁⟩ := made
    simp only at hgrown hc₁ hx
    have hkept : ∀ b ∈ subs, t₁.Holds p b := fun b hb =>
      (hsubs b hb).congr fun y hy => hgrown.kept y (hin b hb hy)
    have hin' : ∀ b ∈ subs, b.handles ⊆ x :: used := fun b hb => List.subset_cons_of_subset _ (hin b hb)
    obtain ⟨xs, t', heq, hxs, hc', hgrown'⟩ := ih hkept hin' hc₁ hgrown.arena
    refine ⟨x :: xs, t', fun pending => ?_, .cons ?_ hxs, by simpa using hc', ?_⟩
    · rw [List.map_cons, copyChildren, hs.get?]
      simp [hmade, heq]
    · refine hx.congr fun y hy => hgrown'.kept y ?_
      simp only [handles_node, List.flatMap_nil, List.mem_singleton] at hy
      simp [hy]
    · exact hgrown.then hgrown' (List.Subset.refl _) (List.subset_cons_self ..) (List.perm_middle.cons c)

mutual

/-- A pending node gets copies of all that is in the node it has been copied from, and then is done. -/
theorem copyPending_spec (sub : Branch) {t : Tree} {used : List NodeId} {c : NodeId} {parent p : Option NodeId}
    (hsub : t.Holds p sub) (hin : sub.handles ⊆ used) (hc : t.Holds parent (.node c sub.data [])) (h : t.Arena (c :: used)) :
    ∃ (b : Branch) (t' : Tree), b.handle = c ∧ Copies sub b ∧ t'.Holds parent b ∧ Grown t t' used b.handles ∧
      ∀ pending, copyPending ((sub.handle, c) :: pending) t = copyPending pending t' := by
  cases sub with
  | node id data cs =>
    rw [handles_node] at hin
    have hcs : ∀ s ∈ cs, s.handles ⊆ used := fun s hs x hx =>
      hin (List.mem_cons_of_mem _ (List.mem_flatMap.2 ⟨s, hs, hx⟩))
    obtain ⟨xs, t₁, hstart, hxs, hc₁, hgrown⟩ := copyChildren_spec (fun s hs => hsub.child hs) hcs (holds_node.1 hc).1 h
    have hcs' : ∀ s ∈ cs, s.handles ⊆ c :: used := fun s hs => List.subset_cons_of_subset _ (hcs s hs)
    obtain ⟨bs, t₂, hbs, hcopies, hholds, hgrown', hloop⟩ := copyPendingAll_spec cs
      (fun s hs => (hsub.child hs).congr fun x hx => hgrown.kept x (hcs s hs hx)) hcs' hxs
      (hgrown.arena.perm List.perm_middle.symm)
    refine ⟨.node c data bs, t₂, rfl, ⟨c, bs, rfl, hcopies⟩, holds_node.2 ⟨?_, hholds⟩, ?_, fun pending => ?_⟩
    · rw [hgrown'.kept c (List.mem_cons_self ..), hc₁, hbs]
      rfl
    · rw [handles_node]
      exact hgrown.then hgrown' (List.Subset.refl _) (List.subset_cons_self ..) List.perm_middle
    · rw [copyPending_cons, hsub.children]
      exact (congrArg (fun r => copyPending r.1 r.2) (hstart pending)).trans (hloop pending)

theorem copyPendingAll_spec (subs : List Branch) {t : Tree} {used xs : List NodeId} {c : NodeId} {p : Option NodeId}
    (hsubs : ∀ s ∈ subs, t.Holds p s) (hin : ∀ s ∈ subs, s.handles ⊆ used)
    (hxs : List.Forall₂ (fun s x => t.Holds (some c) (.node x s.data [])) subs xs) (h : t.Arena (xs ++ used)) :
    ∃ (bs : List Branch) (t' : Tree), bs.map handle = xs ∧ CopiesAll subs bs ∧ (∀ b ∈ bs, t'.Holds (some c) b) ∧
      Grown t t' used (bs.flatMap handles) ∧
      ∀ pending, copyPending (((subs.map handle).zip xs).reverse ++ pending) t = copyPending pending t' := by
  cases subs with
  | nil =>
    obtain rfl := List.forall₂_nil_left_iff.1 hxs
    exact ⟨[], t, rfl, rfl, by simp, .refl h, fun _ => rfl⟩
  | cons s subs =>
    obtain _ | @⟨_, x, _, xs, hx, hxs⟩ := hxs
    obtain ⟨hs, hsubs⟩ := List.forall_mem_cons.1 hsubs
    obtain ⟨hsin, hin⟩ := List.forall_mem_cons.1 hin
    -- the last child is done first
    have hin' : ∀ s ∈ subs, s.handles ⊆ x :: used := fun s hs => List.subset_cons_of_subset _ (hin s hs)
    obtain ⟨bs, t₁, hbs, hcopies, hholds, hgrown, hloop⟩ :=
      copyPendingAll_spec subs hsubs hin' hxs (h.perm List.perm_middle.symm)
    have hkept : ∀ {p : Option NodeId} {b : Branch}, t.Holds p b → b.handles ⊆ x :: used → t₁.Holds p b := fun hb hin =>
      hb.congr fun y hy => hgrown.kept y (hin hy)
    have hsin' : s.handles ⊆ bs.flatMap handles ++ used := fun y hy => List.mem_append_right _ (hsin hy)
    obtain ⟨b, t₂, rfl, hcopy, hb, hgrown', hlast⟩ := copyPending_spec s
      (hkept hs (List.subset_cons_of_subset _ hsin)) hsin' (hkept hx (by simp)) (hgrown.arena.perm List.perm_middle)
    refine ⟨b :: bs, t₂, by rw [List.map_cons, hbs], ⟨b, bs, rfl, hcopy, hcopies⟩, ?_, ?_, fun pending => ?_⟩
    · refine List.forall_mem_cons.2 ⟨hb, fun b' hb' => (hholds b' hb').congr fun y hy => hgrown'.kept y ?_⟩
      exact List.mem_append_left _ (List.mem_flatMap.2 ⟨b', hb', hy⟩)
    · refine hgrown.then hgrown' (List.subset_cons_self ..) (List.subset_append_right ..) ?_
      rw [List.flatMap_cons, List.append_assoc]
    · rw [List.map_cons, List.zip_cons_cons, List.reverse_cons, List.append_assoc, hloop]
      exact hlast pending

end

/-- The data of a node that is there, and how many children it has. -/
def outline (t : Tree) (x : NodeId) : Option (NodeData × Nat) := (t.get? x).map fun s => (s.data, s.children.length)

theorem Represents.outlines (h : t.Represents forest) (hs : sub ∈ forest.flatMap parts) :
    (t.preorder sub.handle).map t.outline = (sub.parts.map Branch.outline).map some := by
  rw [h.preorder hs, handles, List.map_map, List.map_map]
  refine List.map_congr_left fun part hpart => ?_
  obtain ⟨p, hp⟩ := h.part hs
  obtain ⟨q, hq⟩ := hp.part hpart
  simp [Tree.outline, hq.get?, Branch.outline]

/-- A node and a copy of it, in a tree that has grown by the copy and is the same otherwise. -/
structure DeepCopy (t : Tree) (id : NodeId) (t' : Tree) (c : NodeId) : Prop where
  detached : t'.parent? c = none ∧ t'.isConnected c = false
  content : t'.content c = t.content id
  dump : t'.dump c = t.dump id
  nodup : (t'.preorder c).Nodup
  fresh : ∀ x ∈ t'.preorder c, ¬ t.InUse x
  inUse : ∀ x, t'.InUse x ↔ t.InUse x ∨ x ∈ t'.preorder c
  kept : ∀ x, t.InUse x → t'.get? x = t.get? x
  original : t'.preorder id = t.preorder id ∧ t'.content id = t.content id

/-- A branch that joins the forest, and has the content of one that is there, is a deep copy of it. -/
theorem Represents.deepCopy {b : Branch} (h : t.Represents forest) (hs : sub ∈ forest.flatMap parts)
    (h' : t'.Represents (b :: forest)) (hcontent : b.content = sub.content) (hkept : ∀ x, t.InUse x → t'.get? x = t.get? x)
    (hfresh : ∀ x ∈ b.handles, ¬ t.InUse x) : DeepCopy t sub.handle t' b.handle := by
  have hw' : t'.WellFormed := ⟨_, h'⟩
  have hb : b ∈ (b :: forest).flatMap parts := by simp [b.self_mem_parts]
  have hs' : sub ∈ (b :: forest).flatMap parts := by simp [hs]
  have hloose : t'.parent? b.handle = none := (h'.holds b (by simp)).parent?
  have hsame : t'.content b.handle = t.content sub.handle := by rw [h'.content hb, hcontent, h.content hs]
  refine ⟨⟨hloose, ?_⟩, hsame, congrArg Markup.writeAll hsame, hw'.nodup_preorder (h'.inUse_of_mem hb b.handle_mem_handles),
    ?_, fun x => ?_, hkept, ?_, ?_⟩
  · refine Bool.eq_false_iff.2 fun hconnected => ?_
    rcases (hw'.isConnected_iff_inside.1 hconnected).eq_or_up with hroot | ⟨up, hup, -⟩
    · exact hfresh _ b.handle_mem_handles (hroot ▸ WellFormed.inUse_root ⟨_, h⟩)
    · rw [hloose] at hup
      cases hup
  · rwa [h'.preorder hb]
  · rw [h'.preorder hb, ← h'.mem_handles_iff, List.flatMap_cons, List.mem_append, h.mem_handles_iff, or_comm]
  · rw [h'.preorder hs', h.preorder hs]
  · rw [h'.content hs', h.content hs]

/-- An element can be copied. -/
theorem WellFormed.exists_copy (ht : t.WellFormed) {id : NodeId} (hid : t.isElement id = true) :
    ∃ c t', t.copy id = .ok (c, t') ∧ DeepCopy t id t' c := by
  have hused := ht.inUse_of_isElement hid
  obtain ⟨forest, hr⟩ := ht
  obtain ⟨⟨id, data, cs⟩, hsub, rfl⟩ := hr.exists_part hused
  obtain ⟨p, hp⟩ := hr.part hsub
  rw [isElement, hp.element?] at hid
  obtain ⟨e, he⟩ : ∃ e, data = .element e := by
    cases data <;> simp_all [NodeData.element?]
  subst he
  have hcontent : t.content id = [.element e (contentAll cs)] := hr.content hsub
  obtain ⟨b, hb, hspells, hr', hkept, hfresh, -⟩ := place_none_spec hr (.element e (contentAll cs))
  refine ⟨b.handle, _, ?_, hr.deepCopy hsub hr' hspells.content hkept hfresh⟩
  have hget : t.get? id = some ⟨id.generation, p, cs.map handle, .element e⟩ := hp.get?
  simp only [Tree.copy, handle_node, hget, hcontent, ← hb]

/-- Copying with a list of pending nodes comes to an end and makes a deep copy, with the same nodes one by one. -/
theorem WellFormed.exists_copyByList (ht : t.WellFormed) {id : NodeId} (hid : t.isElement id = true) :
    ∃ c t', t.copyByList id = .some (.ok (c, t')) ∧ DeepCopy t id t' c ∧
      (t'.preorder c).map t'.outline = (t.preorder id).map t.outline := by
  have hused := ht.inUse_of_isElement hid
  obtain ⟨forest, hr⟩ := ht
  obtain ⟨sub, hsub, rfl⟩ := hr.exists_part hused
  obtain ⟨p, hp⟩ := hr.part hsub
  rw [isElement, hp.element?] at hid
  obtain ⟨hgrown, hget⟩ := allocate_spec hr.arena none sub.data
  have hin : sub.handles ⊆ forest.flatMap handles := Represents.handles_subset hsub
  obtain ⟨b, t', hb, hcopies, hholds, hgrown', hloop⟩ := copyPending_spec sub
    (hp.congr fun x hx => hgrown.kept x (hin hx)) hin (holds_node.2 ⟨hget, by simp⟩) hgrown.arena
  have htotal : Grown t t' (forest.flatMap handles) b.handles :=
    hgrown.then hgrown' (List.Subset.refl _) (List.Subset.refl _) (List.Perm.refl _)
  have hr' : t'.Represents (b :: forest) := by
    refine ⟨List.forall_mem_cons.2 ⟨hholds, fun f hf => ?_⟩, by simpa using htotal.arena, ?_⟩
    · exact (hr.holds f hf).congr fun x hx => htotal.kept x (List.mem_flatMap.2 ⟨f, hf, hx⟩)
    · exact hr.document.imp fun _ hf => ⟨List.mem_cons_of_mem _ hf.1, hf.2⟩
  refine ⟨b.handle, t', ?_, hr.deepCopy hsub hr' hcopies.content (fun x hx => htotal.kept x (hr.mem_handles_iff.2 hx))
    fun x hx hu => htotal.fresh hx (hr.mem_handles_iff.2 hu), ?_⟩
  · simp only [copyByList, hp.get?]
    cases hdata : sub.data with
    | document => simp [hdata, NodeData.element?] at hid
    | text s => simp [hdata, NodeData.element?] at hid
    | element e =>
      rw [hdata] at hloop hb
      simp only [hb, hloop, copyPending_nil, Part.map_some]
  · rw [hr'.outlines (by simp [b.self_mem_parts]), hcopies.outlines, hr.outlines hsub]

end Tree

end ViewBinding
