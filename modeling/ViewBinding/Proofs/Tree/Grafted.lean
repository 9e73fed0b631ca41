import ViewBinding.Proofs.Document.Dump
import ViewBinding.Proofs.Tree.Copied
import ViewBinding.Proofs.Tree.Stable

/-! Copies of the nodes of one tree in another one. The copies are appended one at a time, and each parent lists its children
as they come; in the end the tree is the one in which the same content has been placed at once. -/
namespace ViewBinding.Tree

open Branch

variable {t : Tree} {used : List NodeId} {id p : NodeId} {f g : Slot → Slot}

theorem modify_modify (t : Tree) (id : NodeId) (hf : ∀ s, (f s).generation = s.generation) :
    (t.modify id f).modify id g = t.modify id fun s => g (f s) := by
  simp only [modify, Tree.mk.injEq, and_true]
  refine Array.ext_getElem? fun i => ?_
  simp only [Array.getElem?_modify]
  split
  · cases t.slots[i]? with
    | none => rfl
    | some s => by_cases h : s.generation = id.generation <;> simp [h, hf]
  · rfl

theorem modify_comm (t : Tree) (h : id.slot ≠ p.slot) (f g : Slot → Slot) :
    (t.modify id f).modify p g = (t.modify p g).modify id f := by
  simp only [modify, Tree.mk.injEq, and_true]
  refine Array.ext_getElem? fun i => ?_
  simp only [Array.getElem?_modify]
  by_cases hi : id.slot = i
  · simp [hi, show p.slot ≠ i from fun hp => h (hi.trans hp.symm)]
  · simp [hi]

/-- What a node is changed to matters for the node that is there only. -/
theorem modify_congr (h : ∀ s, t.get? id = some s → f s = g s) : t.modify id f = t.modify id g := by
  simp only [modify, Tree.mk.injEq, and_true]
  refine Array.ext_getElem? fun i => ?_
  simp only [Array.getElem?_modify]
  split
  · next hi =>
    subst hi
    cases hs : t.slots[id.slot]? with
    | none => rfl
    | some s =>
      by_cases hg : s.generation = id.generation
      · simp [hg, h s (by simp [get?, hs, hg])]
      · simp [hg]
  · rfl

theorem modify_eq_self (h : ∀ s, f s = s) : t.modify id f = t := by
  obtain ⟨slots, free, mutations⟩ := t
  simp only [modify, h, ite_self, Tree.mk.injEq, and_true]
  refine Array.ext_getElem? fun i => ?_
  simp [Array.getElem?_modify]

/-- Taking a slot does not depend on what is in the others. -/
theorem allocate_modify (h : t.Arena used) (hp : p ∈ used) (f : Slot → Slot) (parent : Option NodeId) (data : NodeData) :
    (t.modify p f).allocate parent data =
      ((t.allocate parent data).1, (t.allocate parent data).2.modify p f) := by
  have hlt : p.slot < t.slots.size := by
    obtain ⟨s, hs, -⟩ := isLive_iff.1 (h.live p hp)
    exact (Array.getElem?_eq_some_iff.1 hs).1
  have hfree := h.slot_notMem_free hp
  unfold allocate modify
  cases hcase : t.free with
  | nil =>
    simp only [Array.size_modify, Prod.mk.injEq, Tree.mk.injEq, and_true, true_and]
    refine Array.ext_getElem? fun i => ?_
    simp only [Array.getElem?_push, Array.getElem?_modify, Array.size_modify]
    by_cases hi : i = t.slots.size
    · simp [hi, hlt.ne]
    · simp [hi]
  | cons i free =>
    have hne : p.slot ≠ i := fun he => hfree (by simp [hcase, he])
    simp only [Array.getElem?_modify, hne, if_false, Prod.mk.injEq, Tree.mk.injEq, and_true, true_and]
    refine Array.ext_getElem? fun j => ?_
    simp only [Array.getElem?_setIfInBounds, Array.getElem?_modify, Array.size_modify]
    by_cases hj : i = j
    · subst hj
      simp [hne]
    · simp [hj]

mutual

/-- Placing markup does not depend on what is in the nodes that are there. -/
theorem place_modify (m : Markup) {t : Tree} {used : List NodeId} (h : t.Arena used) (hp : p ∈ used)
    (hf : ∀ s, (f s).generation = s.generation) (parent : Option NodeId) :
    (t.modify p f).place parent m = ((t.place parent m).1, (t.place parent m).2.modify p f) := by
  cases m with
  | text s => exact allocate_modify h hp f parent _
  | element e children =>
    obtain ⟨hgrown, -⟩ := allocate_spec h parent (.element e)
    have hne : (t.allocate parent (.element e)).1.slot ≠ p.slot := fun he => by
      have := hgrown.arena.eq_of_slot_eq (by simp) (by simp [hp]) he
      exact hgrown.fresh (List.mem_singleton_self _) (this ▸ hp)
    simp only [place]
    rw [allocate_modify h hp]
    dsimp only
    rw [placeAll_modify children hgrown.arena (by simp [hp]) hf]
    dsimp only
    rw [modify_comm _ hne.symm]

theorem placeAll_modify (ms : List Markup) {t : Tree} {used : List NodeId} (h : t.Arena used) (hp : p ∈ used)
    (hf : ∀ s, (f s).generation = s.generation) (parent : NodeId) :
    (t.modify p f).placeAll parent ms = ((t.placeAll parent ms).1, (t.placeAll parent ms).2.modify p f) := by
  cases ms with
  | nil => rfl
  | cons m rest =>
    obtain ⟨b, -, -, -, hgrown⟩ := place_spec m h (some parent)
    simp only [placeAll]
    rw [place_modify m h hp hf]
    dsimp only
    rw [placeAll_modify rest hgrown.arena (by simp [hp]) hf]

end

/--
Copies a node of another tree, and what is in it there, to the end of the children of a node. The calls may be nested to a depth
only. If it is not enough there is no result.
-/
def copyFrom (source : Tree) : Nat → NodeId → NodeId → Tree → ExceptT Error Option Tree
  | 0, _, _, _ => ExceptT.mk none
  | depth + 1, parent, id, t =>
    match source.get? id with
    | none => throw (.unknownNode id)
    | some s =>
      match s.data with
      | .document => throw .copyOfRoot
      | data =>
        let (copy, t) := t.appendNew parent data
        s.children.foldlM (fun t child => copyFrom source depth copy child t) t

/-- Replaces what is in an element by copies of what is in a document of its own, with as much depth as that has nodes. -/
def replaceInnerFrom (t : Tree) (id : NodeId) (fragment : Tree) : ExceptT Error Option Tree :=
  match t.element id "innerHTML" with
  | .error e => throw e
  | .ok _ => do
    let t ← (fragment.children root).foldlM (fun t child => copyFrom fragment fragment.slots.size id child t) (t.clear id)
    return t.touch

/-- Children that come one after the other. -/
theorem modify_append (t : Tree) (id : NodeId) (xs ys : List NodeId) :
    (t.modify id fun s => { s with children := s.children ++ xs }).modify id (fun s => { s with children := s.children ++ ys }) =
      t.modify id fun s => { s with children := s.children ++ (xs ++ ys) } := by
  refine (modify_modify t id ?_).trans ?_
  · exact fun _ => rfl
  · simp only [List.append_assoc]

mutual

/-- A copied node is placed as it reads, and its parent lists it. -/
theorem copyFrom_eq (m : Markup) {source t : Tree} {used : List NodeId} {up : Option NodeId} {parent : NodeId} {b : Branch}
    {depth : Nat} (hdepth : b.size ≤ depth) (hb : source.Holds up b) (hm : Spells m b) (h : t.Arena used)
    (hparent : parent ∈ used) : copyFrom source depth parent b.handle t = pure ((t.place (some parent) m).2.modify parent fun s =>
      { s with children := s.children ++ [(t.place (some parent) m).1] }) := by
  obtain ⟨depth, rfl⟩ := Nat.exists_eq_add_one.2 ((Branch.size_pos _).trans_le hdepth)
  cases m with
  | text s =>
    obtain ⟨id, rfl⟩ := hm
    rw [copyFrom, hb.get?]
    rfl
  | element e ms =>
    obtain ⟨id, cs, rfl, hcs⟩ := hm
    obtain ⟨hgrown, hget⟩ := allocate_spec h (some parent) (.element e)
    rw [copyFrom, hb.get?]
    simp only [data_node, children_node, appendNew, place]
    generalize t.allocate (some parent) (.element e) = made at hgrown hget
    obtain ⟨x, t₁⟩ := made
    simp only at hgrown hget ⊢
    have hne : x.slot ≠ parent.slot := fun he =>
      hgrown.fresh (List.mem_singleton_self x) (hgrown.arena.eq_of_slot_eq (by simp) (by simp [hparent]) he ▸ hparent)
    have hmod : ∀ s : Slot, ({ s with children := s.children ++ [x] } : Slot).generation = s.generation := fun _ => rfl
    have hin : parent ∈ [x] ++ used := by simp [hparent]
    have hdepths : ∀ c ∈ cs, c.size ≤ depth := fun c hc => Nat.le_of_lt_succ ((Branch.size_lt_of_mem hc).trans_le hdepth)
    rw [foldlM_copyFrom_eq ms hdepths (fun c hc => ⟨_, hb.child hc⟩) hcs (hgrown.arena.modify hin hmod)
      (List.mem_cons_self ..), placeAll_modify ms hgrown.arena hin hmod]
    dsimp only
    obtain ⟨bs, -, -, -, hmore⟩ := placeAll_spec ms hgrown.arena x
    -- the new node had no children, so those that are appended are all that it has
    rw [modify_comm _ hne.symm]
    refine congrArg (fun made => pure (Tree.modify made parent _)) (modify_congr fun s hs => ?_)
    rw [hmore.kept x (by simp), hget] at hs
    simp [← Option.some.inj hs]

theorem foldlM_copyFrom_eq (ms : List Markup) {source t : Tree} {used : List NodeId} {parent : NodeId} {bs : List Branch}
    {depth : Nat} (hdepth : ∀ b ∈ bs, b.size ≤ depth) (hbs : ∀ b ∈ bs, ∃ up, source.Holds up b) (hms : SpellsAll ms bs)
    (h : t.Arena used) (hparent : parent ∈ used) :
    (bs.map handle).foldlM (fun t child => copyFrom source depth parent child t) t =
      pure ((t.placeAll parent ms).2.modify parent fun s =>
        { s with children := s.children ++ (t.placeAll parent ms).1 }) := by
  cases ms with
  | nil =>
    obtain rfl : bs = [] := hms
    rw [List.map_nil, List.foldlM_nil, placeAll, modify_eq_self]
    simp
  | cons m ms =>
    obtain ⟨b, bs, rfl, hm, hms⟩ := hms
    obtain ⟨⟨up, hb⟩, hbs⟩ := List.forall_mem_cons.1 hbs
    obtain ⟨hfirst, hdepth⟩ := List.forall_mem_cons.1 hdepth
    obtain ⟨made, -, -, -, hgrown⟩ := place_spec m h (some parent)
    have hmod : ∀ s : Slot, ({ s with children := s.children ++ [(t.place (some parent) m).1] } : Slot).generation =
      s.generation := fun _ => rfl
    have hin : parent ∈ made.handles ++ used := by simp [hparent]
    rw [List.map_cons, List.foldlM_cons, copyFrom_eq m hfirst hb hm h hparent, pure_bind,
      foldlM_copyFrom_eq ms hdepth hbs hms (hgrown.arena.modify hin hmod) hin, placeAll_modify ms hgrown.arena hin hmod]
    dsimp only
    rw [modify_append]
    rfl

end

/-- Copying a fragment into an element is replacing what is in it by the content of the fragment. -/
theorem replaceInnerFrom_eq (ht : t.WellFormed) (id : NodeId) (content : List Markup) :
    t.replaceInnerFrom id (ofMarkup content) = ExceptT.mk (some (t.replaceInner id content)) := by
  unfold replaceInnerFrom replaceInner
  cases he : t.element id "innerHTML" with
  | error e => rfl
  | ok e =>
    have hid := ht.inUse_of_element? (element?_of_element he)
    obtain ⟨forest, hr⟩ := ht
    obtain ⟨sub, hsub, rfl⟩ := hr.exists_part hid
    obtain ⟨p, hp⟩ := hr.part hsub
    obtain ⟨rest, hperm⟩ := hr.exists_rest hsub
    obtain ⟨hself, harena, -⟩ := clear_spec hp (hr.arena.perm hperm)
    obtain ⟨cs, hspells, hfragment, -⟩ := represents_ofMarkup content
    have hroot := hfragment.holds _ (List.mem_singleton_self _)
    have hchildren : (ofMarkup content).children root = cs.map handle := hroot.children
    have hroots : Branch.node root .document cs ∈ [Branch.node root .document cs].flatMap Branch.parts := by simp
    have hdepth : ∀ c ∈ cs, c.size ≤ (ofMarkup content).slots.size := fun c hc =>
      (Branch.size_lt_of_mem hc).le.trans (hfragment.size_le hroots)
    dsimp only
    rw [hchildren, foldlM_copyFrom_eq content hdepth (fun c hc => ⟨_, hroot.child hc⟩) hspells harena
      (List.mem_cons_self ..)]
    obtain ⟨bs, -, -, -, hgrown⟩ := placeAll_spec content harena sub.handle
    rw [modify_congr (g := fun s => { s with children := ((t.clear sub.handle).placeAll sub.handle content).1 }) fun s hs => ?_]
    · rfl
    · rw [hgrown.kept _ (List.mem_cons_self ..), hself] at hs
      simp [← Option.some.inj hs]

end ViewBinding.Tree
