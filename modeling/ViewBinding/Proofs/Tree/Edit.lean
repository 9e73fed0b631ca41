import ViewBinding.Proofs.Tree.Represents
import ViewBinding.Tree.Edit

/-! What the operations on the shape of a tree do to its forest. -/
namespace ViewBinding.Tree

open Branch

variable {t t' : Tree} {forest : List Branch} {sub : Branch} {used : List NodeId}

/--
The branch `old` of a forest has become `new`, and the nodes in `gone` have been given back. All other nodes
but the one on top of the branch are as they were.
-/
structure Reshaped (t t' : Tree) (forest : List Branch) (old new : Branch) (gone : List NodeId) : Prop where
  mem : old ∈ forest.flatMap parts
  data : new.data = old.data
  represents : t'.Represents (forest.map (Branch.replace old.handle new))
  held : t.Holds (t.parent? old.handle) old
  holds : t'.Holds (t.parent? old.handle) new
  handle : new.handle = old.handle
  survive : ∀ x ∈ old.handles, x ∉ gone → x ∈ new.handles
  kept : ∀ x ∈ forest.flatMap handles, x ≠ old.handle → x ∉ gone → t'.get? x = t.get? x
  generation : ∀ i, t'.generation i = t.generation i + if i ∈ gone.map (·.slot) then 1 else 0

theorem Shrunk.perm {gone gone' : List NodeId} (h : Shrunk t t' used gone) (hp : gone.Perm gone') :
    Shrunk t t' used gone' :=
  ⟨h.arena, h.kept, fun i => by rw [h.generation]; simp [(hp.map _).mem_iff], h.mutations⟩

/-- Filling a node that has no children adds branches below it. -/
theorem fill_spec (ms : List Markup) {id : NodeId} {parent : Option NodeId} {d : NodeData}
    (hid : t.get? id = some ⟨id.generation, parent, [], d⟩) (h : t.Arena (id :: used)) :
    ∃ cs : List Branch, SpellsAll ms cs ∧ (t.fill id ms).Holds parent (.node id d cs) ∧
      (t.fill id ms).Arena (id :: cs.flatMap handles ++ used) ∧
      (∀ x ∈ used, (t.fill id ms).get? x = t.get? x) ∧
      (∀ i, (t.fill id ms).generation i = t.generation i) ∧
      (t.fill id ms).mutations = t.mutations := by
  obtain ⟨cs, hids, hspells, hholds, hgrown⟩ := placeAll_spec ms h id
  simp only [fill]
  generalize t.placeAll id ms = made at hids hholds hgrown
  obtain ⟨ids, t₁⟩ := made
  simp only at hids hholds hgrown ⊢
  have hmod : ∀ s : Slot, ({ s with children := ids } : Slot).generation = s.generation := fun _ => rfl
  have hne : ∀ x ∈ cs.flatMap handles, x ≠ id := fun x hx he => hgrown.fresh hx (by simp [he])
  have hperm : (cs.flatMap handles ++ id :: used).Perm (id :: cs.flatMap handles ++ used) :=
    List.perm_middle
  refine ⟨cs, hspells, ?_, ?_, ?_, ?_, hgrown.mutations⟩
  · refine holds_node.2 ⟨?_, fun c hc => (hholds c hc).congr fun x hx => ?_⟩
    · rw [get?_modify_self t₁ id hmod, hgrown.kept id (by simp), hid, Option.map_some, hids]
    · exact get?_modify_of_ne t₁ (hne x (List.mem_flatMap.2 ⟨c, hc, hx⟩)) hmod
  · have hin : id ∈ cs.flatMap handles ++ id :: used := by simp
    exact (hgrown.arena.modify hin hmod).perm hperm
  · intro x hx
    have hxid : x ≠ id := fun he => (List.nodup_cons.1 h.nodup).1 (he ▸ hx)
    rw [get?_modify_of_ne t₁ hxid hmod]
    exact hgrown.kept x (List.mem_cons_of_mem _ hx)
  · intro i
    rw [generation_modify t₁ id hmod]
    exact hgrown.generation i

/-- Clearing a node takes away the branches below it. -/
theorem clear_spec {parent : Option NodeId} (hb : t.Holds parent sub) (h : t.Arena (sub.handles ++ used)) :
    (t.clear sub.handle).get? sub.handle = some ⟨sub.handle.generation, parent, [], sub.data⟩ ∧
      (t.clear sub.handle).Arena (sub.handle :: used) ∧
      (∀ x ∈ used, (t.clear sub.handle).get? x = t.get? x) ∧
      (∀ i, (t.clear sub.handle).generation i =
        t.generation i + if i ∈ (sub.children.flatMap handles).map (·.slot) then 1 else 0) ∧
      (t.clear sub.handle).mutations = t.mutations := by
  obtain ⟨id, d, cs⟩ := sub
  have hchildren : t.children id = cs.map handle := hb.children
  simp only [clear, hchildren, handle, Branch.children, Branch.data, handles_node] at h ⊢
  have hmod : ∀ s : Slot, ({ s with children := [] } : Slot).generation = s.generation := fun _ => rfl
  have hin : id ∈ id :: cs.flatMap handles ++ used := by simp
  have harena := (h.modify hin hmod).perm List.perm_middle.symm
  have hother : ∀ x ≠ id, (t.modify id fun s => { s with children := [] }).get? x = t.get? x :=
    fun x hx => get?_modify_of_ne t hx hmod
  have hnd := List.nodup_cons.1 h.nodup
  have hbelow : ∀ c ∈ cs, (t.modify id fun s => { s with children := [] }).Holds (some id) c := by
    intro c hc
    refine ((holds_node.1 hb).2 c hc).congr fun x hx => hother x fun he => hnd.1 (he ▸ ?_)
    exact List.mem_append_left _ (List.mem_flatMap.2 ⟨c, hc, hx⟩)
  have hshrunk := foldl_release_spec hbelow harena
  refine ⟨?_, hshrunk.arena, fun x hx => ?_, fun i => ?_, hshrunk.mutations⟩
  · rw [hshrunk.kept id (by simp), get?_modify_self t id hmod, (holds_node.1 hb).1]
    rfl
  · have hxid : x ≠ id := fun he => hnd.1 (he ▸ List.mem_append_right _ hx)
    rw [hshrunk.kept x (by simp [hx]), hother x hxid]
  · rw [hshrunk.generation, generation_modify t id hmod]
    congr

/-- Replacing what is in a node gives back the slots of all nodes below it. -/
theorem refill_spec (h : t.Represents forest) (hs : sub ∈ forest.flatMap parts) (ms : List Markup) :
    ∃ cs : List Branch, SpellsAll ms cs ∧
      Reshaped t ((t.clear sub.handle).fill sub.handle ms) forest sub (.node sub.handle sub.data cs)
        (sub.children.flatMap handles) ∧
      ((t.clear sub.handle).fill sub.handle ms).mutations = t.mutations := by
  obtain ⟨p, hp⟩ := h.part hs
  obtain ⟨rest, hperm⟩ := h.exists_rest hs
  obtain ⟨hself, harena, hkept, hgen, hmut⟩ := clear_spec hp (h.arena.perm hperm)
  obtain ⟨cs, hspells, hholds, harena', hkept', hgen', hmut'⟩ := fill_spec ms hself harena
  have hrest : ∀ x ∈ rest, ((t.clear sub.handle).fill sub.handle ms).get? x = t.get? x := fun x hx =>
    (hkept' x hx).trans (hkept x hx)
  have hsplit : ∀ x ∈ sub.handles, x ∉ sub.children.flatMap handles → x = sub.handle := by
    obtain ⟨id, d, cs⟩ := sub
    intro x hx hgone
    exact (List.mem_cons.1 (handles_node id d cs ▸ hx)).resolve_right hgone
  refine ⟨cs, hspells, ⟨hs, rfl, ?_, ?_, ?_, rfl, ?_, ?_, fun i => (hgen' i).trans (hgen i)⟩,
    hmut'.trans hmut⟩
  · refine h.replace hs hperm rfl rfl (fun q hq => ?_) hrest (by simpa using harena')
    rwa [← hp.parent?.symm.trans hq.parent?]
  · rwa [hp.parent?]
  · rwa [hp.parent?]
  · intro x hx hgone
    simp [hsplit x hx hgone]
  · intro x hx hne hgone
    refine hrest x ((List.mem_append.1 (hperm.mem_iff.1 hx)).resolve_left fun hxs => hne ?_)
    exact hsplit x hxs hgone

/-- Placing markup without a parent adds a branch to the forest. -/
theorem place_none_spec (h : t.Represents forest) (m : Markup) :
    ∃ b : Branch, (t.place none m).1 = b.handle ∧ Spells m b ∧
      (t.place none m).2.Represents (b :: forest) ∧
      (∀ x, t.InUse x → (t.place none m).2.get? x = t.get? x) ∧
      (∀ x ∈ b.handles, ¬ t.InUse x) ∧
      (∀ i, (t.place none m).2.generation i = t.generation i) ∧
      (t.place none m).2.mutations = t.mutations := by
  obtain ⟨b, hid, hspells, hholds, hgrown⟩ := place_spec m h.arena none
  refine ⟨b, hid, hspells, ⟨fun c hc => ?_, by simpa using hgrown.arena, ?_⟩, fun x hx => ?_,
    fun x hx hu => ?_, hgrown.generation, hgrown.mutations⟩
  · rcases List.mem_cons.1 hc with rfl | hc
    · exact hholds
    · exact (h.holds c hc).congr fun x hx => hgrown.kept x (List.mem_flatMap.2 ⟨c, hc, hx⟩)
  · exact h.document.imp fun _ hb => ⟨List.mem_cons_of_mem _ hb.1, hb.2⟩
  · exact hgrown.kept x (h.mem_handles_iff.2 hx)
  · exact hgrown.fresh hx (h.mem_handles_iff.2 hu)

/-- A copy is a branch of its own that reads like the node. -/
theorem copy_spec (h : t.Represents forest) {id c : NodeId} (hc : t.copy id = .ok (c, t')) :
    ∃ b : Branch, c = b.handle ∧ (∃ m, (t.content id).head? = some m ∧ Spells m b) ∧ t.isLive id = true ∧
      t'.Represents (b :: forest) ∧ (∀ x, t.InUse x → t'.get? x = t.get? x) ∧
      (∀ x ∈ b.handles, ¬ t.InUse x) ∧ (∀ i, t'.generation i = t.generation i) ∧
      t'.mutations = t.mutations := by
  unfold copy at hc
  split at hc
  · cases hc
  · next s hs =>
    split at hc
    · cases hc
    · next m rest hcontent _ =>
      obtain ⟨b, hb⟩ := place_none_spec h m
      simp only [Except.ok.injEq] at hc
      rw [hc] at hb
      exact ⟨b, hb.1, ⟨m, by simp [hcontent], hb.2.1⟩, by simp [isLive, hs], hb.2.2⟩
    · cases hc

theorem insertBehind_append {target child : NodeId} {pre post : List NodeId} (h : target ∉ pre) :
    insertBehind target child (pre ++ target :: post) = pre ++ target :: child :: post := by
  induction pre with
  | nil => simp [insertBehind]
  | cons y ys ih =>
    rw [List.mem_cons, not_or] at h
    simp [insertBehind, Ne.symm h.1, ih h.2]

theorem insertBehind_map_handle {pre post : List Branch} {tb : Branch}
    (h : ((pre ++ tb :: post).map Branch.handle).Nodup) (c : Branch) :
    insertBehind tb.handle c.handle ((pre ++ tb :: post).map Branch.handle) =
      (pre ++ tb :: c :: post).map Branch.handle := by
  simp only [List.map_append, List.map_cons] at h ⊢
  refine insertBehind_append fun hm => ?_
  exact (List.nodup_append.1 h).2.2 _ hm _ (List.mem_cons_self ..) rfl

/-- A tree without a parent is held below its new parent once both name each other. -/
theorem Holds.attach {c tb : Branch} {p : NodeId} {d : NodeData} {pre post : List Branch}
    {parent : Option NodeId} (h : t.Holds parent (.node p d (pre ++ tb :: post))) (hc : t.Holds none c)
    (hnd : (c.handles ++ handles (.node p d (pre ++ tb :: post))).Nodup)
    (hchild : t'.get? c.handle = (t.get? c.handle).map fun s => { s with parent := some p })
    (hparent : t'.get? p = (t.get? p).map fun s =>
      { s with children := insertBehind tb.handle c.handle s.children })
    (hother : ∀ x, x ≠ p → x ≠ c.handle → t'.get? x = t.get? x) :
    t'.Holds parent (.node p d (pre ++ tb :: c :: post)) := by
  obtain ⟨hndc, hndp, hapart⟩ := List.nodup_append.1 hnd
  rw [handles_node] at hndp hapart
  obtain ⟨hp, hcs⟩ := List.nodup_cons.1 hndp
  have hsibling : ∀ b ∈ pre ++ tb :: post, t'.Holds (some p) b := by
    intro b hb
    refine ((holds_node.1 h).2 b hb).congr fun x hx => hother x (fun he => hp ?_) fun he => ?_
    · exact he ▸ List.mem_flatMap.2 ⟨b, hb, hx⟩
    · refine hapart x (he ▸ c.handle_mem_handles) x (List.mem_cons_of_mem _ ?_) rfl
      exact List.mem_flatMap.2 ⟨b, hb, hx⟩
  refine holds_node.2 ⟨?_, fun b hb => ?_⟩
  · rw [hparent, (holds_node.1 h).1, Option.map_some, insertBehind_map_handle (nodup_map_handle hcs)]
  · rw [List.mem_append, List.mem_cons, List.mem_cons] at hb
    rcases hb with hb | rfl | rfl | hb
    · exact hsibling b (by simp [hb])
    · exact hsibling b (by simp)
    · obtain ⟨x, data, cs⟩ := b
      rw [handle_node] at hchild
      rw [handles_node] at hndc hapart
      refine holds_node.2 ⟨?_, fun e he => ((holds_node.1 hc).2 e he).congr fun y hy => hother y ?_ ?_⟩
      · rw [hchild, (holds_node.1 hc).1]
        rfl
      · refine hapart y (List.mem_cons_of_mem _ (List.mem_flatMap.2 ⟨e, he, hy⟩)) p ?_
        exact List.mem_cons_self ..
      · rintro rfl
        exact (List.nodup_cons.1 hndc).1 (List.mem_flatMap.2 ⟨e, he, hy⟩)
    · exact hsibling b (by simp [hb])

/-- Inserting a tree of the forest behind a node makes it the next sibling of that node. -/
theorem insertAfter_spec {c : Branch} (h : t.Represents (c :: forest)) (hroot : c.handle ≠ root)
    {target : NodeId} (ht : t.insertAfter target c.handle = .ok t') :
    ∃ p d pre post, ∃ tb : Branch, tb.handle = target ∧ t.parent? target = some p ∧
      Reshaped t t' forest (.node p d (pre ++ tb :: post)) (.node p d (pre ++ tb :: c :: post)) [] ∧
      t'.get? c.handle = (t.get? c.handle).map (fun s => { s with parent := some p }) ∧
      (∀ x ∈ c.handles, x ≠ c.handle → t'.get? x = t.get? x) ∧ t'.mutations = t.mutations + 1 := by
  have hw : t.WellFormed := ⟨_, h⟩
  have hloose : t.parent? c.handle = none := (h.holds c (by simp)).parent?
  have hcparts : c ∈ (c :: forest).flatMap parts := by simp [c.self_mem_parts]
  unfold insertAfter at ht
  split at ht
  · cases ht
  next p hp =>
    split_ifs at ht with hbad hcycle
    rw [unlink, hloose, Except.ok.injEq] at ht
    -- the parent of the target is not in the branch that is inserted
    have hpc : p ∉ c.handles := by
      rw [← h.preorder hcparts, hw.mem_preorder_iff (h.inUse_of_mem hcparts c.handle_mem_handles)]
      simpa using hcycle
    obtain ⟨tb, htb, rfl⟩ := h.exists_part (hw.inUse_of_parent? hp)
    obtain ⟨⟨p, d, cs⟩, hup, rfl, hin⟩ := h.exists_up htb hp
    obtain ⟨pre, post, rfl⟩ := List.append_of_mem hin
    rw [List.flatMap_cons, List.mem_append] at hup
    replace hup := hup.resolve_left fun hm => hpc (List.mem_map_of_mem hm)
    simp only [handle_node] at hpc ht hp ⊢
    have hnd := h.nodup
    rw [List.flatMap_cons] at hnd
    obtain ⟨-, hndf, hapart⟩ := List.nodup_append.1 hnd
    have hcp : c.handle ≠ p := fun he => hpc (he ▸ c.handle_mem_handles)
    have hmod₁ : ∀ s : Slot, ({ s with parent := some p } : Slot).generation = s.generation := fun _ => rfl
    have hmod₂ : ∀ s : Slot, ({ s with children := insertBehind tb.handle c.handle s.children } :
        Slot).generation = s.generation := fun _ => rfl
    have hchild : t'.get? c.handle = (t.get? c.handle).map fun s => { s with parent := some p } := by
      rw [← ht]
      exact (get?_modify_of_ne _ hcp hmod₂).trans (get?_modify_self t c.handle hmod₁)
    have hparent : t'.get? p = (t.get? p).map fun s =>
        { s with children := insertBehind tb.handle c.handle s.children } := by
      rw [← ht, ← get?_modify_of_ne t (Ne.symm hcp) hmod₁]
      exact get?_modify_self _ p hmod₂
    have hother : ∀ x, x ≠ p → x ≠ c.handle → t'.get? x = t.get? x := fun x hxp hxc => by
      rw [← ht]
      exact (get?_modify_of_ne _ hxp hmod₂).trans (get?_modify_of_ne t hxc hmod₁)
    have hattach : ∀ q, t.Holds q (.node p d (pre ++ tb :: post)) →
        t'.Holds q (.node p d (pre ++ tb :: c :: post)) := fun q hq => by
      refine hq.attach (h.holds c (by simp)) (hnd.sublist ?_) hchild hparent hother
      exact (splicesAt_sublist hndf hup).append_left _
    obtain ⟨q, hq⟩ := h.part (List.mem_flatMap.2 ((List.mem_flatMap.1 hup).imp fun b hb => ⟨by simp [hb.1], hb.2⟩))
    have hmore : (handles (.node p d (pre ++ tb :: c :: post))).Perm
        (c.handles ++ handles (.node p d (pre ++ tb :: post))) := by
      simpa using perm_handles_node p d (pre ++ [tb]) post c
    refine ⟨p, d, pre, post, tb, rfl, hp, ⟨hup, rfl, ⟨?_, ?_, ?_⟩, ?_, ?_, rfl, ?_, ?_, fun i => ?_⟩, hchild,
      fun x hx hxc => hother x (fun he => hpc (he ▸ hx)) hxc, ?_⟩
    · refine holds_replace (fun b hb => h.holds b (by simp [hb])) hndf hup rfl hattach
        fun x hx hxs => hother x (fun he => hxs (by simp [he])) fun he => ?_
      exact hapart x (he ▸ c.handle_mem_handles) x hx rfl
    · obtain ⟨rest, hperm⟩ := exists_perm_of_mem_parts hndf hup
      have hnew := perm_replace hndf hup hperm (.node p d (pre ++ tb :: c :: post))
      have htotal := (hperm.append_left c.handles).trans
        ((List.append_assoc .. ▸ hmore.symm.append_right rest).trans hnew.symm)
      have hold := h.arena
      rw [List.flatMap_cons] at hold
      have hcin : c.handle ∈ c.handles ++ forest.flatMap handles := by simp [c.handle_mem_handles]
      have hpin : p ∈ c.handles ++ forest.flatMap handles := by
        refine List.mem_append_right _ (Represents.handles_subset hup ?_)
        simp
      rw [← ht]
      exact ((hold.modify hcin hmod₁).modify hpin hmod₂).touch.perm htotal
    · obtain ⟨b, hb, hbroot, hdoc⟩ := h.document
      rcases List.mem_cons.1 hb with rfl | hb
      · exact absurd hbroot hroot
      refine exists_document_replace ⟨b, hb, hbroot, hdoc⟩ rfl fun b' hb' he => ?_
      have hget := (h.holds b' (by simp [hb'])).get?
      rw [he, hq.get?] at hget
      simpa using congrArg (Option.map Slot.data) hget
    · rwa [handle_node, show t.parent? p = q from hq.parent?]
    · rw [handle_node, show t.parent? p = q from hq.parent?]
      exact hattach q hq
    · exact fun x hx _ => hmore.mem_iff.2 (List.mem_append_right _ hx)
    · intro x hx hxp _
      exact hother x hxp fun he => hapart x (he ▸ c.handle_mem_handles) x hx rfl
    · rw [← ht, List.map_nil, if_neg List.not_mem_nil, UInt32.add_zero]
      exact (generation_modify _ p hmod₂ i).trans (generation_modify t c.handle hmod₁ i)
    · rw [← ht]
      rfl

theorem filter_ne_handle {pre post : List Branch} {sub : Branch}
    (h : ((pre ++ sub :: post).map Branch.handle).Nodup) :
    ((pre ++ sub :: post).map Branch.handle).filter (· != sub.handle) =
      (pre ++ post).map Branch.handle := by
  simp only [List.map_append, List.map_cons] at h ⊢
  obtain ⟨-, hpost, hpre⟩ := List.nodup_append.1 h
  have hpost' := (List.nodup_cons.1 hpost).1
  have hkeep : ∀ xs : List NodeId, sub.handle ∉ xs → xs.filter (· != sub.handle) = xs := fun xs hx =>
    List.filter_eq_self.2 fun x hm => bne_iff_ne.2 fun he => hx (he ▸ hm)
  rw [List.filter_append, List.filter_cons, hkeep _ hpost',
    hkeep _ fun hm => hpre _ hm _ (List.mem_cons_self ..) rfl]
  simp

/-- Removing a node takes its branch away from its parent. -/
theorem remove_spec (h : t.Represents forest) {id p : NodeId} (hp : t.parent? id = some p)
    (ht : t.remove id = .ok t') :
    ∃ d pre post, ∃ sub : Branch, sub.handle = id ∧
      Reshaped t t' forest (.node p d (pre ++ sub :: post)) (.node p d (pre ++ post)) sub.handles ∧
      t'.mutations = t.mutations + 1 := by
  have hw : t.WellFormed := ⟨_, h⟩
  obtain ⟨sub, hsub, rfl⟩ := h.exists_part (hw.inUse_of_parent? hp)
  obtain ⟨⟨p, d, cs⟩, hup, rfl, hin⟩ := h.exists_up hsub hp
  obtain ⟨pre, post, rfl⟩ := List.append_of_mem hin
  simp only [handle_node] at hp ⊢
  have hmod : ∀ s : Slot, ({ s with children := s.children.filter (· != sub.handle) } :
      Slot).generation = s.generation := fun _ => rfl
  obtain ⟨t₁, ht₁⟩ : ∃ t₁, t₁ = (t.modify p fun s =>
      { s with children := s.children.filter (· != sub.handle) }).touch := ⟨_, rfl⟩
  replace ht : t₁.release sub.handle = t' := by
    unfold remove at ht
    split_ifs at ht with hroot hsome
    · simpa [unlink, hp, ← ht₁] using ht
    · simp [hp] at hsome
  obtain ⟨q, hq⟩ := h.part hup
  obtain ⟨rest, hperm⟩ := h.exists_rest hup
  have hnd := h.nodup_of_mem_parts hup
  rw [handles_node, List.nodup_cons] at hnd
  obtain ⟨hpcs, hcs⟩ := hnd
  have hself : t₁.get? p = some ⟨p.generation, q, (pre ++ post).map Branch.handle, d⟩ := by
    rw [ht₁, ← filter_ne_handle (nodup_map_handle hcs)]
    exact (get?_modify_self t p hmod).trans (by rw [(holds_node.1 hq).1]; rfl)
  have hother : ∀ x ≠ p, t₁.get? x = t.get? x := fun x hx => by
    rw [ht₁]
    exact get?_modify_of_ne t hx hmod
  have hbelow : ∀ b ∈ pre ++ sub :: post, t₁.Holds (some p) b := by
    intro b hb
    refine ((holds_node.1 hq).2 b hb).congr fun x hx => hother x fun he => hpcs ?_
    exact he ▸ List.mem_flatMap.2 ⟨b, hb, hx⟩
  -- what is left are the parent, the other branches below it and all that is elsewhere
  have hless := perm_handles_node p d pre post sub
  have harena : t₁.Arena (sub.handles ++ (handles (.node p d (pre ++ post)) ++ rest)) := by
    have hp : p ∈ handles (.node p d (pre ++ sub :: post)) ++ rest := by simp
    rw [ht₁, ← List.append_assoc]
    exact ((h.arena.perm hperm).modify hp hmod).touch.perm (hless.append_right rest)
  have hshrunk := release_spec (hbelow sub (by simp)) harena
  rw [ht] at hshrunk
  have hrest : ∀ x ∈ rest, x ≠ p := fun x hx he => by
    have := (h.arena.perm hperm).nodup
    exact (List.nodup_append.1 this).2.2 p (by simp) x hx he.symm
  have hkept : ∀ x ∈ rest, t'.get? x = t.get? x := fun x hx =>
    (hshrunk.kept x (List.mem_append_right _ hx)).trans (hother x (hrest x hx))
  have hholds : t'.Holds q (.node p d (pre ++ post)) := by
    refine holds_node.2 ⟨?_, fun b hb => (hbelow b ?_).congr fun x hx => hshrunk.kept x ?_⟩
    · rw [hshrunk.kept p (by simp), hself]
    · rcases List.mem_append.1 hb with hb | hb <;> simp [hb]
    · refine List.mem_append_left _ ?_
      rw [handles_node]
      exact List.mem_cons_of_mem _ (List.mem_flatMap.2 ⟨b, hb, hx⟩)
  refine ⟨d, pre, post, sub, rfl, ⟨hup, rfl, ?_, ?_, ?_, rfl, ?_, ?_, fun i => ?_⟩, ?_⟩
  · refine h.replace hup hperm rfl rfl (fun q' hq' => ?_) hkept hshrunk.arena
    obtain rfl : q = q' := hq.parent?.symm.trans hq'.parent?
    exact hholds
  · rwa [hq.parent?]
  · rwa [hq.parent?]
  · exact fun x hx hxs => (List.mem_append.1 (hless.mem_iff.1 hx)).resolve_left hxs
  · intro x hx hxp hxs
    have hx' := (hperm.trans (hless.append_right rest)).mem_iff.1 hx
    rw [List.append_assoc] at hx'
    rw [hshrunk.kept x ((List.mem_append.1 hx').resolve_left hxs), hother x hxp]
  · rw [hshrunk.generation, ht₁]
    exact congrArg (· + _) (generation_modify t p hmod i)
  · rw [hshrunk.mutations, ht₁]
    rfl

/-- A node that has a parent can be removed. -/
theorem WellFormed.exists_remove (ht : t.WellFormed) {id p : NodeId} (hp : t.parent? id = some p) : ∃ t', t.remove id = .ok t' := by
  have hroot : id ≠ root := fun he => by
    rw [he, ht.parent?_root] at hp
    cases hp
  simp [remove, hroot]

/-- The other children stay where they are. -/
theorem parent?_of_remove (ht : t.WellFormed) {id y p : NodeId} (hp : t.parent? id = some p)
    (hy : t.parent? y = some p) (hne : y ≠ id) (h : t.remove id = .ok t') : t'.parent? y = some p := by
  have hw := ht
  obtain ⟨forest, hr⟩ := ht
  obtain ⟨d, pre, post, sub, rfl, hreshaped, -⟩ := remove_spec hr hp h
  have hmem := hw.mem_children_iff.2 hy
  have hheld := hreshaped.held.children
  rw [handle_node] at hheld
  rw [hheld] at hmem
  obtain ⟨b, hb, rfl⟩ := List.mem_map.1 hmem
  have hb' : b ∈ pre ++ post := by
    simp only [children_node, List.mem_append, List.mem_cons] at hb ⊢
    rcases hb with hb | rfl | hb
    · exact .inl hb
    · exact absurd rfl hne
    · exact .inr hb
  exact (hreshaped.holds.child hb').parent?

end ViewBinding.Tree
