import ViewBinding.Proofs.Tree.Whole

/-! The edits of a tree in one piece, each with the nodes that it takes away. It stays in one piece, and a node that is
not taken away stays where it is. -/
namespace ViewBinding.Tree

open Branch

variable {t t' : Tree} {top x : NodeId} {gone : List NodeId} {forest : List Branch} {old new b : Branch}

/-- An edit below the node `top`, with the nodes that it takes away. -/
inductive Edit (t : Tree) (top : NodeId) : List NodeId → Tree → Prop
  | write {t' : Tree} {w : NodeId → String → Prop} (h : Writes t t' w) : Edit t top [] t'
  | refill (h : t.isElement top = true) (content : List Markup) :
    Edit t top (t.preorder top).tail ((t.clear top).fill top content).touch
  | insert {template anchor c : NodeId} {t₁ t₂ t' : Tree} {w : NodeId → String → Prop} (hp : t.parent? anchor = some top)
    (hcopy : t.copy template = .ok (c, t₁)) (hw : Writes t₁ t₂ w) (h : t₂.insertAfter anchor c = .ok t') : Edit t top [] t'
  | remove {id : NodeId} {t' : Tree} (hp : t.parent? id = some top) (h : t.remove id = .ok t') :
    Edit t top (t.preorder id) t'

/-- A later tree in one piece. A node that is not among those taken away is where it was, and the slots of the others
have gone on to further generations. -/
structure Kept (t t' : Tree) (gone : List NodeId) : Prop where
  whole : t'.Whole
  stays : ∀ x, t.InUse x → x ∉ gone → t'.InUse x ∧ t'.parent? x = t.parent? x ∧
    (t'.element? x).map (·.tag) = (t.element? x).map (·.tag)
  generation : ∀ i, t'.generation i = t.generation i + UInt32.ofNat ((gone.map (·.slot)).count i)

/-- What one edit comes to: all that changes is below one node. -/
structure Edited (t t' : Tree) (top : NodeId) (gone : List NodeId) : Prop extends Kept t t' gone where
  taken : ∀ x ∈ gone, t.InUse x ∧ t.Inside x top ∧ x ≠ top
  made : ∀ x, t'.InUse x → ¬ t.InUse x → t'.Inside x top ∧ x ≠ top
  nodup : (gone.map (·.slot)).Nodup

theorem Kept.refl (h : t.Whole) : Kept t t [] := ⟨h, fun _ hx _ => ⟨hx, rfl, rfl⟩, fun _ => by simp⟩

theorem Kept.trans {t'' : Tree} {gone' : List NodeId} (h : Kept t t' gone) (h' : Kept t' t'' gone') :
    Kept t t'' (gone ++ gone') where
  whole := h'.whole
  stays x hx hg := by
    rw [List.mem_append, not_or] at hg
    obtain ⟨hx', hp, ht⟩ := h.stays x hx hg.1
    obtain ⟨hx'', hp', ht'⟩ := h'.stays x hx' hg.2
    exact ⟨hx'', hp'.trans hp, ht'.trans ht⟩
  generation i := by
    rw [h'.generation, h.generation, UInt32.add_assoc, ← UInt32.ofNat_add, List.map_append, List.count_append]

theorem tail_handles (b : Branch) : b.handles.tail = b.children.flatMap handles := by
  obtain ⟨id, data, cs⟩ := b
  rw [handles_node, List.tail_cons, children_node]

namespace Reshaped

/-- What is new is in the new branch. -/
theorem mem_handles_new (h : Reshaped t t' forest old new gone) (hnd : (forest.flatMap handles).Nodup) (hx : t'.InUse x)
    (hnew : x ∉ forest.flatMap handles) : x ∈ new.handles := by
  obtain ⟨rest, hperm⟩ := exists_perm_of_mem_parts hnd h.mem
  have hin := (perm_replace hnd h.mem hperm new).mem_iff.1 (h.represents.mem_handles_iff.2 hx)
  exact (List.mem_append.1 hin).resolve_right fun hr => hnew (hperm.mem_iff.2 (List.mem_append_right _ hr))

theorem made (h : Reshaped t t' forest old new gone) (hnd : (forest.flatMap handles).Nodup) (hx : t'.InUse x)
    (hnew : x ∉ forest.flatMap handles) (htop : old.handle ∈ forest.flatMap handles) :
    t'.Inside x old.handle ∧ x ≠ old.handle := by
  have hw : t'.WellFormed := ⟨_, h.represents⟩
  have hmem := mem_parts_replace h.mem new
  have hx' := h.mem_handles_new hnd hx hnew
  rw [← h.represents.preorder hmem, h.handle] at hx'
  have htop' : t'.InUse old.handle := h.handle ▸ h.represents.inUse_of_mem hmem new.handle_mem_handles
  exact ⟨(hw.mem_preorder_iff_inside htop').1 hx', fun he => hnew (he ▸ htop)⟩

/-- An edit that turns one branch of the document into another one, and gives back nodes below its top. -/
theorem edited (h : Reshaped t t' [b] old new gone) (hr : t.Represents [b]) (hgone : gone.Sublist old.handles.tail) :
    Edited t t' old.handle gone := by
  have ht : t.WellFormed := ⟨_, hr⟩
  have htop : old.handle ∈ [b].flatMap handles := Represents.handles_subset h.mem old.handle_mem_handles
  have hsub : old.handles.Sublist ([b].flatMap handles) := splicesAt_sublist hr.nodup h.mem
  have hslots : (gone.map (·.slot)).Nodup :=
    (List.nodup_append.1 hr.arena.nodup_slots).1.sublist (((hgone.trans (List.tail_sublist _)).trans hsub).map _)
  refine ⟨⟨⟨_, h.represents⟩, fun x hx hstay => ?_, fun i => ?_⟩, fun x hx => ?_, fun x hx hnew => ?_, hslots⟩
  · have hm := hr.mem_handles_iff.2 hx
    exact ⟨h.inUse hr.nodup hm hstay, h.parent? hm hstay, by rw [h.element? hm hstay]⟩
  · rw [h.generation, hslots.count]
    split <;> rfl
  · have hxt := hgone.subset hx
    have hxo : x ∈ old.handles := List.mem_of_mem_tail hxt
    refine ⟨hr.inUse_of_mem h.mem hxo, ?_, ?_⟩
    · exact (ht.mem_preorder_iff_inside (hr.mem_handles_iff.1 htop)).1 (hr.preorder h.mem ▸ hxo)
    · have hnd := hr.nodup_of_mem_parts h.mem
      obtain ⟨id, d, cs⟩ := old
      rw [handles_node] at hnd hxt
      rintro rfl
      exact (List.nodup_cons.1 hnd).1 hxt
  · exact h.made hr.nodup hx (fun hm => hnew (hr.mem_handles_iff.1 hm)) htop

end Reshaped

theorem Writes.edited {w : NodeId → String → Prop} (h : Writes t t' w) (ht : t.Whole) (top : NodeId) :
    Edited t t' top [] where
  whole := by
    obtain ⟨b, hr⟩ := ht
    exact ⟨_, h.represents hr⟩
  taken := by simp
  made x hx hnew := absurd ((h.inUse x).1 hx) hnew
  stays x hx _ := ⟨(h.inUse x).2 hx, h.parent? x, h.tag x⟩
  generation i := by simp [h.generation]
  nodup := List.nodup_nil

/-- A copy that has been put into the document is all that is new. -/
theorem edited_insert (ht : t.Whole) {template anchor c : NodeId} {t₁ t₂ : Tree} {w : NodeId → String → Prop}
    (hp : t.parent? anchor = some top) (hcopy : t.copy template = .ok (c, t₁)) (hw : Writes t₁ t₂ w)
    (h : t₂.insertAfter anchor c = .ok t') : Edited t t' top [] := by
  obtain ⟨b, hr⟩ := ht
  obtain ⟨cb, rfl, -, -, hr₁, hkept, hfresh, hgen, -⟩ := copy_spec hr hcopy
  have hused : ∀ x, t.InUse x ↔ x ∈ b.handles := fun x => by rw [← hr.mem_handles_iff, List.flatMap_singleton]
  -- writing on the copy leaves the handles as they are
  have hr₂ := hw.represents hr₁
  rw [List.map_cons, List.map_singleton] at hr₂
  have hhandles : ∀ x, x ∈ [b.relabel t₂.data].flatMap handles ↔ t.InUse x := fun x => by
    rw [hused, List.flatMap_singleton, handles_relabel]
  have hroot : (cb.relabel t₂.data).handle ≠ root := by
    rw [handle_relabel]
    exact fun he => hfresh _ cb.handle_mem_handles (he ▸ WellFormed.inUse_root ⟨_, hr⟩)
  rw [← handle_relabel t₂.data cb] at h
  obtain ⟨p, d, pre, post, tb, rfl, hp₂, hreshaped, -, -, -⟩ := insertAfter_spec hr₂ hroot h
  have hsame : ∀ x, t.InUse x → t₂.parent? x = t.parent? x ∧ (t₂.element? x).map (·.tag) = (t.element? x).map (·.tag) :=
    fun x hx => ⟨by rw [hw.parent?, Tree.parent?, hkept x hx, Tree.parent?],
      by rw [hw.tag, Tree.element?, hkept x hx, Tree.element?]⟩
  obtain rfl : p = top := by
    rw [(hsame _ (WellFormed.inUse_of_parent? ⟨_, hr⟩ hp)).1, hp] at hp₂
    exact (Option.some.inj hp₂).symm
  have hnd : ([b.relabel t₂.data].flatMap handles).Nodup := by
    have hall := hr₂.nodup
    rw [List.flatMap_cons] at hall
    exact (List.nodup_append.1 hall).2.1
  refine ⟨⟨⟨_, hreshaped.represents⟩, fun x hx _ => ?_, fun i => ?_⟩, by simp, fun x hx hnew => ?_, List.nodup_nil⟩
  · have hm := (hhandles x).2 hx
    refine ⟨hreshaped.inUse hnd hm List.not_mem_nil, ?_, ?_⟩
    · rw [hreshaped.parent? hm List.not_mem_nil, (hsame x hx).1]
    · rw [hreshaped.element? hm List.not_mem_nil, (hsame x hx).2]
  · rw [hreshaped.generation, hw.generation, hgen]
    simp
  · exact hreshaped.made hnd hx (fun hm => hnew ((hhandles x).1 hm))
      ((hhandles _).2 (WellFormed.inUse_parent ⟨_, hr⟩ hp))

theorem Edit.edited (h : Edit t top gone t') (ht : t.Whole) : Edited t t' top gone := by
  cases h with
  | write hw => exact hw.edited ht top
  | refill hid content =>
    obtain ⟨b, hr⟩ := ht
    obtain ⟨sub, hsub, rfl⟩ := hr.exists_part (hr.mem_handles_iff.1 (hr.arena.mem_of_isElement hid))
    obtain ⟨cs, -, hreshaped, -⟩ := refill_spec hr hsub content
    rw [hr.preorder hsub, tail_handles]
    exact hreshaped.touch.edited hr (tail_handles sub ▸ List.Sublist.refl _)
  | insert hp hcopy hw h => exact edited_insert ht hp hcopy hw h
  | remove hp h =>
    obtain ⟨b, hr⟩ := ht
    obtain ⟨d, pre, post, sub, rfl, hreshaped, -⟩ := remove_spec hr hp h
    have hsub : sub ∈ [b].flatMap parts := Represents.child_mem_parts hreshaped.mem (by simp)
    rw [hr.preorder hsub]
    refine hreshaped.edited hr ?_
    rw [tail_handles, children_node, List.flatMap_append, List.flatMap_cons]
    exact (List.sublist_append_left ..).trans (List.sublist_append_right ..)

/-- A slot is given back only by an edit that counts as a change. -/
theorem Edit.mutations_add_count_le (h : Edit t top gone t') (ht : t.Whole) (i : Nat) :
    t.mutations + (gone.map (·.slot)).count i ≤ t'.mutations := by
  have honce := List.nodup_iff_count_le_one.1 (h.edited ht).nodup i
  obtain ⟨b, hr⟩ := ht
  cases h with
  | write hw => simpa using hw.mutations_le
  | refill hid content =>
    obtain ⟨sub, hsub, rfl⟩ := hr.exists_part (hr.mem_handles_iff.1 (hr.arena.mem_of_isElement hid))
    obtain ⟨-, -, -, hmut⟩ := refill_spec hr hsub content
    show _ ≤ ((t.clear sub.handle).fill sub.handle content).mutations + 1
    omega
  | insert hp hcopy hw h =>
    obtain ⟨cb, rfl, -, -, hr₁, -, hfresh, -, hmut⟩ := copy_spec hr hcopy
    have hr₂ := hw.represents hr₁
    have hroot : cb.handle ≠ root := fun he => hfresh _ cb.handle_mem_handles (he ▸ WellFormed.inUse_root ⟨_, hr⟩)
    rw [List.map_cons] at hr₂
    rw [← handle_relabel _ cb] at h hroot
    obtain ⟨-, -, -, -, -, -, -, -, -, -, hmut'⟩ := insertAfter_spec hr₂ hroot h
    have := hw.mutations_le
    rw [List.map_nil, List.count_nil]
    omega
  | remove hp h =>
    obtain ⟨-, -, -, -, -, -, hmut⟩ := remove_spec hr hp h
    omega

namespace Edited

variable {y a : NodeId}

/-- The slot of a node that is taken away goes on to its next generation. -/
theorem not_isLive (h : Edited t t' top gone) (hx : x ∈ gone) : t'.isLive x ≠ true := fun hlive => by
  have hgen := h.generation x.slot
  rw [generation_of_isLive hlive, generation_of_isLive (h.taken x hx).1.1,
    List.count_eq_one_of_mem h.nodup (List.mem_map_of_mem hx)] at hgen
  exact absurd hgen.symm (by simp)

theorem inUse_iff (h : Edited t t' top gone) (hx : t.InUse x) : t'.InUse x ↔ x ∉ gone :=
  ⟨fun hx' hg => h.not_isLive hg hx'.1, fun hg => (h.stays x hx hg).1⟩

theorem parent?_eq (h : Edited t t' top gone) (hx : t.InUse x) (hx' : t'.InUse x) : t'.parent? x = t.parent? x :=
  (h.stays x hx ((h.inUse_iff hx).1 hx')).2.1

theorem isElement_eq (h : Edited t t' top gone) (hx : t.InUse x) (hx' : t'.InUse x) : t'.isElement x = t.isElement x := by
  have htag := congrArg Option.isSome (h.stays x hx ((h.inUse_iff hx).1 hx')).2.2
  rwa [Option.isSome_map, Option.isSome_map] at htag

/-- What stays lies in the same nodes as before. -/
theorem inside_iff (h : Edited t t' top gone) (ht : t.WellFormed) (hx : t.InUse x) (hx' : t'.InUse x) :
    t'.Inside x a ↔ t.Inside x a := by
  constructor <;> intro hin
  · induction hin using Relation.ReflTransGen.head_induction_on with
    | refl => exact .refl t a
    | head hp _ ih =>
      have hup := hp
      rw [h.parent?_eq hx hx'] at hp
      exact .up hp (ih (ht.inUse_parent hp) (h.whole.wellFormed.inUse_parent hup))
  · induction hin using Relation.ReflTransGen.head_induction_on with
    | refl => exact .refl t' a
    | head hp _ ih =>
      have hup := hp
      rw [← h.parent?_eq hx hx'] at hp
      exact .up hp (ih (ht.inUse_parent hup) (h.whole.wellFormed.inUse_parent hp))

end Edited

end ViewBinding.Tree

/-! Changes below a node. What does not lie in the node is as it was: it is there if it was there, at the same place. -/
namespace ViewBinding.Tree

variable {t t' t'' : Tree} {a c x y top : NodeId} {gone : List NodeId}

/-- A node in use that is not below `a`. -/
def Outside (t : Tree) (a x : NodeId) : Prop := t.InUse x ∧ ¬ (t.Inside x a ∧ x ≠ a)

/-- Only below `a` nodes come and go, or change places. -/
structure Confined (a : NodeId) (t t' : Tree) : Prop where
  outside : ∀ x, t'.Outside a x ↔ t.Outside a x
  parent? : ∀ x, t.Outside a x → t'.parent? x = t.parent? x
  isElement : ∀ x, t.Outside a x → t'.isElement x = t.isElement x

/-- A node that lies in `a`, if it is there. -/
def Within (t : Tree) (a x : NodeId) : Prop := t.InUse x → t.Inside x a

/-- A node that lies in `a` and is not `a`, if it is there. -/
def Below (t : Tree) (a x : NodeId) : Prop := t.InUse x → t.Inside x a ∧ x ≠ a

theorem Below.within (h : t.Below a x) : t.Within a x := fun hx => (h hx).1

theorem outside_self (hx : t.InUse x) : t.Outside x x := ⟨hx, fun h => h.2 rfl⟩

/-- What is below a node is not a node above it. -/
theorem WellFormed.ne_of_inside (ht : t.WellFormed) (hx : t.Inside x y) (hne : x ≠ y) (hy : t.Inside y a) : x ≠ a := by
  rintro rfl
  exact hne (ht.inside_antisymm hx hy)

namespace Confined

theorem refl (a : NodeId) (t : Tree) : Confined a t t := ⟨fun _ => .rfl, fun _ _ => rfl, fun _ _ => rfl⟩

theorem symm (h : Confined a t t') : Confined a t' t where
  outside x := (h.outside x).symm
  parent? x hx := (h.parent? x ((h.outside x).1 hx)).symm
  isElement x hx := (h.isElement x ((h.outside x).1 hx)).symm

theorem trans (h : Confined a t t') (h' : Confined a t' t'') : Confined a t t'' where
  outside x := (h'.outside x).trans (h.outside x)
  parent? x hx := (h'.parent? x ((h.outside x).2 hx)).trans (h.parent? x hx)
  isElement x hx := (h'.isElement x ((h.outside x).2 hx)).trans (h.isElement x hx)

theorem below (h : Confined a t t') (hx : t.Below a x) : t'.Below a x := fun hx' => by
  by_contra hout
  have hold := (h.outside x).1 ⟨hx', hout⟩
  exact hold.2 (hx hold.1)

theorem within (h : Confined a t t') (hx : t.Within a x) : t'.Within a x := fun hx' => by
  by_cases hxa : x = a
  · exact hxa ▸ .refl t' a
  · exact (h.below (fun hu => ⟨hx hu, hxa⟩) hx').1

/-- The way up from a node outside stays outside. -/
theorem inside (h : Confined c t t') (ht' : t'.WellFormed) (hx : t'.Outside c x) (ha : t'.Inside x a) : t.Inside x a := by
  induction ha using Relation.ReflTransGen.head_induction_on with
  | refl => exact .refl t a
  | @head x y hp _ ih =>
    have hy : t'.Outside c y := by
      refine ⟨ht'.inUse_parent hp, fun hyc => hx.2 ⟨.up hp hyc.1, ?_⟩⟩
      rintro rfl
      exact ht'.not_inside_of_parent? hp hyc.1
    exact .up ((h.parent? x ((h.outside x).1 hx)).symm.trans hp) (ih hy)

/-- What happens below a node happens below the nodes in which it lies. -/
theorem mono (h : Confined c t t') (ht : t.WellFormed) (ht' : t'.WellFormed) (hc : t.InUse c) (hca : t.Inside c a) :
    Confined a t t' := by
  have hself := outside_self hc
  have hca' : t'.Inside c a := h.symm.inside ht hself hca
  have hkeep : ∀ {s s' : Tree}, Confined c s s' → s.WellFormed → s'.WellFormed → s.Inside c a →
      ∀ x, s.Outside a x → s.Outside c x ∧ s'.Outside a x := by
    intro s s' h hs hs' hca x hx
    have hxc : s.Outside c x := ⟨hx.1, fun hin => hx.2 ⟨hin.1.trans hca, hs.ne_of_inside hin.1 hin.2 hca⟩⟩
    have hxc' := (h.outside x).2 hxc
    exact ⟨hxc, hxc'.1, fun hin => hx.2 ⟨h.inside hs' hxc' hin.1, hin.2⟩⟩
  refine ⟨fun x => ⟨fun hx => (hkeep h.symm ht' ht hca' x hx).2, fun hx => (hkeep h ht ht' hca x hx).2⟩, ?_, ?_⟩
  · exact fun x hx => h.parent? x (hkeep h ht ht' hca x hx).1
  · exact fun x hx => h.isElement x (hkeep h ht ht' hca x hx).1

end Confined

/-- An edit of a node that lies in `a` happens below `a`. -/
theorem Edited.confined (h : Edited t t' top gone) (ht : t.Whole) (hin : t.Inside top a) : Confined a t t' := by
  have hw := ht.wellFormed
  have hkept : ∀ x, t.Outside a x → t'.InUse x := fun x hx =>
    (h.inUse_iff hx.1).2 fun hg => by
      obtain ⟨-, hxt, hne⟩ := h.taken x hg
      exact hx.2 ⟨hxt.trans hin, hw.ne_of_inside hxt hne hin⟩
  have hold : ∀ x, t'.Outside a x → t.InUse x := fun x hx => by
    by_contra hnew
    obtain ⟨hxt, -⟩ := h.made x hx.1 hnew
    have htop' := h.whole.wellFormed.inUse_of_inside hx.1 hxt
    -- the node at which the edit was made is not new
    have htop : t.InUse top := by
      by_contra hn
      exact (h.made top htop' hn).2 rfl
    refine hx.2 ⟨hxt.trans ((h.inside_iff hw htop htop').2 hin), ?_⟩
    rintro rfl
    exact hnew (hw.inUse_of_inside htop hin)
  refine ⟨fun x => ⟨fun hx => ⟨hold x hx, fun hxa => hx.2 ?_⟩, fun hx => ⟨hkept x hx, fun hxa => hx.2 ?_⟩⟩,
    fun x hx => h.parent?_eq hx.1 (hkept x hx), fun x hx => h.isElement_eq hx.1 (hkept x hx)⟩
  · exact ⟨(h.inside_iff hw (hold x hx) hx.1).2 hxa.1, hxa.2⟩
  · exact ⟨(h.inside_iff hw hx.1 (hkept x hx)).1 hxa.1, hxa.2⟩

end ViewBinding.Tree
