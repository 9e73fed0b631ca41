import ViewBinding.Proofs.Render.Stays

/-! Tearing down the copies of a list. They go with all that is in them, and nothing is left of who listened to them or of their
records. The other children stay in the order in which they were. -/
namespace ViewBinding

open ViewBinding.Tree

namespace Tree

variable {t t' t'' : Tree} {id up x : NodeId} {gone gone' : NodeId → Prop}

/-- What is left of a tree when some of its nodes have gone: the others, as they were below one another, with their elements. -/
structure Rid (gone : NodeId → Prop) (t t' : Tree) : Prop where
  whole : t'.Whole
  inUse_iff : ∀ x, t'.InUse x ↔ t.InUse x ∧ ¬ gone x
  element? : ∀ x, t'.InUse x → t'.element? x = t.element? x
  inside_iff : ∀ x c, t'.InUse x → (t'.Inside x c ↔ t.Inside x c)

theorem Rid.refl (ht : t.Whole) : Rid (fun _ => False) t t :=
  ⟨ht, fun _ => ⟨fun hx => ⟨hx, not_false⟩, And.left⟩, fun _ _ => rfl, fun _ _ _ => .rfl⟩

theorem Rid.trans (h : Rid gone t t') (h' : Rid gone' t' t'') : Rid (fun x => gone x ∨ gone' x) t t'' where
  whole := h'.whole
  inUse_iff x := by rw [h'.inUse_iff, h.inUse_iff, not_or, and_assoc]
  element? x hx := (h'.element? x hx).trans (h.element? x ((h'.inUse_iff x).1 hx).1)
  inside_iff x c hx := (h'.inside_iff x c hx).trans (h.inside_iff x c ((h'.inUse_iff x).1 hx).1)

/-- It only matters which of the nodes in use have gone. -/
theorem Rid.congr (h : Rid gone t t') (he : ∀ x, t.InUse x → (gone x ↔ gone' x)) : Rid gone' t t' :=
  { h with inUse_iff := fun x => (h.inUse_iff x).trans (and_congr_right fun hx => not_congr (he x hx)) }

/-- Removing a node takes away what lies in it. -/
theorem rid_of_remove (ht : t.Whole) (hp : t.parent? id = some up) (h : t.remove id = .ok t') : Rid (t.Inside · id) t t' := by
  have hw := ht.wellFormed
  have hedited := (Edit.remove hp h).edited ht
  have hold : ∀ x, t'.InUse x → t.InUse x := fun x hx => inUse_of_remove hw hp h hx
  have hpre : ∀ x, x ∈ t.preorder id ↔ t.Inside x id := fun x => hw.mem_preorder_iff_inside (hw.inUse_of_parent? hp)
  refine ⟨hedited.whole, fun x => ?_, fun x hx => ?_, fun x c hx => ?_⟩
  · constructor
    · exact fun hx => ⟨hold x hx, fun hin => (hedited.inUse_iff (hold x hx)).1 hx ((hpre x).2 hin)⟩
    · rintro ⟨hx, hout⟩
      exact (hedited.inUse_iff hx).2 fun hmem => hout ((hpre x).1 hmem)
  · exact ((Relist.remove hp h).kept ht (hold x hx) hx).2
  · exact hedited.inside_iff hw (hold x hx) hx

end Tree

namespace Pass

/-- Nobody listens to a node, and there is no record of it. -/
structure Forgets (p : Pass) (x : NodeId) : Prop where
  unheard : p.document.listeners.on x = []
  unrecorded : x ∉ p.copies

/-- What has become of a page when some children of a node have been torn down. -/
structure TornDown (up : NodeId) (own : List NodeId) (p q : Pass) : Prop where
  rid : Rid (fun x => ∃ c ∈ own, p.tree.Inside x c) p.tree q.tree
  thinned : Thinned p.tree q.tree
  children : q.tree.children up = (p.tree.children up).filter (!own.contains ·)
  stays : ∀ x, q.tree.InUse x → Stays up p q x
  forgets : ∀ x, p.Forgets x → q.Forgets x
  gone : ∀ c ∈ own, ∀ x, p.tree.Inside x c → q.Forgets x ∧ q.tree.Spent x

variable {up id : NodeId} {own : List NodeId} {p q r : Pass}

theorem TornDown.refl (up : NodeId) (hp : p.tree.Whole) : TornDown up [] p p where
  rid := (Rid.refl hp).congr fun x _ => by simp
  thinned := .refl p.tree
  children := by simp
  stays _ hx := .of_document_eq hx rfl rfl
  forgets _ hx := hx
  gone := by simp

theorem TornDown.trans (hp : p.tree.WellFormed) (hown : ∀ c ∈ own, p.tree.InUse c) (h : TornDown up [id] p r)
    (h' : TornDown up own r q) : TornDown up (id :: own) p q := by
  have hrid : Rid (p.tree.Inside · id) p.tree r.tree := h.rid.congr fun x _ => by simp
  have hthere : ∀ x, p.tree.InUse x → ¬ p.tree.Inside x id → r.tree.InUse x := fun x hx hout => (hrid.inUse_iff x).2 ⟨hx, hout⟩
  refine ⟨(hrid.trans h'.rid).congr fun x hx => ?_, h.thinned.trans h'.thinned, ?_, fun x hx => ?_, fun x hx => ?_,
    fun c hc x hin => ?_⟩
  · -- what does not lie in the first one is there still, and lies where it lay
    by_cases hin : p.tree.Inside x id
    · exact ⟨fun _ => ⟨id, by simp, hin⟩, fun _ => .inl hin⟩
    · simp [hin, hrid.inside_iff x _ (hthere x hx hin)]
  · rw [h'.children, h.children, List.filter_filter]
    refine List.filter_congr fun x _ => ?_
    by_cases he : x = id <;> simp [he]
  · exact (h.stays x (h'.thinned.old x hx).1).trans (h'.stays x hx)
  · exact h'.forgets x (h.forgets x hx)
  · by_cases hfirst : p.tree.Inside x id
    · obtain ⟨hforgets, hspent⟩ := h.gone id (by simp) x hfirst
      exact ⟨h'.forgets x hforgets, h'.thinned.lasting x hspent⟩
    · rcases List.mem_cons.1 hc with rfl | hc
      · exact absurd hin hfirst
      · have hx : p.tree.InUse x := hp.inUse_of_mem_preorder (hown c hc) ((hp.mem_preorder_iff_inside (hown c hc)).2 hin)
        exact h'.gone c hc x ((hrid.inside_iff x c (hthere x hx hfirst)).2 hin)

end Pass

namespace View

open Render Pass

variable {p : Pass} {template id up : NodeId} {own : List NodeId} {t : Tree}

/-- A child that is dropped is removed, and forgotten with all that is in it. -/
theorem tornDown_forgotten (hp : p.tree.Whole) (hup : p.tree.parent? id = some up) (h : p.tree.remove id = .ok t) :
    TornDown up [id] p ((forgotten p id).withTree t) := by
  have hw := hp.wellFormed
  have hmem : ∀ {x}, x ∈ p.tree.preorder id ↔ p.tree.Inside x id := hw.mem_preorder_iff_inside (hw.inUse_of_parent? hup)
  have hrid := rid_of_remove hp hup h
  have hold : ∀ x, t.InUse x → p.tree.InUse x := fun x hx => ((hrid.inUse_iff x).1 hx).1
  have hthinned := ((Edit.remove hup h).edited hp).thinned hp hold
  have hon : ∀ x, (forgotten p id).document.listeners.on x =
      if (p.tree.preorder id).contains x then [] else p.document.listeners.on x := fun x => ListenerStore.on_purge ..
  refine ⟨hrid.congr fun x _ => by simp, hthinned, ?_, fun x hx => ?_, fun x hx => ⟨?_, ?_⟩, fun c hc x hin => ⟨⟨?_, ?_⟩, ?_⟩⟩
  · rw [Pass.tree_withTree, children_of_remove hw hup h]
    exact List.filter_congr fun x _ => by by_cases he : x = id <;> simp [he]
  · have hout : x ∉ p.tree.preorder id := fun hm => ((hrid.inUse_iff x).1 hx).2 (hmem.1 hm)
    have hfirst : Stays up p (forgotten p id) x :=
      ⟨hold x hx, rfl, fun _ _ => rfl, fun _ => rfl, rfl, by simp [hon, hout], by simp [forgotten, hout]⟩
    exact hfirst.trans (.relist hp (.remove hup h) (hold x hx) hx)
  · exact (hon x).trans (by simp [hx.unheard])
  · exact fun hc => hx.unrecorded (List.mem_filter.1 hc).1
  all_goals obtain rfl : c = id := by simpa using hc
  · exact (hon x).trans (if_pos (List.contains_iff_mem.2 (hmem.2 hin)))
  · exact fun hc => by simp [forgotten, hmem.2 hin] at hc
  · exact (hthinned.spent x (hw.inUse_of_mem_preorder (hw.inUse_of_parent? hup) (hmem.2 hin))).resolve_left fun hx =>
      ((hrid.inUse_iff x).1 hx).2 hin

/-- Copies that are dropped go with all that is in them, and nothing else does. -/
theorem tornDown_forM_dropCopy (hp : p.tree.Whole) (hnodup : own.Nodup) (hup : ∀ c ∈ own, p.tree.parent? c = some up) :
    ∃ q, (own.forM dropCopy).exec p = (.ok (), q) ∧ TornDown up own p q := by
  induction own generalizing p with
  | nil => exact ⟨p, rfl, .refl up hp⟩
  | cons id own ih =>
    obtain ⟨hid, hnodup⟩ := List.nodup_cons.1 hnodup
    have hidup := hup id (by simp)
    obtain ⟨t, ht⟩ := hp.wellFormed.exists_remove hidup
    have hfirst := tornDown_forgotten hp hidup ht
    have hothers : ∀ c ∈ own, t.parent? c = some up := fun c hc =>
      parent?_of_remove hp.wellFormed hidup (hup c (by simp [hc])) (fun he => hid (he ▸ hc)) ht
    obtain ⟨q, hq, hrest⟩ := ih (p := (forgotten p id).withTree t) hfirst.rid.whole hnodup hothers
    refine ⟨q, ?_, hfirst.trans hp.wellFormed (fun c hc => hp.wellFormed.inUse_of_parent? (hup c (by simp [hc]))) hrest⟩
    rw [Render.exec_forM_cons (q := (forgotten p id).withTree t), hq]
    rw [exec_dropCopy, Render.exec_edit_ok (p := forgotten p id) ht]

/-- Tearing a list down drops the copies beside its template that carry its class. -/
theorem tornDown_tearDown (hp : p.tree.Whole) (hup : p.tree.parent? template = some up) (cls : String) :
    ∃ q, (tearDown template cls).exec p = (.ok (), q) ∧ TornDown up (staleCopies p.tree p.copies template cls) p q := by
  have hw := hp.wellFormed
  have hsub := staleCopies_sublist hup p.copies cls
  unfold tearDown
  rw [exec_bind, exec_view]
  exact tornDown_forM_dropCopy hp ((hw.nodup_children up).sublist hsub) fun c hc => hw.mem_children_iff.1 (hsub.subset hc)

/-- What a view model has recorded of a group beside a template is torn down, with all that is in it, and nothing else is. -/
theorem rid_tearDown (hp : p.tree.Whole) (template : NodeId) (cls : String) :
    Rid (fun x => ∃ c ∈ staleCopies p.tree p.copies template cls, p.tree.Inside x c) p.tree
      ((tearDown template cls).exec p).2.tree := by
  cases hup : p.tree.parent? template with
  | none =>
    unfold tearDown
    rw [exec_bind, exec_view]
    simp only [staleCopies, hup]
    exact (Rid.refl hp).congr fun x _ => by simp
  | some up =>
    obtain ⟨q, hq, htorn⟩ := tornDown_tearDown hp hup cls
    rw [hq]
    exact htorn.rid

end View

end ViewBinding
