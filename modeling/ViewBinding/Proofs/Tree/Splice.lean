import ViewBinding.Proofs.Tree.Forest

/-! Putting a branch in the place of another one, and labelling the nodes of a branch anew. -/
namespace ViewBinding

namespace Branch

mutual

/-- The branch with `new` in the place of the branch of a node. -/
def replace (id : NodeId) (new : Branch) : Branch → Branch
  | .node x data cs => if x = id then new else .node x data (replaceAll id new cs)

def replaceAll (id : NodeId) (new : Branch) : List Branch → List Branch
  | [] => []
  | c :: cs => replace id new c :: replaceAll id new cs

end

mutual

/-- The branch with other data at its nodes. -/
def relabel (f : NodeId → NodeData) : Branch → Branch
  | .node x _ cs => .node x (f x) (relabelAll f cs)

def relabelAll (f : NodeId → NodeData) : List Branch → List Branch
  | [] => []
  | c :: cs => c.relabel f :: relabelAll f cs

end

theorem replaceAll_eq (id : NodeId) (new : Branch) (cs : List Branch) :
    replaceAll id new cs = cs.map (replace id new) := by
  induction cs with
  | nil => rfl
  | cons c cs ih => simp [replaceAll, ih]

theorem relabelAll_eq (f : NodeId → NodeData) (cs : List Branch) :
    relabelAll f cs = cs.map (relabel f) := by
  induction cs with
  | nil => rfl
  | cons c cs ih => simp [relabelAll, ih]

@[simp] theorem replace_node (id : NodeId) (new : Branch) (x : NodeId) (data : NodeData)
    (cs : List Branch) :
    replace id new (.node x data cs) =
      if x = id then new else .node x data (cs.map (replace id new)) := by
  rw [replace, replaceAll_eq]

@[simp] theorem relabel_node (f : NodeId → NodeData) (x : NodeId) (data : NodeData)
    (cs : List Branch) : relabel f (.node x data cs) = .node x (f x) (cs.map (relabel f)) := by
  rw [relabel, relabelAll_eq]

@[simp] theorem handle_relabel (f : NodeId → NodeData) (b : Branch) :
    (b.relabel f).handle = b.handle := by
  cases b
  simp [handle]

theorem data_relabel (f : NodeId → NodeData) (b : Branch) : (b.relabel f).data = f b.handle := by
  cases b
  simp

@[simp] theorem handles_relabel (f : NodeId → NodeData) (b : Branch) :
    (b.relabel f).handles = b.handles := by
  induction b using induct with
  | node x data cs ih =>
    rw [relabel_node, handles_node, handles_node, List.flatMap_map]
    exact congrArg _ (List.flatMap_congr ih)

theorem handle_replace {id : NodeId} {new : Branch} (hid : new.handle = id) (b : Branch) :
    (replace id new b).handle = b.handle := by
  cases b with
  | node x data cs =>
    rw [replace_node]
    split
    · next hx => rw [hid, hx, handle]
    · rfl

theorem replace_of_notMem {id : NodeId} (new : Branch) {b : Branch} (h : id ∉ b.handles) :
    replace id new b = b := by
  induction b using induct with
  | node x data cs ih =>
    rw [handles_node, List.mem_cons, not_or] at h
    rw [replace_node, if_neg (Ne.symm h.1)]
    congr 1
    refine (List.map_congr_left fun c hc => ih c hc fun hm => h.2 ?_).trans (List.map_id _)
    exact List.mem_flatMap.2 ⟨c, hc, hm⟩

theorem map_replace_of_notMem {id : NodeId} (new : Branch) {bs : List Branch}
    (h : id ∉ bs.flatMap handles) : bs.map (replace id new) = bs := by
  refine (List.map_congr_left fun b hb => replace_of_notMem new fun hm => h ?_).trans (List.map_id _)
  exact List.mem_flatMap.2 ⟨b, hb, hm⟩

theorem disjoint_handles {bs : List Branch} (h : (bs.flatMap handles).Nodup) {a b : Branch} (ha : a ∈ bs)
    (hb : b ∈ bs) (hne : a ≠ b) : List.Disjoint a.handles b.handles := by
  have hsymm : Std.Symm (Function.onFun List.Disjoint handles) := ⟨fun _ _ => List.Disjoint.symm⟩
  exact (List.nodup_flatMap.1 h).2.forall ha hb hne

/-- Where the handles of a branch stand among those of a forest. -/
def SplicesAt (forest : List Branch) (sub : Branch) : Prop :=
  ∃ pre post, forest.flatMap handles = pre ++ (sub.handles ++ post) ∧
    ∀ new, (forest.map (replace sub.handle new)).flatMap handles = pre ++ (new.handles ++ post)

theorem splicesAt_of_forall {bs : List Branch} {sub : Branch} (hnd : (bs.flatMap handles).Nodup)
    (hs : sub ∈ bs.flatMap parts)
    (ih : ∀ b ∈ bs, b.handles.Nodup → sub ∈ b.parts → SplicesAt [b] sub) : SplicesAt bs sub := by
  induction bs with
  | nil => simp at hs
  | cons b bs ihs =>
    rw [List.flatMap_cons] at hnd
    obtain ⟨hb, hbs, hdisjoint⟩ := List.nodup_append.1 hnd
    rw [List.flatMap_cons, List.mem_append] at hs
    rcases hs with hs | hs
    · obtain ⟨pre, post, hold, hnew⟩ := ih b (by simp) hb hs
      have hnot : sub.handle ∉ bs.flatMap handles := fun hm =>
        hdisjoint sub.handle (List.mem_map_of_mem hs) sub.handle hm rfl
      refine ⟨pre, post ++ bs.flatMap handles, ?_, fun new => ?_⟩
      · simp only [List.flatMap_cons, List.flatMap_nil, List.append_nil] at hold
        simp [hold]
      · have := hnew new
        simp only [List.map_cons, List.map_nil, List.flatMap_cons, List.flatMap_nil,
          List.append_nil] at this
        rw [List.map_cons, List.flatMap_cons, map_replace_of_notMem new hnot, this]
        simp
    · obtain ⟨pre, post, hold, hnew⟩ := ihs hbs hs fun c hc => ih c (by simp [hc])
      have hnot : sub.handle ∉ b.handles := fun hm => by
        obtain ⟨c, hc, hsc⟩ := List.mem_flatMap.1 hs
        exact hdisjoint sub.handle hm sub.handle
          (List.mem_flatMap.2 ⟨c, hc, List.mem_map_of_mem hsc⟩) rfl
      refine ⟨b.handles ++ pre, post, by simp [hold], fun new => ?_⟩
      rw [List.map_cons, List.flatMap_cons, replace_of_notMem new hnot, hnew new]
      simp

theorem splicesAt_singleton {b sub : Branch} (hnd : b.handles.Nodup) (hs : sub ∈ b.parts) :
    SplicesAt [b] sub := by
  induction b using induct with
  | node x data cs ih =>
    rw [handles_node] at hnd
    obtain ⟨hx, hcs⟩ := List.nodup_cons.1 hnd
    rw [parts_node, List.mem_cons] at hs
    rcases hs with rfl | hs
    · exact ⟨[], [], by simp, fun new => by simp [handle]⟩
    · obtain ⟨pre, post, hold, hnew⟩ := splicesAt_of_forall hcs hs ih
      have hne : x ≠ sub.handle := fun he => hx <| by
        obtain ⟨c, hc, hsc⟩ := List.mem_flatMap.1 hs
        exact List.mem_flatMap.2 ⟨c, hc, he ▸ List.mem_map_of_mem hsc⟩
      refine ⟨x :: pre, post, by simp [hold], fun new => ?_⟩
      simp [hne, hnew new]

/-- In a forest without repeated handles, replacing a branch replaces a segment of the handles. -/
theorem splicesAt {forest : List Branch} {sub : Branch} (hnd : (forest.flatMap handles).Nodup)
    (hs : sub ∈ forest.flatMap parts) : SplicesAt forest sub :=
  splicesAt_of_forall hnd hs fun _ _ => splicesAt_singleton

theorem mem_parts_replace {forest : List Branch} {sub : Branch} (hs : sub ∈ forest.flatMap parts)
    (new : Branch) : new ∈ (forest.map (replace sub.handle new)).flatMap parts := by
  obtain ⟨b, hb, hsub⟩ := List.mem_flatMap.1 hs
  refine List.mem_flatMap.2 ⟨_, List.mem_map_of_mem hb, ?_⟩
  clear hb hs
  induction b using induct with
  | node x data cs ih =>
    rw [replace_node]
    split
    · exact new.self_mem_parts
    · next hx =>
      rw [parts_node, List.mem_cons, List.mem_flatMap] at hsub ⊢
      rcases hsub with rfl | ⟨c, hc, hsub⟩
      · exact absurd rfl hx
      · exact .inr ⟨_, List.mem_map_of_mem hc, ih c hc hsub⟩

theorem splicesAt_sublist {forest : List Branch} {sub : Branch} (hnd : (forest.flatMap handles).Nodup)
    (hs : sub ∈ forest.flatMap parts) : sub.handles.Sublist (forest.flatMap handles) := by
  obtain ⟨pre, post, heq, -⟩ := splicesAt hnd hs
  rw [heq]
  exact (List.sublist_append_left ..).trans (List.sublist_append_right ..)

/-- The handles outside of a branch. -/
theorem exists_perm_of_mem_parts {forest : List Branch} {sub : Branch}
    (hnd : (forest.flatMap handles).Nodup) (hs : sub ∈ forest.flatMap parts) :
    ∃ rest, (forest.flatMap handles).Perm (sub.handles ++ rest) := by
  obtain ⟨pre, post, heq, -⟩ := splicesAt hnd hs
  refine ⟨pre ++ post, heq ▸ ?_⟩
  rw [← List.append_assoc, ← List.append_assoc]
  exact List.perm_append_comm.append_right _

theorem perm_replace {forest : List Branch} {sub : Branch} (hnd : (forest.flatMap handles).Nodup)
    (hs : sub ∈ forest.flatMap parts) {rest : List NodeId}
    (hperm : (forest.flatMap handles).Perm (sub.handles ++ rest)) (new : Branch) :
    ((forest.map (replace sub.handle new)).flatMap handles).Perm (new.handles ++ rest) := by
  obtain ⟨pre, post, hold, hreplaced⟩ := splicesAt hnd hs
  have hmiddle : ∀ mid, (pre ++ (mid ++ post)).Perm (mid ++ (pre ++ post)) := fun mid => by
    rw [← List.append_assoc, ← List.append_assoc]
    exact List.perm_append_comm.append_right _
  have hsame : (pre ++ post).Perm rest :=
    (List.perm_append_left_iff sub.handles).1 ((hmiddle sub.handles).symm.trans (hold ▸ hperm))
  rw [hreplaced]
  exact (hmiddle new.handles).trans (hsame.append_left _)

end Branch

namespace Tree

open Branch

variable {t t' : Tree} {parent : Option NodeId}

/-- A tree that has changed at a branch only holds what the branch has become. -/
theorem Holds.replace {b sub new : Branch} (h : t.Holds parent b) (hnd : b.handles.Nodup)
    (hs : sub ∈ b.parts) (hid : new.handle = sub.handle)
    (hnew : ∀ p, t.Holds p sub → t'.Holds p new)
    (hrest : ∀ x ∈ b.handles, x ∉ sub.handles → t'.get? x = t.get? x) :
    t'.Holds parent (replace sub.handle new b) := by
  induction b using Branch.induct generalizing parent with
  | node x data cs ih =>
    rw [handles_node] at hnd hrest
    obtain ⟨hx, hcs⟩ := List.nodup_cons.1 hnd
    rw [parts_node, List.mem_cons] at hs
    rcases hs with rfl | hs
    · simpa [handle] using hnew parent h
    · obtain ⟨c, hc, hsc⟩ := List.mem_flatMap.1 hs
      have hmem : ∀ y ∈ sub.handles, y ∈ cs.flatMap handles := fun y hy =>
        List.mem_flatMap.2 ⟨c, hc, handles_subset_of_mem_parts hsc hy⟩
      have hne : x ≠ sub.handle := fun he => hx (he ▸ hmem _ sub.handle_mem_handles)
      rw [replace_node, if_neg hne]
      refine holds_node.2 ⟨?_, fun d' hd' => ?_⟩
      · rw [hrest x (by simp) (fun hm => hx (hmem x hm)), (holds_node.1 h).1, List.map_map]
        simp [Function.comp_def, handle_replace hid]
      · obtain ⟨d, hd, rfl⟩ := List.mem_map.1 hd'
        have hin : ∀ y ∈ d.handles, y ∈ x :: cs.flatMap handles := fun y hy =>
          List.mem_cons_of_mem _ (List.mem_flatMap.2 ⟨d, hd, hy⟩)
        by_cases hsd : sub ∈ d.parts
        · refine ih d hd (h.child hd) ?_ hsd fun y hy => hrest y (hin y hy)
          exact (List.nodup_flatMap.1 hcs).1 d hd
        · -- a handle of another child is in no part of this one
          have hapart : ∀ y ∈ d.handles, y ∉ sub.handles := by
            intro y hy hys
            have hcd : c ≠ d := fun he => hsd (he ▸ hsc)
            exact disjoint_handles hcs hc hd hcd (handles_subset_of_mem_parts hsc hys) hy
          rw [replace_of_notMem new fun hm => hapart _ hm sub.handle_mem_handles]
          exact (h.child hd).congr fun y hy => hrest y (hin y hy) (hapart y hy)

/-- The same for all trees of a forest. -/
theorem holds_replace {forest : List Branch} {sub new : Branch} (h : ∀ b ∈ forest, t.Holds parent b)
    (hnd : (forest.flatMap handles).Nodup) (hs : sub ∈ forest.flatMap parts)
    (hid : new.handle = sub.handle) (hnew : ∀ p, t.Holds p sub → t'.Holds p new)
    (hrest : ∀ x ∈ forest.flatMap handles, x ∉ sub.handles → t'.get? x = t.get? x) :
    ∀ b ∈ forest.map (Branch.replace sub.handle new), t'.Holds parent b := by
  intro b' hb'
  obtain ⟨b, hb, rfl⟩ := List.mem_map.1 hb'
  have hout : ∀ x ∈ b.handles, x ∉ sub.handles → t'.get? x = t.get? x := fun x hx =>
    hrest x (List.mem_flatMap.2 ⟨b, hb, hx⟩)
  by_cases hsb : sub ∈ b.parts
  · exact (h b hb).replace ((List.nodup_flatMap.1 hnd).1 b hb) hsb hid hnew hout
  · -- the branch is that of another tree of the forest
    obtain ⟨c, hc, hsc⟩ := List.mem_flatMap.1 hs
    have hapart : ∀ x ∈ b.handles, x ∉ sub.handles := fun x hx hxs =>
      disjoint_handles hnd hc hb (fun he => hsb (he ▸ hsc)) (handles_subset_of_mem_parts hsc hxs) hx
    rw [replace_of_notMem new fun hm => hapart _ hm sub.handle_mem_handles]
    exact (h b hb).congr fun x hx => hout x hx (hapart x hx)

end Tree

end ViewBinding
