import ViewBinding.Proofs.Tree.Control
import ViewBinding.Proofs.Tree.Edit
import ViewBinding.Proofs.Tree.Lineage

/-! Layouts: which nodes a tree consists of and how they lie in one another, whatever data they have. The operations on
a page that has one list below the document are followed exactly, up to the handles of new nodes. -/
namespace ViewBinding

namespace Branch

/-- A branch of which only the handles count. -/
def bare (id : NodeId) (cs : List Branch) : Branch := .node id .document cs

@[simp] theorem handle_bare (id : NodeId) (cs : List Branch) : (bare id cs).handle = id := rfl

@[simp] theorem children_bare (id : NodeId) (cs : List Branch) : (bare id cs).children = cs := rfl

@[simp] theorem handles_bare (id : NodeId) (cs : List Branch) : (bare id cs).handles = id :: cs.flatMap handles :=
  handles_node ..

@[simp] theorem parts_bare (id : NodeId) (cs : List Branch) : (bare id cs).parts = bare id cs :: cs.flatMap parts :=
  parts_node ..

@[simp] theorem relabel_bare (f : NodeId → NodeData) (id : NodeId) (cs : List Branch) :
    (bare id cs).relabel f = .node id (f id) (cs.map (relabel f)) :=
  relabel_node ..

theorem relabel_relabel (f g : NodeId → NodeData) (b : Branch) : (b.relabel f).relabel g = b.relabel g := by
  induction b using induct with
  | node id data cs ih =>
    simp only [relabel_node, List.map_map, node.injEq, true_and]
    exact List.map_congr_left ih

theorem relabel_comp_relabel (f g : NodeId → NodeData) : relabel g ∘ relabel f = relabel g :=
  funext fun b => relabel_relabel f g b

theorem handle_comp_relabel (f : NodeId → NodeData) : handle ∘ relabel f = handle :=
  funext fun b => handle_relabel f b

theorem parts_relabel (f : NodeId → NodeData) (b : Branch) : (b.relabel f).parts = b.parts.map (relabel f) := by
  induction b using induct with
  | node id data cs ih =>
    rw [relabel_node, parts_node, parts_node, List.map_cons, relabel_node, List.flatMap_map, List.map_flatMap]
    exact congrArg _ (List.flatMap_congr ih)

theorem children_relabel (f : NodeId → NodeData) (b : Branch) :
    (b.relabel f).children = b.children.map (relabel f) := by
  cases b
  rw [relabel_node, children_node, children_node]

theorem size_relabel (f : NodeId → NodeData) (b : Branch) : (b.relabel f).size = b.size := by
  rw [size, parts_relabel, List.length_map, size]

end Branch

namespace Tree

open Branch

variable {t t' : Tree} {layout : List Branch} {a b c : Branch} {x : NodeId}

/-- A tree says what data the nodes of its branches have. -/
theorem Holds.relabel_data {parent : Option NodeId} {b : Branch} (h : t.Holds parent b) : b.relabel t.data = b := by
  induction b using Branch.induct generalizing parent with
  | node id data cs ih =>
    rw [relabel_node, node.injEq]
    refine ⟨rfl, by simp [Tree.data, (holds_node.1 h).1], ?_⟩
    exact (List.map_congr_left fun c hc => ih c hc (h.child hc)).trans (List.map_id _)

/-- A tree spells out one branch at most at a node. -/
theorem Holds.unique {p q : Option NodeId} {a b : Branch} (ha : t.Holds p a) (hb : t.Holds q b)
    (he : a.handle = b.handle) : a = b := by
  induction a using Branch.induct generalizing p q b with
  | node id data cs ih =>
    obtain ⟨id', data', cs'⟩ := b
    obtain rfl : id = id' := he
    have hget := (holds_node.1 ha).1.symm.trans (holds_node.1 hb).1
    simp only [Option.some.injEq, Slot.mk.injEq] at hget
    obtain ⟨-, -, hcs, rfl⟩ := hget
    refine congrArg _ (List.ext_getElem (by simpa using congrArg List.length hcs) fun i hi hi' => ?_)
    refine ih _ (List.getElem_mem hi) (ha.child (List.getElem_mem hi)) (hb.child (List.getElem_mem hi')) ?_
    have hh := List.getElem_of_eq hcs (by simpa using hi)
    rwa [List.getElem_map, List.getElem_map] at hh

/-- The tree consists of branches with the handles of a layout. -/
def LaidOut (t : Tree) (layout : List Branch) : Prop := t.Represents (layout.map (relabel t.data))

theorem Represents.laidOut (h : t.Represents layout) : t.LaidOut layout := by
  rw [LaidOut, List.map_congr_left fun b hb => (h.holds b hb).relabel_data, List.map_id']
  exact h

namespace LaidOut

theorem wellFormed (h : t.LaidOut layout) : t.WellFormed := ⟨_, h⟩

theorem congr {layout' : List Branch} (h : t.LaidOut layout)
    (he : ∀ f, layout.map (relabel f) = layout'.map (relabel f)) : t.LaidOut layout' := by
  rw [LaidOut, ← he]
  exact h

/-- The layout of a tree does not depend on the data. -/
theorem sameShape (h : t.LaidOut layout) (hs : SameShape t t') : t'.LaidOut layout := by
  have hr := hs.represents h
  rwa [List.map_map, relabel_comp_relabel] at hr

theorem flatMap_handles (f : NodeId → NodeData) (layout : List Branch) :
    (layout.map (relabel f)).flatMap handles = layout.flatMap handles := by
  rw [List.flatMap_map]
  exact List.flatMap_congr fun b _ => handles_relabel f b

theorem nodup (h : t.LaidOut layout) : (layout.flatMap handles).Nodup := by
  rw [← flatMap_handles t.data]
  exact Represents.nodup h

theorem inUse_iff (h : t.LaidOut layout) : t.InUse x ↔ x ∈ layout.flatMap handles := by
  rw [← flatMap_handles t.data]
  exact (Represents.mem_handles_iff h).symm

theorem mem_parts (f : NodeId → NodeData) (hs : b ∈ layout.flatMap parts) :
    b.relabel f ∈ (layout.map (relabel f)).flatMap parts := by
  obtain ⟨top, htop, hb⟩ := List.mem_flatMap.1 hs
  refine List.mem_flatMap.2 ⟨top.relabel f, List.mem_map_of_mem htop, ?_⟩
  rw [parts_relabel]
  exact List.mem_map_of_mem hb

theorem holds (h : t.LaidOut layout) (hs : b ∈ layout.flatMap parts) : ∃ p, t.Holds p (b.relabel t.data) :=
  Represents.part h (mem_parts _ hs)

theorem children (h : t.LaidOut layout) (hs : b ∈ layout.flatMap parts) :
    t.children b.handle = b.children.map Branch.handle := by
  obtain ⟨p, hp⟩ := h.holds hs
  have hc := hp.children
  rwa [handle_relabel, children_relabel, List.map_map, handle_comp_relabel] at hc

theorem parent? (h : t.LaidOut layout) (hup : a ∈ layout.flatMap parts) (hc : b ∈ a.children) :
    t.parent? b.handle = some a.handle := by
  refine h.wellFormed.mem_children_iff.1 ?_
  rw [h.children hup]
  exact List.mem_map_of_mem hc

theorem preorder (h : t.LaidOut layout) (hs : b ∈ layout.flatMap parts) : t.preorder b.handle = b.handles := by
  have hp := Represents.preorder h (mem_parts _ hs)
  rwa [handle_relabel, handles_relabel] at hp

theorem size_le (h : t.LaidOut layout) (hs : b ∈ layout.flatMap parts) : b.size ≤ t.slots.size := by
  rw [← size_relabel t.data]
  exact Represents.size_le h (mem_parts _ hs)

theorem inUse (h : t.LaidOut layout) (hs : b ∈ layout.flatMap parts) (hx : x ∈ b.handles) : t.InUse x :=
  Represents.inUse_of_mem h (mem_parts _ hs) (by rwa [handles_relabel])

/-- An element with one element in it is copied with its content. -/
theorem copy_pair {y : NodeId} {e e' : Markup.Element} (h : t.LaidOut layout)
    (hs : bare x [bare y []] ∈ layout.flatMap parts) (hx : t.element? x = some e) (hy : t.element? y = some e') :
    ∃ a b t', t.copy x = .ok (a, t') ∧ t'.LaidOut (bare a [bare b []] :: layout) ∧ t'.element? a = some e ∧
      t'.element? b = some e' ∧ (∀ z, t.InUse z → t'.element? z = t.element? z) ∧ ¬ t.InUse a ∧ ¬ t.InUse b := by
  obtain ⟨p, hp⟩ := h.holds hs
  have hdata : ∀ {z e}, t.element? z = some e → t.data z = .element e := fun {z e} hz => by
    obtain ⟨s, hs, he⟩ := Option.bind_eq_some_iff.1 hz
    rw [Tree.data, hs, Option.map_some, Option.getD_some]
    revert he
    cases s.data <;> simp [NodeData.element?]
  have hget := hp.get?
  simp only [relabel_bare, List.map_cons, List.map_nil, handle_node, children_node, data_node, hdata hx, hdata hy]
    at hget
  have hcontent : t.content x = [.element e [.element e' []]] := by
    have hc := Represents.content h (mem_parts t.data hs)
    simpa [hdata hx, hdata hy, Branch.content, contentAll] using hc
  obtain ⟨⟨c, t'⟩, hcopy⟩ : ∃ r, t.copy x = .ok r :=
    ⟨t.place none (.element e [.element e' []]), by rw [Tree.copy, hget, hcontent]⟩
  obtain ⟨made, rfl, ⟨m, hm, hspells⟩, -, hr, hkept, hfresh, -⟩ := copy_spec h hcopy
  rw [hcontent, List.head?_cons, Option.some.injEq] at hm
  subst hm
  obtain ⟨a, cs, rfl, b, ds, rfl, ⟨b, es, rfl, rfl⟩, rfl⟩ := hspells
  have hholds := hr.holds _ (List.mem_cons_self ..)
  refine ⟨a, b, t', hcopy, ?_, hholds.element?,
    (hholds.child (List.mem_cons_self ..)).element?, fun z hz => ?_, hfresh a (by simp), hfresh b (by simp)⟩
  · refine hr.laidOut.congr fun f => ?_
    simp [relabel_relabel]
  · rw [Tree.element?, hkept z hz, Tree.element?]

end LaidOut

/-- Where a member of a list without duplicates stands is settled by its key. -/
theorem append_cons_inj {α β : Type} {key : α → β} {pre post pre' post' : List α} {a b : α}
    (hnd : ((pre' ++ b :: post').map key).Nodup) (he : pre ++ a :: post = pre' ++ b :: post') (hk : key a = key b) :
    pre = pre' ∧ a = b ∧ post = post' := by
  induction pre generalizing pre' with
  | nil =>
    cases pre' with
    | nil =>
      obtain ⟨rfl, rfl⟩ := List.cons.inj he
      exact ⟨rfl, rfl, rfl⟩
    | cons x pre' =>
      obtain ⟨rfl, -⟩ := List.cons.inj he
      exact absurd (by simp [hk]) (List.nodup_cons.1 hnd).1
  | cons x pre ih =>
    cases pre' with
    | nil =>
      obtain ⟨rfl, rfl⟩ := List.cons.inj he
      exact absurd (by simp [← hk]) (List.nodup_cons.1 hnd).1
    | cons y pre' =>
      obtain ⟨rfl, htail⟩ := List.cons.inj he
      obtain ⟨rfl, hrest⟩ := ih (List.nodup_cons.1 hnd).2 htail
      exact ⟨rfl, hrest⟩

/-- A document with one node below it and the branches of that node. -/
def listing (list : NodeId) (kids : List Branch) : Branch := bare root [bare list kids]

theorem mem_parts_listing (list : NodeId) (kids : List Branch) : bare list kids ∈ (listing list kids).parts := by
  simp [listing]

namespace LaidOut

variable {list : NodeId} {kids pre post : List Branch} {k : Branch}

/-- A tree beside the document is not where the list is. -/
theorem not_mem_ancestors (h : t.LaidOut [c, listing list kids]) : c.handle ∉ list :: t.ancestors list := by
  intro hc
  have hlist : bare list kids ∈ [c, listing list kids].flatMap parts := by simp [listing]
  have hin := (h.wellFormed.mem_preorder_iff (h.inUse (b := c) (by simp [c.self_mem_parts]) c.handle_mem_handles)).2 hc
  rw [h.preorder (by simp [c.self_mem_parts])] at hin
  have hnd := h.nodup
  simp only [List.flatMap_cons, List.flatMap_nil, List.append_nil] at hnd
  refine (List.nodup_append.1 hnd).2.2 list hin list ?_ rfl
  exact handles_subset_of_mem_parts (mem_parts_listing list kids) (by simp)

theorem root_ne (layout : List Branch) (h : t.LaidOut (layout ++ [listing list kids])) : root ≠ list := by
  have hnd := h.nodup
  rw [List.flatMap_append, List.flatMap_singleton] at hnd
  have hdocument := (List.nodup_append.1 hnd).2.1
  simp only [listing, handles_bare, List.flatMap_singleton, List.nodup_cons, List.mem_cons, not_or] at hdocument
  exact hdocument.1.1

/-- What is below the list, with its data, is known once one of the branches is found there. -/
theorem list_eq (h : t.LaidOut layout) (hlist : bare list (pre ++ k :: post) ∈ layout.flatMap parts) {d : NodeData}
    {pre' post' : List Branch} {b : Branch} {p : Option NodeId} (hold : t.Holds p (.node list d (pre' ++ b :: post')))
    (hb : b.handle = k.handle) :
    d = t.data list ∧ pre' = pre.map (relabel t.data) ∧ b = k.relabel t.data ∧ post' = post.map (relabel t.data) := by
  obtain ⟨q, hq⟩ := h.holds hlist
  have heq := hold.unique hq rfl
  have hnd := Represents.nodup_of_mem_parts h (mem_parts t.data hlist)
  rw [relabel_bare, handles_node, List.nodup_cons] at hnd
  rw [relabel_bare, node.injEq, List.map_append, List.map_cons] at heq
  rw [List.map_append, List.map_cons] at hnd
  exact ⟨heq.2.1, append_cons_inj (nodup_map_handle hnd.2) heq.2.2 (by rw [hb, handle_relabel])⟩

/-- Putting other branches below the list. -/
theorem of_replace (hroot : root ≠ list) {f : NodeId → NodeData} {d : NodeData} {new kids' : List Branch}
    (h : t.Represents ([(listing list kids).relabel f].map (Branch.replace list (.node list d new))))
    (hnew : ∀ g, new.map (relabel g) = kids'.map (relabel g)) : t.LaidOut [listing list kids'] := by
  refine h.laidOut.congr fun g => ?_
  simp [listing, hroot, hnew]

/-- A tree beside the document becomes the last branch of the list. -/
theorem insertAfter_last (h : t.LaidOut [c, listing list (kids ++ [k])]) :
    ∃ t', t.insertAfter k.handle c.handle = .ok t' ∧ t'.LaidOut [listing list (kids ++ [k, c])] ∧
      ∀ x, t.InUse x → t'.element? x = t.element? x := by
  have hlist : bare list (kids ++ [k]) ∈ [c, listing list (kids ++ [k])].flatMap parts := by simp [listing]
  have hparent : t.parent? k.handle = some list := h.parent? hlist (by simp)
  have hnd := h.nodup
  simp only [List.flatMap_cons, List.flatMap_nil, List.append_nil] at hnd
  have hapart := (List.nodup_append.1 hnd).2.2 _ c.handle_mem_handles
  have hcroot : c.handle ≠ root := hapart _ (by simp [listing])
  have hck : c.handle ≠ k.handle := hapart _ (by simp [listing, k.handle_mem_handles])
  have hlive : t.isLive c.handle = true :=
    (h.inUse (b := c) (by simp [c.self_mem_parts]) c.handle_mem_handles).1
  obtain ⟨t', ht'⟩ : ∃ t', t.insertAfter k.handle c.handle = .ok t' := by
    unfold Tree.insertAfter
    rw [hparent]
    simp only [List.contains_iff_mem, h.not_mem_ancestors, hcroot, hck, hlive]
    exact ⟨_, rfl⟩
  refine ⟨t', ht', ?_⟩
  have hr : t.Represents (c.relabel t.data :: [(listing list (kids ++ [k])).relabel t.data]) := h
  obtain ⟨p, d, pre, post, tb, htb, hp, hreshaped, hchild, hbelow, -⟩ :=
    insertAfter_spec hr (by simpa using hcroot) (by simpa using ht')
  obtain rfl : p = list := Option.some.inj (hp.symm.trans hparent)
  obtain ⟨rfl, rfl, rfl, rfl⟩ := h.list_eq hlist hreshaped.held htb
  constructor
  · refine of_replace (root_ne [c] h) hreshaped.represents fun g => ?_
    simp [relabel_relabel, relabel_comp_relabel]
  · intro x hx
    rcases List.mem_append.1 (by simpa using h.inUse_iff.1 hx) with hc | hrest
    · by_cases he : x = c.handle
      · rw [handle_relabel, ← he] at hchild
        rw [Tree.element?, hchild, Tree.element?]
        cases t.get? x <;> rfl
      · rw [Tree.element?, hbelow x (by simpa using hc) (by simpa using he), Tree.element?]
    · exact hreshaped.element? (by simpa using hrest) (by simp)

/-- A branch of the list is taken away. -/
theorem remove_kid (h : t.LaidOut [listing list (pre ++ k :: post)]) :
    ∃ t', t.remove k.handle = .ok t' ∧ t'.LaidOut [listing list (pre ++ post)] ∧
      ∀ x, t.InUse x → x ∉ k.handles → t'.element? x = t.element? x := by
  have hlist : bare list (pre ++ k :: post) ∈ [listing list (pre ++ k :: post)].flatMap parts := by simp [listing]
  have hparent : t.parent? k.handle = some list := h.parent? hlist (by simp)
  have hkroot : k.handle ≠ root := fun he => by
    rw [he, h.wellFormed.parent?_root] at hparent
    cases hparent
  obtain ⟨t', ht'⟩ : ∃ t', t.remove k.handle = .ok t' := by
    rw [Tree.remove, if_neg hkroot]
    exact ⟨_, rfl⟩
  refine ⟨t', ht', ?_⟩
  have hr : t.Represents [(listing list (pre ++ k :: post)).relabel t.data] := h
  obtain ⟨d, pre', post', sub, hsub, hreshaped, -⟩ := remove_spec hr hparent ht'
  obtain ⟨rfl, rfl, rfl, rfl⟩ := h.list_eq hlist hreshaped.held hsub
  constructor
  · refine of_replace (root_ne [] h) hreshaped.represents fun g => ?_
    simp [relabel_comp_relabel]
  · intro x hx hk
    exact hreshaped.element? (by simpa using h.inUse_iff.1 hx) (by simpa using hk)

end LaidOut

end Tree

end ViewBinding
