import Mathlib.Tactic
import ViewBinding.Property

/-! Branches: nodes with all that is below them, as trees in their own right. `Tree.Holds` says that the
slots of a tree spell out a branch; every walk through the tree then is a recursion on the branch. -/
namespace ViewBinding

/-- A node with all that is below it. -/
inductive Branch where
  | node (handle : NodeId) (data : NodeData) (children : List Branch)

namespace Branch

def handle : Branch → NodeId
  | .node id _ _ => id

def data : Branch → NodeData
  | .node _ data _ => data

def children : Branch → List Branch
  | .node _ _ cs => cs

@[simp] theorem handle_node (id : NodeId) (data : NodeData) (cs : List Branch) :
    (node id data cs).handle = id := rfl

@[simp] theorem data_node (id : NodeId) (data : NodeData) (cs : List Branch) :
    (node id data cs).data = data := rfl

@[simp] theorem children_node (id : NodeId) (data : NodeData) (cs : List Branch) :
    (node id data cs).children = cs := rfl

/-- Branches are built from branches that are there already. -/
theorem induct {P : Branch → Prop} (node : ∀ id data cs, (∀ c ∈ cs, P c) → P (.node id data cs))
    (b : Branch) : P b :=
  @Branch.rec P (fun cs => ∀ c ∈ cs, P c) node (by simp)
    (fun _ _ hc hcs => List.forall_mem_cons.2 ⟨hc, hcs⟩) b

mutual

/-- The branch itself and the branches below it, in document order. -/
def parts : Branch → List Branch
  | .node id data cs => .node id data cs :: partsAll cs

def partsAll : List Branch → List Branch
  | [] => []
  | c :: cs => c.parts ++ partsAll cs

end

theorem partsAll_eq (cs : List Branch) : partsAll cs = cs.flatMap parts := by
  induction cs with
  | nil => rfl
  | cons c cs ih => simp [partsAll, ih]

@[simp] theorem parts_node (id : NodeId) (data : NodeData) (cs : List Branch) :
    (node id data cs).parts = .node id data cs :: cs.flatMap parts := by
  rw [parts, partsAll_eq]

theorem self_mem_parts (b : Branch) : b ∈ b.parts := by cases b; simp

theorem parts_trans {a b c : Branch} (hab : a ∈ b.parts) (hbc : b ∈ c.parts) : a ∈ c.parts := by
  induction c using induct with
  | node id data cs ih =>
    rw [parts_node, List.mem_cons, List.mem_flatMap] at hbc ⊢
    rcases hbc with rfl | ⟨d, hd, hb⟩
    · simpa using hab
    · exact .inr ⟨d, hd, ih d hd hb⟩

theorem mem_parts_of_mem_children {b c : Branch} (h : c ∈ b.children) : c ∈ b.parts := by
  obtain ⟨id, data, cs⟩ := b
  rw [parts_node]
  exact List.mem_cons_of_mem _ (List.mem_flatMap.2 ⟨c, h, c.self_mem_parts⟩)

/-- A part is the whole branch or a child of another part. -/
theorem eq_or_mem_children {a b : Branch} (h : a ∈ b.parts) :
    a = b ∨ ∃ up ∈ b.parts, a ∈ up.children := by
  induction b using induct with
  | node id data cs ih =>
    rw [parts_node, List.mem_cons, List.mem_flatMap] at h
    rcases h with rfl | ⟨c, hc, ha⟩
    · exact .inl rfl
    · refine .inr ?_
      rcases ih c hc ha with rfl | ⟨up, hup, hau⟩
      · exact ⟨.node id data cs, self_mem_parts _, hc⟩
      · exact ⟨up, parts_trans hup (mem_parts_of_mem_children hc), hau⟩

/-- The handles of a branch, in document order. -/
def handles (b : Branch) : List NodeId := b.parts.map handle

def size (b : Branch) : Nat := b.parts.length

@[simp] theorem handles_node (id : NodeId) (data : NodeData) (cs : List Branch) :
    (node id data cs).handles = id :: cs.flatMap handles := by
  simp only [handles, parts_node, List.map_cons, List.map_flatMap, handle]
  rfl

/-- A branch among the children adds its own nodes. -/
theorem perm_handles_node (id : NodeId) (data : NodeData) (pre post : List Branch) (sub : Branch) :
    (handles (.node id data (pre ++ sub :: post))).Perm (sub.handles ++ handles (.node id data (pre ++ post))) := by
  refine List.perm_iff_count.2 fun x => ?_
  simp only [handles_node, List.flatMap_append, List.flatMap_cons, List.count_append, List.count_cons]
  omega

@[simp] theorem length_handles (b : Branch) : b.handles.length = b.size := by
  simp [handles, size]

theorem handle_mem_handles (b : Branch) : b.handle ∈ b.handles :=
  List.mem_map_of_mem b.self_mem_parts

theorem handles_subset_of_mem_parts {a b : Branch} (h : a ∈ b.parts) : a.handles ⊆ b.handles := by
  intro x hx
  obtain ⟨c, hc, rfl⟩ := List.mem_map.1 hx
  exact List.mem_map_of_mem (parts_trans hc h)

theorem size_pos (b : Branch) : 0 < b.size := by cases b; simp [size]

theorem size_lt_of_mem {id : NodeId} {data : NodeData} {c : Branch} {cs : List Branch} (h : c ∈ cs) :
    c.size < (node id data cs).size := by
  have hsum := List.le_sum_of_mem (List.mem_map_of_mem (f := fun b => b.parts.length) h)
  simp only [size, parts_node, List.length_cons, List.length_flatMap] at hsum ⊢
  omega

theorem size_le_of_mem_parts {a b : Branch} (h : a ∈ b.parts) : a.size ≤ b.size := by
  induction b using induct with
  | node id data cs ih =>
    rw [parts_node, List.mem_cons, List.mem_flatMap] at h
    rcases h with rfl | ⟨c, hc, ha⟩
    · exact le_rfl
    · exact (ih c hc ha).trans (size_lt_of_mem hc).le

theorem nodup_map_handle {bs : List Branch} (h : (bs.flatMap handles).Nodup) : (bs.map handle).Nodup := by
  induction bs with
  | nil => simp
  | cons b bs ih =>
    rw [List.flatMap_cons] at h
    obtain ⟨-, hbs, hdisjoint⟩ := List.nodup_append.1 h
    refine List.nodup_cons.2 ⟨fun hm => ?_, ih hbs⟩
    obtain ⟨c, hc, hcb⟩ := List.mem_map.1 hm
    refine hdisjoint b.handle b.handle_mem_handles c.handle ?_ hcb.symm
    exact List.mem_flatMap.2 ⟨c, hc, c.handle_mem_handles⟩

/-- The node on top of a branch is nobody's child in it. -/
theorem ne_handle_of_mem_children {b up c : Branch} (h : b.handles.Nodup) (hup : up ∈ b.parts)
    (hc : c ∈ up.children) : c.handle ≠ b.handle := by
  obtain ⟨id, data, cs⟩ := b
  rw [handles_node, List.nodup_cons] at h
  intro he
  rw [handle_node] at he
  refine h.1 (he ▸ ?_)
  rw [parts_node, List.mem_cons] at hup
  rcases hup with rfl | hup
  · exact List.mem_flatMap.2 ⟨c, hc, c.handle_mem_handles⟩
  · obtain ⟨d, hd, hup⟩ := List.mem_flatMap.1 hup
    exact List.mem_flatMap.2 ⟨d, hd,
      List.mem_map_of_mem (parts_trans (mem_parts_of_mem_children hc) hup)⟩

mutual

/-- A branch as markup; the document is what is in it. -/
def content : Branch → List Markup
  | .node _ .document cs => contentAll cs
  | .node _ (.text s) _ => [.text s]
  | .node _ (.element e) cs => [.element e (contentAll cs)]

def contentAll : List Branch → List Markup
  | [] => []
  | c :: cs => c.content ++ contentAll cs

end

theorem contentAll_eq (cs : List Branch) : contentAll cs = cs.flatMap content := by
  induction cs with
  | nil => rfl
  | cons c cs ih => simp [contentAll, ih]

/-- The elements of a branch, in document order. -/
def elements (b : Branch) : List Markup.Element := b.parts.filterMap (·.data.element?)

@[simp] theorem elements_node (id : NodeId) (data : NodeData) (cs : List Branch) :
    (node id data cs).elements = data.element?.toList ++ cs.flatMap elements := by
  rw [elements, parts_node, List.filterMap_cons, List.filterMap_flatMap, data_node]
  cases data.element? <;> rfl

end Branch

theorem Markup.elementsOf_eq (ms : List Markup) : elementsOf ms = ms.flatMap elements := by
  induction ms with
  | nil => rfl
  | cons m ms ih => simp [elementsOf, ih]

/-- What reads as an element of a branch is one of its elements. -/
theorem Branch.mem_elements_of_content {b : Branch} {e : Markup.Element}
    (h : e ∈ (Markup.elementsOf b.content).map (·.1)) : e ∈ b.elements := by
  induction b using Branch.induct with
  | node id data cs ih =>
    have hbelow : e ∈ (Markup.elementsOf (Branch.contentAll cs)).map (·.1) → e ∈ cs.flatMap Branch.elements := by
      rw [Branch.contentAll_eq, Markup.elementsOf_eq, List.flatMap_assoc, List.map_flatMap, List.mem_flatMap]
      rintro ⟨c, hc, he⟩
      exact List.mem_flatMap.2 ⟨c, hc, ih c hc (by rwa [Markup.elementsOf_eq])⟩
    rw [Branch.elements_node]
    cases data with
    | document => exact List.mem_append_right _ (hbelow h)
    | text s => simp [Branch.content, Markup.elementsOf, Markup.elements] at h
    | element e' =>
      simp only [Branch.content, Markup.elementsOf, Markup.elements, List.append_nil, List.map_cons,
        List.mem_cons] at h
      rcases h with rfl | h
      · exact List.mem_append_left _ (by simp [NodeData.element?])
      · exact List.mem_append_right _ (hbelow h)

namespace Branch

mutual

/-- A branch that has been made of markup. -/
def Spells : Markup → Branch → Prop
  | .text s, b => ∃ id, b = .node id (.text s) []
  | .element e ms, b => ∃ id cs, b = .node id (.element e) cs ∧ SpellsAll ms cs

def SpellsAll : List Markup → List Branch → Prop
  | [], bs => bs = []
  | m :: ms, bs => ∃ c cs, bs = c :: cs ∧ Spells m c ∧ SpellsAll ms cs

end

mutual

theorem Spells.content {m : Markup} {b : Branch} (h : Spells m b) : b.content = [m] := by
  cases m with
  | text s =>
    obtain ⟨id, rfl⟩ := h
    rfl
  | element e ms =>
    obtain ⟨id, cs, rfl, hcs⟩ := h
    rw [Branch.content, contentAll_eq, hcs.content]

theorem SpellsAll.content {ms : List Markup} {bs : List Branch} (h : SpellsAll ms bs) :
    bs.flatMap Branch.content = ms := by
  cases ms with
  | nil =>
    obtain rfl : bs = [] := h
    rfl
  | cons m ms =>
    obtain ⟨c, cs, rfl, hc, hcs⟩ := h
    rw [List.flatMap_cons, hc.content, hcs.content]
    rfl

end

mutual

theorem Spells.elements {m : Markup} {b : Branch} (h : Spells m b) : b.elements = m.elements.map (·.1) := by
  cases m with
  | text s =>
    obtain ⟨id, rfl⟩ := h
    rfl
  | element e ms =>
    obtain ⟨id, cs, rfl, hcs⟩ := h
    rw [elements_node, hcs.elements]
    rfl

theorem SpellsAll.elements {ms : List Markup} {bs : List Branch} (h : SpellsAll ms bs) :
    bs.flatMap Branch.elements = (Markup.elementsOf ms).map (·.1) := by
  cases ms with
  | nil =>
    obtain rfl : bs = [] := h
    rfl
  | cons m ms =>
    obtain ⟨c, cs, rfl, hc, hcs⟩ := h
    rw [List.flatMap_cons, hc.elements, hcs.elements, Markup.elementsOf, List.map_append]

end

end Branch

namespace Tree

open Branch

mutual

/-- The slots of a tree spell out a branch whose node has the given parent. -/
def Holds (t : Tree) (parent : Option NodeId) : Branch → Prop
  | .node id data cs =>
    t.get? id = some ⟨id.generation, parent, cs.map Branch.handle, data⟩ ∧ HoldsAll t id cs

def HoldsAll (t : Tree) (parent : NodeId) : List Branch → Prop
  | [] => True
  | c :: cs => Holds t (some parent) c ∧ HoldsAll t parent cs

end

theorem holdsAll_iff {t : Tree} {parent : NodeId} {cs : List Branch} :
    HoldsAll t parent cs ↔ ∀ c ∈ cs, t.Holds (some parent) c := by
  induction cs with
  | nil => simp [HoldsAll]
  | cons c cs ih => simp [HoldsAll, ih]

theorem holds_node {t : Tree} {parent : Option NodeId} {id : NodeId} {data : NodeData}
    {cs : List Branch} :
    t.Holds parent (.node id data cs) ↔
      t.get? id = some ⟨id.generation, parent, cs.map Branch.handle, data⟩ ∧
        ∀ c ∈ cs, t.Holds (some id) c := by
  rw [Holds, holdsAll_iff]

variable {t t' : Tree} {parent : Option NodeId} {b c : Branch}

theorem Holds.get? (h : t.Holds parent b) :
    t.get? b.handle = some ⟨b.handle.generation, parent, b.children.map Branch.handle, b.data⟩ := by
  cases b
  exact (holds_node.1 h).1

theorem Holds.child (h : t.Holds parent b) (hc : c ∈ b.children) : t.Holds (some b.handle) c := by
  cases b
  exact (holds_node.1 h).2 c hc

/-- Every part of a branch is held by the tree. -/
theorem Holds.part (h : t.Holds parent b) (hc : c ∈ b.parts) : ∃ p, t.Holds p c := by
  induction b using Branch.induct generalizing parent with
  | node id data cs ih =>
    rw [parts_node, List.mem_cons, List.mem_flatMap] at hc
    rcases hc with rfl | ⟨d, hd, hc⟩
    · exact ⟨parent, h⟩
    · exact ih d hd (h.child hd) hc

/-- A branch is held by every tree that agrees on its handles. -/
theorem Holds.congr (h : t.Holds parent b) (heq : ∀ x ∈ b.handles, t'.get? x = t.get? x) :
    t'.Holds parent b := by
  induction b using Branch.induct generalizing parent with
  | node id data cs ih =>
    rw [handles_node] at heq
    rw [holds_node] at h ⊢
    refine ⟨by rw [heq id (by simp), h.1], fun c hc => ih c hc (h.2 c hc) fun x hx => heq x ?_⟩
    exact List.mem_cons_of_mem _ (List.mem_flatMap.2 ⟨c, hc, hx⟩)

theorem Holds.children (h : t.Holds parent b) : t.children b.handle = b.children.map Branch.handle := by
  simp [Tree.children, h.get?]

theorem Holds.parent? (h : t.Holds parent b) : t.parent? b.handle = parent := by
  simp [Tree.parent?, h.get?]

theorem Holds.element? (h : t.Holds parent b) : t.element? b.handle = b.data.element? := by
  simp [Tree.element?, h.get?]

theorem Holds.isLive (h : t.Holds parent b) : t.isLive b.handle = true := by
  simp [Tree.isLive, h.get?]

/-- Whoever is the parent of a node on the way up is met with one more step. -/
theorem mem_ancestorsWithin_succ {fuel : Nat} {x z p : NodeId} (hz : z ∈ x :: t.ancestorsWithin fuel x)
    (hp : t.parent? z = some p) : p ∈ t.ancestorsWithin (fuel + 1) x := by
  induction fuel generalizing x with
  | zero =>
    obtain rfl : z = x := by simpa [ancestorsWithin] using hz
    simp [ancestorsWithin, hp]
  | succ fuel ih =>
    rw [ancestorsWithin]
    rcases List.mem_cons.1 hz with rfl | hz
    · simp [hp]
    · rw [ancestorsWithin] at hz
      cases hx : t.parent? x with
      | none => simp [hx] at hz
      | some q =>
        rw [hx] at hz
        exact List.mem_cons_of_mem _ (ih hz)

/-- The way up from a part leads to the branch. -/
theorem Holds.mem_ancestorsWithin {sub : Branch} (h : t.Holds parent b) (hs : sub ∈ b.parts) {fuel : Nat}
    (hf : b.size ≤ fuel + sub.size) : b.handle ∈ sub.handle :: t.ancestorsWithin fuel sub.handle := by
  induction b using Branch.induct generalizing parent fuel with
  | node id data cs ih =>
    rw [parts_node, List.mem_cons, List.mem_flatMap] at hs
    rcases hs with rfl | ⟨c, hc, hs⟩
    · exact List.mem_cons_self ..
    · have hlt : c.size < (Branch.node id data cs).size := size_lt_of_mem hc
      have hle := size_le_of_mem_parts hs
      obtain _ | fuel := fuel
      · omega
      have hfuel : c.size ≤ fuel + sub.size := by omega
      have hup := ih c hc (h.child hc) hs hfuel
      exact List.mem_cons_of_mem _ (mem_ancestorsWithin_succ hup (h.child hc).parent?)

/-- Document order within a branch is the order of its parts. -/
theorem Holds.preorderWithin (h : t.Holds parent b) {fuel : Nat} (hf : b.size ≤ fuel) :
    t.preorderWithin fuel b.handle = b.handles := by
  induction b using Branch.induct generalizing parent fuel with
  | node id data cs ih =>
    obtain _ | fuel := fuel
    · exact absurd hf (by have := size_pos (.node id data cs); omega)
    rw [Tree.preorderWithin, h.children, handles_node]
    congr 1
    show List.flatMap _ (cs.map Branch.handle) = _
    rw [List.flatMap_map]
    refine List.flatMap_congr fun c hc => ih c hc (h.child hc) ?_
    have hlt : c.size < (Branch.node id data cs).size := size_lt_of_mem hc
    omega

theorem Holds.contentWithin (h : t.Holds parent b) {fuel : Nat} (hf : b.size ≤ fuel) :
    t.contentWithin fuel b.handle = b.content := by
  induction b using Branch.induct generalizing parent fuel with
  | node id data cs ih =>
    obtain _ | fuel := fuel
    · exact absurd hf (by have := size_pos (.node id data cs); omega)
    have hbelow : (cs.map Branch.handle).flatMap (t.contentWithin fuel) = contentAll cs := by
      rw [contentAll_eq, List.flatMap_map]
      refine List.flatMap_congr fun c hc => ih c hc (h.child hc) ?_
      have hlt : c.size < (Branch.node id data cs).size := size_lt_of_mem hc
      omega
    rw [Tree.contentWithin, h.get?]
    cases data with
    | document => simpa [Branch.content, Branch.children, Branch.data] using hbelow
    | text s => rfl
    | element e => simpa [Branch.content, Branch.children, Branch.data] using hbelow

end Tree

end ViewBinding
