import ViewBinding.Proofs.Tree.Rewrite

/-! Nodes lie in elements or in the document, never in text. It is so when a tree is made of markup, and stays so: what an edit
makes is made of markup or copied, and it is put where other children are or into an element. -/
namespace ViewBinding

namespace Branch

/-- Only elements and the document have children. -/
def Housed (b : Branch) : Prop := ∀ up ∈ b.parts, up.children ≠ [] → up.handle = Tree.root ∨ up.data.element?.isSome = true

theorem housed_node {id : NodeId} {data : NodeData} {cs : List Branch}
    (h : cs ≠ [] → id = Tree.root ∨ data.element?.isSome = true) (hcs : ∀ c ∈ cs, c.Housed) : Housed (.node id data cs) := by
  intro up hup hne
  rw [parts_node, List.mem_cons, List.mem_flatMap] at hup
  rcases hup with rfl | ⟨c, hc, hup⟩
  · exact h hne
  · exact hcs c hc up hup hne

mutual

theorem Spells.housed {m : Markup} {b : Branch} (h : Spells m b) : b.Housed := by
  cases m with
  | text s =>
    obtain ⟨id, rfl⟩ := h
    exact housed_node (fun hne => absurd rfl hne) (by simp)
  | element e ms =>
    obtain ⟨id, cs, rfl, hcs⟩ := h
    exact housed_node (fun _ => .inr rfl) hcs.housed

theorem SpellsAll.housed {ms : List Markup} {bs : List Branch} (h : SpellsAll ms bs) : ∀ b ∈ bs, b.Housed := by
  cases ms with
  | nil =>
    obtain rfl : bs = [] := h
    simp
  | cons m ms =>
    obtain ⟨c, cs, rfl, hc, hcs⟩ := h
    exact List.forall_mem_cons.2 ⟨hc.housed, hcs.housed⟩

end

end Branch

namespace Tree

open Branch

variable {t t' : Tree} {forest : List Branch} {id x up : NodeId}

/-- Whatever lies in a node lies in an element or in the document. -/
def Housed (t : Tree) : Prop := ∀ x up, t.parent? x = some up → up = root ∨ t.isElement up = true

/-- A node below the top of a branch has its parent there. -/
theorem Holds.housed {parent : Option NodeId} {b : Branch} (h : t.Holds parent b) (hb : b.Housed) (hx : x ∈ b.handles)
    (hne : x ≠ b.handle) (hp : t.parent? x = some up) : up = root ∨ t.isElement up = true := by
  obtain ⟨sub, hsub, rfl⟩ := List.mem_map.1 hx
  rcases eq_or_mem_children hsub with rfl | ⟨mid, hmid, hc⟩
  · exact absurd rfl hne
  · obtain ⟨p, hp'⟩ := h.part hmid
    rw [(hp'.child hc).parent?] at hp
    obtain rfl := Option.some.inj hp
    rw [isElement, hp'.element?]
    exact hb mid hmid (List.ne_nil_of_mem hc)

theorem isElement_modify (t : Tree) {f : Slot → Slot} (hgeneration : ∀ s, (f s).generation = s.generation)
    (hdata : ∀ s, (f s).data = s.data) (id x : NodeId) : (t.modify id f).isElement x = t.isElement x := by
  rw [isElement, isElement]
  by_cases hx : x = id
  · rw [element?, hx, get?_modify_self t id hgeneration, Option.bind_map, element?]
    exact congrArg _ (Option.bind_congr fun s _ => congrArg NodeData.element? (hdata s))
  · rw [element?, get?_modify_of_ne t hx hgeneration, element?]

namespace Housed

/-- A node is changed and comes to lie in an element at most. -/
theorem modify (h : t.Housed) (id : NodeId) {f : Slot → Slot} (hgeneration : ∀ s, (f s).generation = s.generation)
    (hdata : ∀ s, (f s).data = s.data)
    (hparent : ∀ s up, (f s).parent = some up → s.parent = some up ∨ up = root ∨ t.isElement up = true) :
    (t.modify id f).Housed := by
  intro x up hp
  rw [isElement_modify t hgeneration hdata]
  by_cases hx : x = id
  · rw [hx, parent?, get?_modify_self t id hgeneration, Option.bind_map, Option.bind_eq_some_iff] at hp
    obtain ⟨s, hs, hp⟩ := hp
    rcases hparent s up hp with hp | hup
    · exact h id up (by rw [parent?, hs, Option.bind_some, hp])
    · exact hup
  · rw [parent?, get?_modify_of_ne t hx hgeneration] at hp
    exact h x up hp

theorem unlink (h : t.Housed) (c : NodeId) : (t.unlink c).Housed := by
  unfold Tree.unlink
  split
  · exact h.modify _ (fun _ => rfl) (fun _ => rfl) fun _ _ hp => .inl hp
  · exact h

theorem isElement_unlink (t : Tree) (c x : NodeId) : (t.unlink c).isElement x = t.isElement x := by
  unfold Tree.unlink
  split
  · exact isElement_modify t (f := fun s => { s with children := s.children.filter (· != c) }) (fun _ => rfl)
      (fun _ => rfl) _ x
  · rfl

/-- A node that is inserted lies where its new sibling lies. -/
theorem insertAfter (h : t.Housed) {anchor c : NodeId} (ht : t.insertAfter anchor c = .ok t') : t'.Housed := by
  unfold Tree.insertAfter at ht
  split at ht
  · cases ht
  · next p hp =>
    split_ifs at ht
    cases ht
    have hchild := (h.unlink c).modify c (f := fun s => { s with parent := some p }) (fun _ => rfl) (fun _ => rfl)
      fun s up hup => .inr (by rw [isElement_unlink, ← Option.some.inj hup]; exact h anchor p hp)
    exact hchild.modify p (f := fun s => { s with children := insertBehind anchor c s.children }) (fun _ => rfl)
      (fun _ => rfl) fun _ _ hup => .inl hup

theorem writes {w : NodeId → String → Prop} (h : t.Housed) (hw : Writes t t' w) : t'.Housed := by
  intro x up hp
  rw [hw.parent?] at hp
  have htag := congrArg Option.isSome (hw.tag up)
  rw [Option.isSome_map, Option.isSome_map] at htag
  exact (h x up hp).imp_right fun helement => htag.trans helement

theorem copy (h : t.Housed) (ht : t.WellFormed) {template c : NodeId} (hc : t.copy template = .ok (c, t')) : t'.Housed := by
  intro x up hp
  have hw := ht
  obtain ⟨forest, hr⟩ := ht
  obtain ⟨b, -, ⟨m, -, hspells⟩, -, hr', hkept, -⟩ := copy_spec hr hc
  have hx := hr'.mem_handles_iff.2 (WellFormed.inUse_of_parent? ⟨_, hr'⟩ hp)
  rw [List.flatMap_cons, List.mem_append] at hx
  rcases hx with hx | hx
  · refine (hr'.holds b (by simp)).housed hspells.housed hx ?_ hp
    rintro rfl
    rw [(hr'.holds b (by simp)).parent?] at hp
    cases hp
  · rw [parent?, hkept x (hr.mem_handles_iff.1 hx), ← parent?] at hp
    rw [isElement, element?_eq_of_get?_eq (hkept up (hw.inUse_parent hp)), ← isElement]
    exact h x up hp

/-- Nodes that an edit leaves there lie where they did. -/
theorem of_inUse {top : NodeId} {gone : List NodeId} (h : t.Housed) (ht : t.WellFormed) (hedited : Edited t t' top gone)
    (hx : t.InUse x) (hp : t'.parent? x = some up) : up = root ∨ t'.isElement up = true := by
  have hw := hedited.whole.wellFormed
  have hold := hp
  rw [hedited.parent?_eq hx (hw.inUse_of_parent? hp)] at hold
  rw [hedited.isElement_eq (ht.inUse_parent hold) (hw.inUse_parent hp)]
  exact h x up hold

theorem edit {top : NodeId} {gone : List NodeId} (h : t.Housed) (ht : t.Whole) (hedit : t.Edit top gone t') : t'.Housed := by
  have hedited := hedit.edited ht
  cases hedit with
  | write hw => exact h.writes hw
  | insert _ hcopy hw hinsert => exact ((h.copy ht.wellFormed hcopy).writes hw).insertAfter hinsert
  | remove hp hremove =>
    intro x up hup
    have hx := inUse_of_remove ht.wellFormed hp hremove (hedited.whole.wellFormed.inUse_of_parent? hup)
    exact h.of_inUse ht.wellFormed hedited hx hup
  | refill hid content =>
    intro x up hup
    by_cases hx : t.InUse x
    · exact h.of_inUse ht.wellFormed hedited hx hup
    · have hused := hedited.whole.wellFormed.inUse_of_parent? hup
      have htop := ht.wellFormed.inUse_of_isElement hid
      obtain ⟨b, hr⟩ := ht
      obtain ⟨sub, hsub, rfl⟩ := hr.exists_part htop
      obtain ⟨cs, hspells, hreshaped, -⟩ := refill_spec hr hsub content
      have hmem := hreshaped.touch.mem_handles_new hr.nodup hused fun hm => hx (hr.mem_handles_iff.1 hm)
      obtain ⟨p, hp⟩ := hr.part hsub
      rw [isElement, hp.element?] at hid
      refine hreshaped.touch.holds.housed (housed_node (fun _ => .inr hid) hspells.housed) hmem ?_ hup
      rintro rfl
      exact hx htop

end Housed

end Tree

end ViewBinding
