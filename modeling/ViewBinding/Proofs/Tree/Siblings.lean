import ViewBinding.Proofs.Tree.Rewrite

/-! What becomes of the children of a node when a copy is put among them, and when one of them is removed. -/
namespace ViewBinding.Tree

open Branch

variable {t t₁ t₂ t₃ t' : Tree} {template anchor c id up : NodeId} {first second name raw : String} {front behind : List NodeId}

/-- The copy of an element is the same element, at another place. -/
theorem element?_of_copy (ht : t.WellFormed) (h : t.isElement template = true) (hcopy : t.copy template = .ok (c, t₁)) :
    t₁.element? c = t.element? template := by
  obtain ⟨forest, hr⟩ := ht
  obtain ⟨b, rfl, ⟨m, hm, hspells⟩, -, hr₁, -⟩ := copy_spec hr hcopy
  obtain ⟨sub, hsub, rfl⟩ := hr.exists_part (hr.mem_handles_iff.1 (hr.arena.mem_of_isElement h))
  obtain ⟨p, hp⟩ := hr.part hsub
  rw [isElement, hp.element?] at h
  rw [hr.content hsub] at hm
  rw [hp.element?, (hr₁.holds b (by simp)).element?]
  obtain ⟨id, data, cs⟩ := sub
  cases data with
  | element e =>
    obtain rfl : .element e (contentAll cs) = m := by simpa [Branch.content] using hm
    obtain ⟨id', cs', rfl, -⟩ := hspells
    rfl
  | document => cases h
  | text s => cases h

/-- Removing an attribute gives no element a new one. -/
theorem attr?_of_removeAttr (ht : t.WellFormed) (h : t.removeAttr id first = .ok t') (hattr : t'.attr? id name = some raw) :
    t.attr? id name = some raw := by
  cases hold : t.attr? id name with
  | none =>
    rw [attr?_removeAttr_of_none ht h hold] at hattr
    cases hattr
  | some raw' =>
    by_cases hn : Text.asciiLower name = Text.asciiLower first
    · have hself := attr?_removeAttr_self ht h
      rw [attr?, ← hn, ← attr?, hattr] at hself
      cases hself
    · rwa [(writes_removeAttr ht h).attr? fun hx => hn hx.2, hold] at hattr

/-- A copy is put right behind its anchor. It is an element, and has no attributes but those of its template. -/
theorem insert_spec (ht : t.Whole) (helement : t.isElement template = true) (hcopy : t.copy template = .ok (c, t₁))
    (h₁ : t₁.removeAttr c first = .ok t₂) (h₂ : t₂.removeAttr c second = .ok t₃) (h : t₃.insertAfter anchor c = .ok t')
    (hup : t.parent? anchor = some up) (hchildren : t.children up = front ++ anchor :: behind) :
    t'.children up = front ++ anchor :: c :: behind ∧ t'.isElement c = true ∧
      ∀ name raw, t'.attr? c name = some raw → t.attr? template name = some raw := by
  have hw := ht.wellFormed
  have hsame := element?_of_copy hw helement hcopy
  have hw₁ : t₁.WellFormed := by
    obtain ⟨b, hr⟩ := ht
    obtain ⟨cb, -, -, -, hr₁, -⟩ := copy_spec hr hcopy
    exact ⟨_, hr₁⟩
  have hw₂ := (writes_removeAttr hw₁ h₁).wellFormed hw₁
  obtain ⟨b, cb, tb, p, d, pre, post, rfl, rfl, hp, -, hreshaped, hsame₃⟩ := Relist.exists_reshaped ht hcopy h₁ h₂ h
  obtain rfl : p = up := Option.some.inj (hp.symm.trans hup)
  refine ⟨?_, ?_, ?_⟩
  · have hbefore : t₃.children p = _ := hreshaped.held.children
    have hafter : t'.children p = _ := hreshaped.holds.children
    rw [Tree.children, Relist.get?_of_copy ht hcopy h₁ h₂ (hw.inUse_parent hup), ← Tree.children, hchildren] at hbefore
    simp only [Branch.children, List.map_append, List.map_cons] at hbefore hafter
    have hnodup := hchildren ▸ hw.nodup_children p
    have hfront : tb.handle ∉ front := fun hm => (List.nodup_append.1 hnodup).2.2 _ hm _ (List.mem_cons_self ..) rfl
    have hbehind := (List.nodup_cons.1 (List.nodup_append.1 hnodup).2.1).1
    obtain ⟨hpre, -, hpost⟩ := (List.append_cons_inj_of_notMem hfront hbehind).1 hbefore
    rw [hafter, hpre, hpost]
  · rw [isElement, hsame₃, ← isElement, (writes_removeAttr hw₂ h₂).isElement]
    exact isElement_of_bind h₂
  · intro name raw hattr
    rw [attr?, hsame₃, ← attr?] at hattr
    have hold := attr?_of_removeAttr hw₁ h₁ (attr?_of_removeAttr hw₂ h₂ hattr)
    rwa [attr?, hsame, ← attr?] at hold

/-- What is left when a child is removed. -/
theorem children_of_remove (ht : t.WellFormed) (hup : t.parent? id = some up) (h : t.remove id = .ok t') :
    t'.children up = (t.children up).filter (· != id) := by
  have hnodup := ht.nodup_children up
  obtain ⟨forest, hr⟩ := ht
  obtain ⟨d, pre, post, sub, rfl, hreshaped, -⟩ := remove_spec hr hup h
  have hbefore : t.children up = _ := hreshaped.held.children
  have hafter : t'.children up = _ := hreshaped.holds.children
  rw [hafter, hbefore]
  rw [hbefore] at hnodup
  simp only [Branch.children, List.map_append, List.map_cons] at hnodup ⊢
  have hpre : ∀ x ∈ pre.map Branch.handle, x ≠ sub.handle := fun x hx =>
    (List.nodup_append.1 hnodup).2.2 x hx _ (List.mem_cons_self ..)
  have hpost : ∀ x ∈ post.map Branch.handle, x ≠ sub.handle := fun x hx he =>
    (List.nodup_cons.1 (List.nodup_append.1 hnodup).2.1).1 (he ▸ hx)
  rw [List.filter_append, List.filter_cons_of_neg (by simp), List.filter_eq_self.2 (by simpa using hpre),
    List.filter_eq_self.2 (by simpa using hpost)]

end ViewBinding.Tree
