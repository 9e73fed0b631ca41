import ViewBinding.Proofs.Render.CopiesMade

/-! A list that has been made in a pass stands to the end of the pass. Later lists and later roots change what is
theirs: they may remove the template with all its copies, but they cannot part them. -/
namespace ViewBinding

open Render

namespace Tree

variable {F : Footprint} {t t' : Tree} {x : NodeId}

/-- A node of the document that stays in use stays in the document. -/
theorem Later.isConnected (h : Later F t t') (ht : t.WellFormed) (hm : t'.mutations < t.mutations + 2 ^ 32)
    (hx : t.isConnected x = true) (hx' : t'.InUse x) : t'.isConnected x = true := by
  rw [Tree.isConnected, List.contains_iff_mem, ancestors] at hx
  generalize t.slots.size = fuel at hx
  induction fuel generalizing x with
  | zero =>
    obtain rfl : root = x := by simpa [ancestorsWithin] using hx
    simp [Tree.isConnected]
  | succ fuel ih =>
    rw [ancestorsWithin] at hx
    cases hp : t.parent? x with
    | none =>
      obtain rfl : root = x := by simpa [hp] using hx
      simp [Tree.isConnected]
    | some p =>
      rw [hp] at hx
      rcases List.mem_cons.1 hx with rfl | hx
      · simp [Tree.isConnected]
      have hp' := h.parent?_eq_some hm (ht.inUse_of_parent? hp) hx' hp
      have hup := ih (h.wellFormed.inUse_parent hp') hx
      rw [h.wellFormed.isConnected_iff] at hup ⊢
      exact (h.wellFormed.mem_preorder_of_parent? h.wellFormed.inUse_root hup hp').1

end Tree

namespace View

open ViewBinding.Tree

variable {v : View} {limit : Nat} {p q : Pass} {template up : NodeId} {m : MadeList}

/-- A template with the copies that have been made of it behind it. -/
structure Stands (v : View) (template up : NodeId) (m : MadeList) (p : Pass) : Prop where
  parent? : p.tree.parent? template = some up
  siblings : template :: m.copies.map (·.1) <:+: p.tree.children up
  isTemplate : p.tree.hasAttr template (v.attributeName .foreach) = true
  hidden : p.tree.hasAttr template "hidden" = true
  recorded : ∀ c ∈ m.copies.map (·.1), c ∈ p.copies
  classes : ∀ c ∈ m.copies.map (·.1), p.tree.hasClass c (v.copyClass m.expression) = true

/-- What leaves a template and its copies alone. -/
def outside (group : List NodeId) : Footprint where
  followed x := x ∉ group
  removed x := x ∉ group
  filled _ := True
  recorded _ := False
  heard _ := True
  written x name := x ∉ group ∨ name = "selected"

theorem asciiLower_attributeName_ne (v : View) (kind : BindingKind) (name : String) (h : '-' ∉ name.toList) :
    Text.asciiLower (v.attributeName kind) ≠ name := by
  intro he
  refine h (he ▸ ?_)
  rw [Text.asciiLower, String.toList_map, attributeName, BindingKind.attributeName]
  refine List.mem_map.2 ⟨'-', by simp, by decide⟩

theorem inUse_of_mem_siblings (hp : p.tree.WellFormed) {l : List NodeId} (h : l <:+: p.tree.children up)
    {x : NodeId} (hx : x ∈ l) : p.tree.InUse x :=
  hp.inUse_of_parent? (hp.mem_children_iff.1 (h.subset hx))

/-- A list stands unless its template is removed. -/
theorem Stands.later (h : Stands v template up m p) (hp : p.tree.WellFormed)
    (hl : Pass.Later (outside (template :: m.copies.map (·.1))) p q)
    (hm : q.tree.mutations < p.tree.mutations + 2 ^ 32) (ht : q.tree.InUse template) :
    Stands v template up m q := by
  have hin : ∀ x ∈ template :: m.copies.map (·.1), p.tree.InUse x := fun x =>
    inUse_of_mem_siblings hp h.siblings
  have hsiblings : template :: m.copies.map (·.1) <:+: q.tree.children up :=
    hl.tree.siblings_of_inUse hm (List.mem_cons_self ..) ht
      (fun y hy hf => hf (List.dropLast_subset _ hy)) (fun y hy hr => hr hy) h.siblings
  have hin' : ∀ x ∈ template :: m.copies.map (·.1), q.tree.InUse x := fun x =>
    inUse_of_mem_siblings hl.tree.wellFormed hsiblings
  have hattr : ∀ x ∈ template :: m.copies.map (·.1), ∀ name, name ≠ "selected" →
      (q.tree.element? x).bind (·.attrs.get? name) = (p.tree.element? x).bind (·.attrs.get? name) :=
    fun x hx name hname => hl.tree.attr_eq hm (hin x hx) (hin' x hx) fun hw => hw.elim (· hx) hname
  refine ⟨?_, hsiblings, ?_, ?_, fun c hc => ?_, fun c hc => ?_⟩
  · exact hl.tree.parent?_eq_some hm (hin _ (by simp)) ht h.parent?
  · have := h.isTemplate
    rw [hasAttr, attr?] at this ⊢
    rwa [hattr _ (by simp) _ (asciiLower_attributeName_ne v _ _ (by decide))]
  · have := h.hidden
    rw [hasAttr, attr?] at this ⊢
    rwa [hattr _ (by simp) _ (by decide +kernel)]
  · have hmem : c ∈ template :: m.copies.map (·.1) := List.mem_cons_of_mem _ hc
    exact (hl.kept c (hin c hmem) (h.recorded c hc)).resolve_right fun hex =>
      hex.not_inUse hm (hin' c hmem)
  · have := h.classes c hc
    rw [hasClass_iff] at this ⊢
    rwa [hattr c (List.mem_cons_of_mem _ hc) _ (by decide)]

/-- What has happened when a list has been made. -/
theorem renderListTraced_ok {fuel : Nat} {scope : Scope}
    (h : (v.renderListTraced fuel template scope).exec p = (.ok (some m), q)) :
    ∃ fuel' q₁ q₂ t u, p.tree.isConnected template = true ∧
      v.listExpression? p.tree template = some m.expression ∧
      (∃ list, evaluate m.expression scope p.heap = (.ok list, (p.evaluated m.expression scope).heap) ∧
        (p.evaluated m.expression scope).heap.items? list = some m.items) ∧
      (tearDown template (v.copyClass m.expression)).exec (p.evaluated m.expression scope) = (.ok u, q₁) ∧
      (v.makeCopiesTraced (v.renderListWithin fuel') template scope (v.copyClass m.expression) m.items 0
        template).exec q₁ = (.ok m.copies, q₂) ∧
      q₂.tree.setAttr template v.options.hiddenAttribute "" = .ok t ∧ q = q₂.withTree t := by
  cases fuel with
  | zero => cases h
  | succ fuel =>
    rw [renderListTraced, exec_bind, exec_tree] at h
    simp only at h
    split at h
    · cases h
    next hconn =>
    split at h
    · cases h
    next source hsource =>
    rw [exec_bind, exec_iterate] at h
    simp only at h
    split at h
    · cases h
    next items hitems =>
    rw [exec_bind] at h
    split at h
    · next u q₁ h₁ =>
      rw [exec_bind] at h
      split at h
      · next copies q₂ h₂ =>
        rw [exec_bind] at h
        split at h
        · next u' q₃ h₃ =>
          obtain ⟨t, ht, rfl⟩ := exec_edit_ok h₃
          cases h
          obtain ⟨list, hlist, hitems⟩ := Option.bind_eq_some_iff.1 hitems
          refine ⟨fuel, q₁, q₂, t, u, by simpa using hconn, hsource, ⟨list, ?_, hitems⟩, h₁, h₂, ht, rfl⟩
          refine Prod.ext ?_ rfl
          revert hlist
          cases (evaluate source scope p.heap).1 <;> simp [Except.toOption]
        · cases h
      · cases h
    · cases h

theorem inUse_of_hasAttr {t : Tree} (ht : t.WellFormed) {x : NodeId} {name : String}
    (h : t.hasAttr x name = true) : t.InUse x :=
  ht.inUse_of_isElement (isElement_of_hasAttr h)

theorem exists_parent_of_hasAttr {t : Tree} (ht : t.WellFormed) {x : NodeId} {name : String}
    (h : t.hasAttr x name = true) (hc : t.isConnected x = true) : ∃ up, t.parent? x = some up := by
  have hne : x ≠ root := fun he => by
    rw [he, hasAttr, attr?, ht.element?_root] at h
    cases h
  obtain ⟨up, hup, -⟩ := ht.exists_parent ht.inUse_root (ht.isConnected_iff.1 hc) hne
  exact ⟨up, hup⟩

theorem isBlank_of_mem_standard {c : Char} (hc : c ∈ BindingOptions.standard.classStart.toList) :
    Text.isBlank c = false := by
  have h : BindingOptions.standard.classStart.toList.all (!Text.isBlank ·) = true := by decide +kernel
  simpa using List.all_eq_true.1 h c hc

end View

end ViewBinding
