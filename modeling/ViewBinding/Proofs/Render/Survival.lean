import ViewBinding.Proofs.Render.ListsOfPass
import ViewBinding.Proofs.Render.Spoiled

/-! What a pass takes away. Where no binding writes bindings, a node goes with a copy on record that it lies in, or with the
content of an element above it that a binding replaces, and not otherwise. -/
namespace ViewBinding

open ViewBinding.Tree

namespace Tree

/-- A node stays with what it lies in, if nothing above it is removed or gets a new content. -/
theorem Later.inUse_of_above {F : Footprint} {t t' : Tree} (h : Later F t t') (hm : t'.mutations < t.mutations + 2 ^ 32) {x : NodeId}
    (hx : t.Inside x root) (hr : ∀ y, t.Inside x y → ¬ F.removed y) (hf : ∀ y, t.Inside x y → y ≠ x → ¬ F.filled y)
    (ht : t.WellFormed) : t'.InUse x := by
  rcases hx.eq_or_up with rfl | ⟨up, hup, hroot⟩
  · exact h.wellFormed.inUse_root
  have habove : ∀ y, t.Inside up y → ¬ F.filled y := fun y hy => hf y (.up hup hy) fun he =>
    ht.not_inside_of_parent? hup (he ▸ hy)
  have hstays := h.inUse_of_stays hm hroot (fun y hy => hr y (.up hup hy)) habove
  rcases h.stays x up hup (hr x (.refl t x)) (habove up (.refl t up)) with hp | hex
  · exact h.wellFormed.inUse_of_parent? hp
  · exact absurd hstays (hex.not_inUse hm)

end Tree

namespace View

open Render

variable {v : View} {p q s : Pass} {t : Tree} {x : NodeId} {scope : Scope}

/-- Whether a name is not that of an attribute with bindings. -/
def Unbound (v : View) (name : String) : Prop := ∀ kind, Text.asciiLower (v.attributeName kind) ≠ name

theorem unbound_of_no_hyphen (v : View) {name : String} (h : '-' ∉ name.toList) : v.Unbound name := fun kind =>
  v.asciiLower_attributeName_ne kind name h

theorem unbound_attribute? (v : View) (property : Property) {name : String} (h : name ∈ property.attribute?) : v.Unbound name := by
  refine v.unbound_of_no_hyphen ?_
  cases property <;> simp only [Property.attribute?, Option.mem_def, Option.some.injEq, reduceCtorEq] at h <;> subst h <;> decide

/-- The attribute bindings of a node write no bindings. -/
def Unwritten (v : View) (t : Tree) (x : NodeId) : Prop :=
  ∀ b ∈ v.entriesAt .attr t x, ∀ target ∈ b.target, v.Unbound (Text.asciiLower target)

/-- A binding of the node replaces what is in it. -/
def Refills (v : View) (t : Tree) (x : NodeId) : Prop :=
  v.entriesAt .content t x ≠ [] ∨ ∃ b ∈ v.entriesAt .value t x, ∃ property ∈ property? b, property.isContent = true

/-- What a pass from a state on does, if no binding writes bindings. -/
def refilling (v : View) (p : Pass) : Footprint where
  followed _ := True
  removed x := x ∈ p.copies
  filled x := v.Refills p.tree x
  recorded _ := False
  heard _ := True
  written _ name := v.Unbound name

/-- The entries of a node are those that it had, as long as it is there. -/
theorem entriesAt_of_refilling (hl : Pass.Later (refilling v p) p s) (hs : s.tree.mutations < 2 ^ 32) (hx : p.tree.InUse x)
    {kind : BindingKind} {b : Binding} (hb : b ∈ v.entriesAt kind s.tree x) : v.entriesAt kind s.tree x = v.entriesAt kind p.tree x := by
  by_cases hx' : s.tree.InUse x
  · have hkept := (hl.tree.attrs x _ hx fun hw => hw kind rfl).resolve_right fun hex =>
      hex.not_inUse (hs.trans_le (Nat.le_add_left _ _)) hx'
    rw [entriesAt, attr?, hkept, entriesAt, attr?]
  · rw [entriesAt_of_not_inUse hl.tree.wellFormed hx'] at hb
    cases hb

section

variable (hp : p.tree.WellFormed) (hunwritten : ∀ x, p.tree.InUse x → v.Unwritten p.tree x)

include hp hunwritten

/-- Bringing elements up to date replaces the content of those whose bindings do so. -/
theorem leads_sync_refilling (hs : Pass.Leads (2 ^ 32) ((refilling v p).freshen p.tree) p s) (ids : List NodeId) :
    Pass.Leads (2 ^ 32) ((refilling v p).freshen p.tree) s ((v.sync scope ids).exec s).2 := by
  have hbeyond : ∀ {r r' : Pass} {F : Footprint}, Pass.Leads (2 ^ 32) .all r r' → ¬ r.tree.mutations < 2 ^ 32 →
      Pass.Leads (2 ^ 32) F r r' := fun h hl => h.of_limit_le (Nat.not_lt.1 hl)
  have hentries : ∀ {r : Pass}, Pass.Leads (2 ^ 32) ((refilling v p).freshen p.tree) p r → r.tree.mutations < 2 ^ 32 →
      ∀ {kind id}, p.tree.InUse id → ∀ b ∈ v.entriesAt kind r.tree id, b ∈ v.entriesAt kind p.tree id := fun hr hl _ _ hid b hb =>
    entriesAt_of_refilling ((hr.later hl).of_freshen hp) hl hid hb ▸ hb
  unfold sync
  refine leads_bind (leads_forM hs.wellFormed fun id _ r hr => ?_) fun _ s' _ hs' => ?_
  · by_cases hl : r.tree.mutations < 2 ^ 32
    · refine leads_bindAttributes hr.wellFormed fun b hb target htarget => ?_
      by_cases hid : p.tree.InUse id
      · exact .inl (hunwritten id hid b (hentries (hs.trans hr) hl hid b hb) target htarget)
      · exact .inr hid
    · exact hbeyond (leads_bindAttributes hr.wellFormed fun _ _ _ _ => trivial) hl
  replace hs := hs.trans hs'
  refine leads_bind (leads_forM hs.wellFormed fun id _ r hr => ?_) fun _ s'' _ hs'' => ?_
  · by_cases hl : r.tree.mutations < 2 ^ 32
    · unfold bindContent
      rw [exec_bind, exec_tree]
      refine leads_forM hr.wellFormed fun b hb r' hr' => leads_bindContentEntry hr'.wellFormed ?_ b
      by_cases hid : p.tree.InUse id
      · exact .inl (.inl (List.ne_nil_of_mem (hentries (hs.trans hr) hl hid b hb)))
      · exact .inr hid
    · exact hbeyond (leads_bindContent hr.wellFormed trivial) hl
  replace hs := hs.trans hs''
  refine leads_forM hs.wellFormed fun id _ r hr => ?_
  by_cases hl : r.tree.mutations < 2 ^ 32
  · unfold bindProperties
    rw [exec_bind, exec_tree]
    refine leads_forM hr.wellFormed fun b hb r' hr' => ?_
    refine leads_bindProperty hr'.wellFormed b (fun _ => .inl (v.unbound_of_no_hyphen (by decide))) (fun property hproperty hc => ?_)
      fun property _ name hname => .inl (v.unbound_attribute? property hname)
    by_cases hid : p.tree.InUse id
    · exact .inl (.inr ⟨b, hentries (hs.trans hr) hl hid b hb, property, hproperty, hc⟩)
    · exact .inr hid
  · exact hbeyond (leads_bindProperties hr.wellFormed (fun _ => trivial) trivial fun _ _ _ => trivial) hl

/-- A pass takes away copies on record and the content of elements, and it leaves the bindings of what stays alone. -/
theorem leads_render_refilling (hhidden : v.Unbound (Text.asciiLower v.options.hiddenAttribute)) :
    Pass.Leads (2 ^ 32) (refilling v p) p (v.render.exec p).2 := by
  refine .of_freshen hp (leads_forM hp fun root _ s hs => ?_)
  unfold renderRoot
  rw [exec_bind, exec_tree]
  simp only
  split
  · rw [exec_bind, exec_view]
    refine leads_bind (leads_sync_refilling hp hunwritten hs _) fun _ s' _ hs' => leads_forM hs'.wellFormed fun template _ r hr => ?_
    have hlead := (hs.trans hs').trans hr
    refine leadsLists_renderListWithin v _ _ template v.scope r _ hr.wellFormed (Nat.le_add_left _ _) (.inl trivial)
      (fun _ => .inl (v.unbound_of_no_hyphen (by decide))) (.inl hhidden) fun hl e _ x hx => ?_
    -- what is torn down is on record, and what was there before has been so before
    by_cases hxp : p.tree.InUse x
    · have hlater := (hlead.later hl).of_freshen hp
      have hm : r.tree.mutations < p.tree.mutations + 2 ^ 32 := hl.trans_le (Nat.le_add_left _ _)
      unfold staleCopies at hx
      split at hx
      · cases hx
      obtain ⟨hchild, hstale⟩ := List.mem_filter.1 hx
      have hxr := hr.wellFormed.inUse_of_parent? (hr.wellFormed.mem_children_iff.1 (List.mem_filter.1 hchild).1)
      simp only [Bool.and_eq_true, List.contains_iff_mem] at hstale
      rcases hlater.recorded x hxp hstale.1 with hc | hf | hex
      · exact .inl hc
      · exact hf.elim
      · exact absurd hxr (hex.not_inUse hm)
    · exact .inr hxp
  · exact .refl hs.wellFormed

/-- What a pass takes away has been in a copy on record, or below an element whose content a binding replaces. -/
theorem exists_above_of_render (hhidden : v.Unbound (Text.asciiLower v.options.hiddenAttribute)) (hx : p.tree.Inside x root)
    (hq : (v.render.exec p).2.tree.mutations < 2 ^ 32) (hgone : ¬ (v.render.exec p).2.tree.InUse x) :
    ∃ y, p.tree.Inside x y ∧ (y ∈ p.copies ∨ y ≠ x ∧ v.Refills p.tree y) := by
  by_contra hnone
  push Not at hnone
  refine hgone (((leads_render_refilling hp hunwritten hhidden).later hq).tree.inUse_of_above
    (hq.trans_le (Nat.le_add_left _ _)) hx (fun y hy => (hnone y hy).1) (fun y hy hne => (hnone y hy).2 hne) hp)

end

end View

end ViewBinding
