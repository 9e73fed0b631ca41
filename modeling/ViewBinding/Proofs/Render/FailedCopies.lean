import ViewBinding.Proofs.Render.FailedLists

/-! Making the copies of a list until one of them fails. A copy binds what its template binds, so a template whose
bindings leave the bindings of the page alone has copies that do so, too. -/
namespace ViewBinding

open Render

namespace View

open ViewBinding.Tree

variable {v : View} {p q : Pass} {t t' : Tree} {x y template anchor c : NodeId} {scope : Scope} {name : String}

/-- The mark of a template is not among the attributes that are bound. -/
theorem asciiLower_attributeName_foreach_ne (v : View) {kind : BindingKind}
    (hk : kind ∈ [BindingKind.attr, .content]) :
    Text.asciiLower (v.attributeName kind) ≠ Text.asciiLower (v.attributeName .foreach) := fun h => by
  have hlength := congrArg String.length h
  simp only [Text.asciiLower, String.length_map, attributeName, BindingKind.attributeName, String.length_append]
    at hlength
  simp only [List.mem_cons, List.not_mem_nil, or_false] at hk
  rcases hk with rfl | rfl
  · exact absurd (Nat.add_left_cancel hlength) (by decide)
  · exact absurd (Nat.add_left_cancel hlength) (by decide)

/-- What holds of all that is in a template holds of all that is in a copy of it. -/
theorem OfBindings.of_insertCopy {P : Tree → NodeId → Prop} (hP : v.OfBindings P)
    (hhidden : Text.asciiLower v.options.hiddenAttribute ∉ v.marks) (hp : p.tree.WellFormed)
    (ht : p.tree.InUse template) (hall : ∀ x, p.tree.Inside x template → P p.tree x)
    (h : (v.insertCopy template anchor).exec p = (.ok c, q)) (hx : q.tree.Inside x c) : P q.tree x := by
  obtain ⟨t₁, t₂, t₃, t₄, hcopy, h₂, h₃, h₄, rfl⟩ := exec_insertCopy_ok h
  have hin := inserted_of_exec hp h
  have hlead : Pass.Leads 0 .all p (p.withTree t₄) := leads_of_exec h (leads_insertCopy hp trivial)
  have hwq : (p.withTree t₄).tree.WellFormed := hlead.wellFormed
  obtain ⟨forest, hr⟩ := hp
  have hp : p.tree.WellFormed := ⟨forest, hr⟩
  obtain ⟨b, rfl, ⟨m, hm, hspells⟩, -, hr₁, -, hunused, -⟩ := copy_spec hr hcopy
  have hw₂ := writes_removeAttr ⟨_, hr₁⟩ h₂
  have hw₃ := writes_removeAttr (hw₂.toSameShape.wellFormed ⟨_, hr₁⟩) h₃
  obtain ⟨b₃, forest₃, hb₃, hbs₃, hr₃⟩ := (hw₂.toSameShape.trans hw₃.toSameShape).represents_cons hr₁
  have hroot : b₃.handle ≠ root := fun he =>
    hunused _ b.handle_mem_handles (hb₃ ▸ he ▸ hp.inUse_root)
  rw [← hb₃] at h₄ hx
  obtain ⟨up, d, pre, post, tb, rfl, -, hreshaped, hchild, hbelow, -⟩ := insertAfter_spec hr₃ hroot h₄
  have hb₃mem := Represents.child_mem_parts (Branch.mem_parts_replace hreshaped.mem
    (.node up d (pre ++ tb :: b₃ :: post)))
    (show b₃ ∈ (Branch.node up d (pre ++ tb :: b₃ :: post)).children by simp)
  have hmem : x ∈ b.handles := by
    rw [← hbs₃, ← hreshaped.represents.preorder hb₃mem]
    exact (hwq.mem_preorder_iff_inside (hb₃ ▸ hin.inUse)).2 hx
  obtain ⟨part, hpart, rfl⟩ := List.mem_map.1 hmem
  have hsame : t₄.element? part.handle = t₃.element? part.handle := by
    by_cases hc : part.handle = b₃.handle
    · rw [hc, Tree.element?, hchild, Tree.element?]
      cases t₃.get? b₃.handle <;> rfl
    · rw [Tree.element?, hbelow _ (hbs₃ ▸ hmem) hc, Tree.element?]
  have hattr : ∀ kind ∈ [BindingKind.attr, .content], t₄.attr? part.handle (v.attributeName kind) =
      t₁.attr? part.handle (v.attributeName kind) := fun kind hk => by
    rw [attr?, hsame]
    refine (hw₃.attr? fun hx => hhidden ?_).trans (hw₂.attr? fun hx => ?_)
    · exact hx.2 ▸ v.mem_marks (by simp at hk ⊢; tauto)
    · exact asciiLower_attributeName_foreach_ne v hk hx.2
  have hmem₁ : part ∈ (b :: forest).flatMap Branch.parts := List.mem_flatMap.2 ⟨b, by simp, hpart⟩
  obtain ⟨up', hheld⟩ := hr₁.part hmem₁
  cases he : part.data.element? with
  | none =>
    have hblank : t₁.element? part.handle = none := hheld.element?.trans he
    refine hP.blank fun kind hk => ?_
    rw [Pass.tree_withTree, entriesAt, hattr kind hk, attr?, hblank]
    rfl
  | some e =>
    have hmem : e ∈ b.elements := List.mem_filterMap.2 ⟨part, hpart, he⟩
    obtain ⟨y, hy, hye⟩ := exists_element_of_copy hr hm hspells ht hmem
    refine hP.congr (hall y hy) fun kind hk => ?_
    rw [Pass.tree_withTree, entriesAt, hattr kind hk, attr?, hheld.element?, he, entriesAt, attr?, hye]

theorem exec_insertCopy_ne_unknownPipe : (v.insertCopy template anchor).exec p ≠ (.error (.unknownPipe name), q) := by
  unfold insertCopy
  intro h
  rw [exec_bind, exec_tree] at h
  simp only at h
  split at h
  · cases h
  simp only [exec_bind, exec_setTree] at h
  split at h
  · split at h
    · split at h
      · cases h
      · next h' =>
        cases h
        exact exec_edit_ne_unknownPipe h'
    · next h' =>
      cases h
      exact exec_edit_ne_unknownPipe h'
  · next h' =>
    cases h
    exact exec_edit_ne_unknownPipe h'

theorem exec_tearDown_ne_unknownPipe {cls : String} :
    (tearDown template cls).exec p ≠ (.error (.unknownPipe name), q) := by
  unfold tearDown
  intro h
  rw [exec_bind, exec_view] at h
  obtain ⟨-, x, -, s, -, -, hx⟩ := exec_forM_error h
  rw [exec_dropCopy] at hx
  exact exec_edit_ne_unknownPipe hx

/-- Making copies fails at the first copy or behind it. -/
theorem exec_makeCopies_cons_error {make : NodeId → Scope → Render Unit} {cls : String} {item : Value}
    {items : List Value} {index : Nat}
    (h : (v.makeCopies make template scope cls (item :: items) index anchor).exec p =
      (.error (.unknownPipe name), q)) :
    ∃ c q₁, (v.insertCopy template anchor).exec p = (.ok c, q₁) ∧
      ((v.bindCopy make c (.within scope item index)).exec q₁ = (.error (.unknownPipe name), q) ∨
        ∃ q₂ t, (v.bindCopy make c (.within scope item index)).exec q₁ = (.ok (), q₂) ∧
          q₂.tree.addClass c cls = .ok t ∧
          (v.makeCopies make template scope cls [item] index anchor).exec p =
            (.ok (), { q₂.withTree t with copies := c :: q₂.copies }) ∧
          (v.makeCopies make template scope cls items (index + 1) c).exec
            { q₂.withTree t with copies := c :: q₂.copies } = (.error (.unknownPipe name), q)) := by
  rw [makeCopies, exec_bind] at h
  split at h
  · next c q₁ h₁ =>
    refine ⟨c, q₁, h₁, ?_⟩
    rw [exec_bind] at h
    split at h
    · next u q₂ h₂ =>
      rw [exec_bind] at h
      split at h
      · next u' q₃ h₃ =>
        obtain ⟨t, ht, rfl⟩ := exec_edit_ok h₃
        rw [exec_bind, exec_modify] at h
        refine .inr ⟨q₂, t, h₂, ht, ?_, h⟩
        rw [makeCopies, exec_bind, h₁]
        simp only
        rw [exec_bind, h₂]
        simp only
        rw [exec_bind, h₃]
        simp only
        rw [exec_bind, exec_modify]
        rfl
      · next h₃ =>
        cases h
        exact absurd h₃ exec_edit_ne_unknownPipe
    · next h₂ =>
      cases h
      exact .inl h₂
  · next h₁ =>
    cases h
    exact absurd h₁ exec_insertCopy_ne_unknownPipe

section copies

variable {make : NodeId → Scope → Render Unit} {up : NodeId} (hn : LeadsLists v (2 ^ 32) make)

include hn

/-- A copy stays where it is while it is bound. -/
theorem parent?_of_bindCopy {item : ItemScope} {r : Except Error Unit} (hp : p.tree.WellFormed)
    (hup : p.tree.parent? c = some up) (hroot : p.tree.Inside up root)
    (hplain : p.tree.hasAttr c (v.attributeName .foreach) = false)
    (h : (v.bindCopy make c item).exec p = (r, q)) (hq : q.tree.mutations < 2 ^ 32) :
    q.tree.parent? c = some up := by
  have hc := hp.inUse_of_parent? hup
  have hm := lt_limit p.tree hq
  have hbelow : ∀ x, p.tree.Inside up x → x ∉ p.tree.preorder c := fun x hx hxc =>
    hp.not_inside_of_parent? hup (hx.trans ((hp.mem_preorder_iff_inside hc).1 hxc))
  have hlead := leads_of_exec h (leads_bindCopy hn hp (Nat.le_add_left _ _) hc hplain item)
  have hlater := (hlead.later hq).tree
  have hupq := hlater.inUse_of_stays hm hroot (fun y hy hr => hbelow y hy hr.1) hbelow
  refine (hlater.stays c up hup (fun hr => hr.2 rfl) (hbelow up (.refl _ _))).resolve_right fun hex => ?_
  exact hex.not_inUse hm hupq

/-- If making copies fails, the next pass is caught in one of them. -/
theorem exists_caught_of_makeCopies (hhidden : Text.asciiLower v.options.hiddenAttribute ∉ v.marks)
    (hf : FailsInCopies v make) {cls : String} {items : List Value} {index : Nat} (hp : p.tree.WellFormed)
    (hknown : ∀ x ∈ p.copies, p.tree.Known x) (hconn : p.tree.Inside template root)
    (htidy : ∀ x, p.tree.Inside x template → Tidy v p.tree x) (hup : p.tree.parent? anchor = some up)
    (hroot : p.tree.Inside up root) (hanchor : p.tree.Inside anchor template → anchor = template)
    (h : (v.makeCopies make template scope cls items index anchor).exec p = (.error (.unknownPipe name), q))
    (hq : q.tree.mutations < 2 ^ 32) : ∃ c e, q.tree.parent? c = some up ∧ Caught v q c e := by
  induction items generalizing p index anchor with
  | nil => cases h
  | cons item items ih =>
    have hlimit : ∀ t : Tree, 2 ^ 32 ≤ t.mutations + 2 ^ 32 := fun t => Nat.le_add_left _ _
    have ht : p.tree.InUse template := by
      rcases hconn.eq_or_up with rfl | ⟨y, hy, -⟩
      · exact hp.inUse_root
      · exact hp.inUse_of_parent? hy
    obtain ⟨c, q₁, h₁, hrest⟩ := exec_makeCopies_cons_error h
    have hlead₁ : Pass.Leads (2 ^ 32) .all p q₁ := leads_of_exec h₁ (leads_insertCopy hp trivial)
    have hw₁ := hlead₁.wellFormed
    obtain ⟨hunused, hc₁, ⟨up', hanchor₁, hup₁, -⟩, hplain, -⟩ := inserted_of_exec hp h₁
    have hbind : ∀ r q₂, (v.bindCopy make c (.within scope item index)).exec q₁ = (r, q₂) →
        q₂.tree.mutations < 2 ^ 32 → q₁.tree.Inside c root ∧ q₂.tree.parent? c = some up := fun r q₂ h₂ hq₂ => by
      have hlead₂ := leads_of_exec h₂ (leads_bindCopy_any hn hw₁ (hlimit _) hc₁ hplain _)
      have hl₁ := hlead₂.mutations_le.trans_lt hq₂
      have hlater₁ := (hlead₁.later hl₁).tree
      have hsame := hlater₁.parent?_eq_some (lt_limit _ hl₁) (hp.inUse_of_parent? hup)
        (hw₁.inUse_of_parent? hanchor₁) hup
      rw [hanchor₁] at hsame
      obtain rfl := Option.some.inj hsame
      have hroot₁ := hlater₁.inside hp (lt_limit _ hl₁) hroot (hw₁.inUse_parent hup₁)
      exact ⟨.up hup₁ hroot₁, parent?_of_bindCopy hn hw₁ hup₁ hroot₁ hplain h₂ hq₂⟩
    rcases hrest with h₂ | ⟨q₂, t, h₂, hclass, hone, hrest⟩
    · obtain ⟨hroot₁, hupq⟩ := hbind _ _ h₂ hq
      have hle := (leads_of_exec h₂ (leads_bindCopy_any hn hw₁ (hlimit _) hc₁ hplain _)).mutations_le
      obtain ⟨e, he⟩ := exists_caught_of_bindCopy hhidden hn hw₁ hc₁ hplain hf hroot₁
        ((hlead₁.later (hle.trans_lt hq)).known hknown)
        (fun x hx => (ofBindings_tidy v).of_insertCopy hhidden hp ht htidy h₁ hx) h₂ hq
      exact ⟨c, e, hupq, he⟩
    · generalize hr : ({ q₂.withTree t with copies := c :: q₂.copies } : Pass) = r at hone hrest
      have hrt : r.tree = t := by rw [← hr]; rfl
      -- what has been made so far lies behind the anchor
      have hleadr : Pass.Leads (2 ^ 32) (.behind anchor) p r :=
        leads_of_exec hone (leads_makeCopies hn hp (hlimit _) rfl (fun _ => rfl) ..)
      have hleadq : Pass.Leads (2 ^ 32) .all r q :=
        leads_of_exec hrest (leads_makeCopies hn hleadr.wellFormed (hlimit _) trivial (fun _ => trivial) ..)
      have hlr := hleadq.mutations_le.trans_lt hq
      have hm := lt_limit p.tree hlr
      have hlater := hleadr.later hlr
      have haround : Pass.Later (around v p.tree template) p r := hlater.mono
        ⟨fun x hx hi => by rw [hx] at hi ⊢; exact hanchor hi, fun _ => False.elim, fun _ => False.elim,
          fun _ => False.elim, fun _ => False.elim, fun x n hx hn => ne_of_mem_marks hn (by decide) hx⟩
      have hw₂ := writes_addClass (leads_of_exec h₂ (leads_bindCopy_any hn hw₁ (hlimit _) hc₁ hplain _)).wellFormed hclass
      have hl₂ : q₂.tree.mutations < 2 ^ 32 := (hw₂.mutations_le.trans_eq (by rw [hrt])).trans_lt hlr
      have hupr : r.tree.parent? c = some up := by
        rw [hrt, hw₂.parent?]
        exact (hbind _ _ h₂ hl₂).2
      have htr := hlater.tree.inUse_of_stays hm hconn (fun _ _ hr => hr) fun _ _ hf => hf
      refine ih hleadr.wellFormed (hlater.known hknown) (hlater.tree.inside hp hm hconn htr)
        (fun x hx => (ofBindings_tidy v).of_around hp ht htidy haround hlr hx) hupr ?_ (fun hi => ?_) hrest
      · exact hlater.tree.inside hp hm hroot (hleadr.wellFormed.inUse_parent hupr)
      · have hip := haround.tree.inside_of_untouched hm hp ht (fun y hy hn => hn hy)
          (fun y hy hne => ⟨fun hf => hne (hf hy), fun hf => hne (hf hy)⟩) hi
        have hcp := hp.inUse_of_mem_preorder ht ((hp.mem_preorder_iff_inside ht).2 hip)
        exact absurd hcp (hunused c (hw₁.self_mem_preorder hc₁))

end copies

/-- Only copies beside a template are torn down. -/
theorem around_removed_of_mem_staleCopies {up : NodeId} {cls : String} {copies : List NodeId} (ht : t.WellFormed)
    (hup : t.parent? template = some up) (hx : x ∈ staleCopies t copies template cls) :
    (around v t template).removed x := fun hi => by
  rcases hi.eq_or_up with he | ⟨y, hy, hyt⟩
  · exact he
  · unfold staleCopies at hx
    rw [hup] at hx
    have hxp := ht.mem_children_iff.1 (List.mem_filter.1 (List.mem_filter.1 hx).1).1
    rw [hxp] at hy
    cases hy
    exact absurd hyt (ht.not_inside_of_parent? hup)

/-- A list that fails for want of a pipe fails in one of its copies, whatever their depth. -/
theorem failsInCopies_renderListWithin (v : View) (hhidden : Text.asciiLower v.options.hiddenAttribute ∉ v.marks)
    (fuel : Nat) : FailsInCopies v (v.renderListWithin fuel) := by
  induction fuel with
  | zero =>
    intro template scope p q name _ _ _ h
    cases h
  | succ fuel ih =>
    intro template scope p q name hp hknown htidy h hq
    unfold renderListWithin at h
    rw [exec_bind, exec_tree] at h
    simp only at h
    split at h
    · cases h
    next hconn =>
    split at h
    · cases h
    next expression he =>
    rw [exec_bind, exec_iterate] at h
    simp only at h
    split at h
    · cases h
    next items _ =>
    obtain ⟨element, helement⟩ : ∃ element, p.tree.element? template = some element := by
      have hattr := hasAttr_of_listExpression? he
      cases helement : p.tree.element? template with
      | none => simp [hasAttr, attr?, helement] at hattr
      | some element => exact ⟨element, rfl⟩
    have ht := hp.inUse_of_element? helement
    have hroot : p.tree.Inside template root := hp.isConnected_iff_inside.1 (by simpa using hconn)
    obtain ⟨up, hup, huproot⟩ := hroot.eq_or_up.resolve_left fun hr => by
      rw [hr, hp.element?_root] at helement
      cases helement
    rw [exec_bind] at h
    split at h
    · next u q₁ h₁ =>
      have hlead₁ : Pass.Leads (2 ^ 32) (around v p.tree template) p q₁ := by
        have hheap : Pass.Leads (2 ^ 32) (around v p.tree template) p (p.evaluated expression scope) :=
          leads_evaluated expression scope hp
        refine hheap.trans (leads_of_exec h₁ (leads_tearDown hheap.wellFormed fun x hx => ?_))
        exact around_removed_of_mem_staleCopies hp hup hx
      rw [exec_bind] at h
      split at h
      · exact absurd h exec_edit_ne_unknownPipe
      · next err q₂ h₂ =>
        cases h
        have hlead₂ : Pass.Leads (2 ^ 32) .all q₁ q := leads_of_exec h₂ <|
          leads_makeCopies (leadsLists_renderListWithin v _ _) hlead₁.wellFormed (Nat.le_add_left _ _) trivial
            (fun _ => trivial) ..
        have hl₁ := hlead₂.mutations_le.trans_lt hq
        have hm := lt_limit p.tree hl₁
        have hlater₁ := hlead₁.later hl₁
        -- the template has not been torn down, since copies of it have been made
        have ht₁ : q₁.tree.InUse template := by
          cases items with
          | nil => cases h₂
          | cons item items =>
            obtain ⟨c, q₃, h₃, -⟩ := exec_makeCopies_cons_error h₂
            obtain ⟨t₁, -, -, -, hcopy, -⟩ := exec_insertCopy_ok h₃
            obtain ⟨forest, hr⟩ := hlead₁.wellFormed
            obtain ⟨-, -, -, hlive, -⟩ := copy_spec hr hcopy
            exact (hlater₁.tree.nodes template ht).resolve_right fun hex => hex.not_isLive hm hlive
        have hup₁ := hlater₁.tree.parent?_eq_some hm ht ht₁ hup
        obtain ⟨c, e, hc, hcaught⟩ := exists_caught_of_makeCopies (leadsLists_renderListWithin v _ _) hhidden ih
          hlead₁.wellFormed (hlater₁.known hknown) (hlater₁.tree.inside hp hm hroot ht₁)
          (fun x hx => (ofBindings_tidy v).of_around hp ht htidy hlater₁ hl₁ hx) hup₁
          (hlater₁.tree.inside hp hm huproot (hlead₁.wellFormed.inUse_parent hup₁)) (fun _ => rfl) h₂ hq
        exact ⟨up, c, e, hup, hc, hcaught⟩
    · next h₁ =>
      cases h
      exact absurd h₁ exec_tearDown_ne_unknownPipe

end View

end ViewBinding
