import ViewBinding.Proofs.Render.Spoiled

/-! Where a pass fails. On a page whose bindings do not write bindings, a pipe that is not registered stops a pass at
an attribute binding, and the element with this binding is left where the next pass finds it. -/
namespace ViewBinding

open Render

namespace View

open ViewBinding.Tree

variable {v : View} {F : Footprint} {p q : Pass} {t t' : Tree} {x : NodeId} {scope : Scope} {name : String}

/-- A property of nodes that their attribute and content bindings decide, and that nodes without such bindings have. -/
structure OfBindings (v : View) (P : Tree → NodeId → Prop) : Prop where
  congr : ∀ {t t' : Tree} {x y : NodeId}, P t x →
    (∀ kind ∈ [BindingKind.attr, .content], v.entriesAt kind t' y = v.entriesAt kind t x) → P t' y
  blank : ∀ {t : Tree} {x : NodeId}, (∀ kind ∈ [BindingKind.attr, .content], v.entriesAt kind t x = []) → P t x

theorem OfBindings.later {P : Tree → NodeId → Prop} (hP : v.OfBindings P) (hx : P t x) (h : Later F t t')
    (hm : t'.mutations < t.mutations + 2 ^ 32) (hu : t.InUse x) (hw : ∀ name ∈ v.marks, ¬ F.written x name) : P t' x := by
  by_cases hx' : t'.InUse x
  · refine hP.congr hx fun kind hk => ?_
    rw [entriesAt, attr?_of_later h hm (by simp at hk ⊢; tauto) hu hx' hw, entriesAt]
  · exact hP.blank fun kind _ => entriesAt_of_not_inUse h.wellFormed hx' kind

/-- An element whose attribute bindings do not write bindings, and whose content bindings have known pipes. -/
structure Tidy (v : View) (t : Tree) (x : NodeId) : Prop where
  tame : Tame v t x
  known : ∀ b ∈ v.entriesAt .content t x, ∀ name ∈ b.pipe, v.pipes.get? name ≠ none

theorem ofBindings_tidy (v : View) : v.OfBindings (Tidy v) where
  congr h hy := by
    refine ⟨fun b hb => h.tame b ?_, fun b hb => h.known b ?_⟩
    · rwa [hy _ (by simp)] at hb
    · rwa [hy _ (by simp)] at hb
  blank hx := by
    refine ⟨fun b hb => ?_, fun b hb => ?_⟩
    · rw [hx _ (by simp)] at hb
      cases hb
    · rw [hx _ (by simp)] at hb
      cases hb

theorem exec_edit_ne_unknownPipe {f : Tree → Except Tree.Error Tree} :
    (edit f).exec p ≠ (.error (.unknownPipe name), q) := by
  rw [exec_edit]
  split <;> simp

theorem exec_piped_unknownPipe {pipe : Option String} {value : Value}
    (h : (v.piped pipe value).exec p = (.error (.unknownPipe name), q)) :
    ∃ other, pipe = some other ∧ v.pipes.get? other = none := by
  rw [exec_piped] at h
  cases pipe with
  | none => cases h
  | some other =>
    refine ⟨other, rfl, ?_⟩
    cases hg : v.pipes.get? other with
    | none => rfl
    | some pipe => simp [View.pipedText, PipeRegistry.apply, hg, Except.map] at h

theorem exec_bindAttribute_unknownPipe {b : Binding}
    (h : (v.bindAttribute scope x b).exec p = (.error (.unknownPipe name), q)) :
    b.target.isSome ∧ ∃ other, b.pipe = some other ∧ v.pipes.get? other = none := by
  unfold bindAttribute at h
  cases htarget : b.target with
  | none =>
    rw [htarget] at h
    cases h
  | some target =>
    rw [htarget] at h
    simp only at h
    rw [exec_bind, exec_evaluateOrBlank] at h
    simp only at h
    rw [exec_bind] at h
    split at h
    · next shown s _ =>
      exfalso
      cases shown with
      | some text => exact exec_edit_ne_unknownPipe h
      | none =>
        simp only at h
        split at h
        · exact exec_edit_ne_unknownPipe h
        · rw [exec_bind, exec_view] at h
          exact exec_edit_ne_unknownPipe h
    · next e s hs =>
      cases h
      exact ⟨rfl, exec_piped_unknownPipe hs⟩

theorem exec_bindContentEntry_unknownPipe {b : Binding}
    (h : (v.bindContentEntry scope x b).exec p = (.error (.unknownPipe name), q)) :
    ∃ other, b.pipe = some other ∧ v.pipes.get? other = none := by
  unfold bindContentEntry at h
  rw [exec_bind, exec_evaluateOrBlank] at h
  simp only at h
  rw [exec_bind] at h
  split at h
  · rw [exec_bind, exec_view] at h
    exact absurd h exec_edit_ne_unknownPipe
  · next e s hs =>
    cases h
    exact exec_piped_unknownPipe hs

theorem exec_bindProperty_ne_unknownPipe {b : Binding} :
    (bindProperty scope x b).exec p ≠ (.error (.unknownPipe name), q) := by
  unfold bindProperty
  intro h
  split at h
  · cases h
  · rw [exec_bind, exec_evaluateOrBlank] at h
    simp only at h
    rw [exec_bind, exec_view] at h
    exact exec_edit_ne_unknownPipe h

/-- What bringing elements up to date leaves alone: bindings, and who is there, but for the content of the elements
in `filled`. -/
def binding (v : View) (filled : NodeId → Prop) : Footprint where
  followed _ := False
  removed _ := False
  filled := filled
  recorded _ := False
  heard _ := False
  written _ name := name ∉ v.marks

theorem attribute?_not_mem_marks (property : Property) {name : String} (h : name ∈ property.attribute?) :
    name ∉ v.marks := fun hn => by
  cases property <;> simp only [Property.attribute?, Option.mem_def, Option.some.injEq, reduceCtorEq] at h <;>
    exact ne_of_mem_marks hn (by rw [← h]; decide) rfl

section sync

variable {filled : NodeId → Prop} {ids : List NodeId} (hp : p.tree.WellFormed)
  (htidy : ∀ id ∈ ids, p.tree.InUse id ∧ Tidy v p.tree id)

include htidy

theorem leads_bindAttributes_tidy {s : Pass} {id : NodeId} (hid : id ∈ ids)
    (hs : Pass.Leads (2 ^ 32) (binding v filled) p s) :
    Pass.Leads (2 ^ 32) (binding v filled) s ((v.bindAttributes scope id).exec s).2 := by
  by_cases hl : s.tree.mutations < 2 ^ 32
  · refine leads_bindAttributes hs.wellFormed fun b hb target htarget => ?_
    exact (htidy id hid).2.tame.later (hs.later hl).tree (hl.trans_le (Nat.le_add_left _ _)) (htidy id hid).1
      (fun name hn hw => hw hn) b hb target htarget
  · have hall : Pass.Leads (2 ^ 32) .all s ((v.bindAttributes scope id).exec s).2 :=
      leads_bindAttributes hs.wellFormed fun _ _ _ _ => trivial
    exact hall.of_limit_le (Nat.not_lt.1 hl)

include hp

/-- Bringing tidy elements up to date leaves all bindings as they are. -/
theorem leads_sync_tidy (hf : ∀ id ∈ ids, filled id) :
    Pass.Leads (2 ^ 32) (binding v filled) p ((v.sync scope ids).exec p).2 := by
  have hselected : ∀ x, (binding v filled).written x "selected" := fun x hn => ne_of_mem_marks hn (by decide) rfl
  unfold sync
  refine leads_bind (leads_forM hp fun id hid s hs => leads_bindAttributes_tidy htidy hid hs) fun _ s _ hs => ?_
  refine leads_bind (leads_forM hs.wellFormed fun id hid r hr => ?_) fun _ r _ hr => ?_
  · exact leads_bindContent hr.wellFormed (hf id hid)
  refine leads_forM hr.wellFormed fun id hid s hs => ?_
  exact leads_bindProperties hs.wellFormed hselected (hf id hid) fun property name hn =>
    attribute?_not_mem_marks property hn

/-- Tidy elements that cannot be brought up to date for want of a pipe have an attribute binding with that pipe. -/
theorem exists_faulty_of_sync (hconn : ∀ id ∈ ids, p.tree.Inside id root)
    (h : (v.sync scope ids).exec p = (.error (.unknownPipe name), q)) (hq : q.tree.mutations < 2 ^ 32) :
    ∃ e ∈ ids, Faulty v q.tree e ∧ q.tree.InUse e ∧ Pass.Later (binding v fun _ => False) p q := by
  have hlimit : ∀ t : Tree, 2 ^ 32 ≤ t.mutations + 2 ^ 32 := fun t => Nat.le_add_left _ _
  unfold sync at h
  rw [exec_bind] at h
  split at h
  · next u s hs =>
    -- once the attributes are up to date, all pipes are known
    exfalso
    have hlead : Pass.Leads (2 ^ 32) (binding v fun _ => True) p s := leads_of_exec hs <|
      leads_forM hp fun id hid r hr => leads_bindAttributes_tidy htidy hid hr
    rw [exec_bind] at h
    split at h
    · obtain ⟨_, id, _, r, -, -, h⟩ := exec_forM_error h
      unfold bindProperties at h
      rw [exec_bind, exec_tree] at h
      obtain ⟨_, b, _, r', -, -, h⟩ := exec_forM_error h
      exact exec_bindProperty_ne_unknownPipe h
    · next err s' hs' =>
      cases h
      obtain ⟨front, id, behind, r, rfl, hfront, hid⟩ := exec_forM_error hs'
      have hfill : ∀ (id : NodeId) (r : Pass), r.tree.WellFormed →
          Pass.Leads (2 ^ 32) (binding v fun _ => True) r ((v.bindContent scope id).exec r).2 := fun id r hr =>
        leads_bindContent hr trivial
      have hr := hlead.trans (leads_of_exec hfront (leads_forM hlead.wellFormed fun id _ r hr => hfill id r hr.wellFormed))
      have hl := (leads_of_exec hid (hfill id r hr.wellFormed)).mutations_le.trans_lt hq
      unfold bindContent at hid
      rw [exec_bind, exec_tree] at hid
      obtain ⟨_, b, _, r', hmem, -, hb⟩ := exec_forM_error hid
      obtain ⟨other, hpipe, hnone⟩ := exec_bindContentEntry_unknownPipe hb
      obtain ⟨hused, ht⟩ := htidy id (by simp)
      have htr := (ofBindings_tidy v).later ht (hr.later hl).tree (hl.trans_le (hlimit _)) hused fun name hn hw => hw hn
      exact htr.known b (hmem ▸ by simp) other hpipe hnone
  · next err s hs =>
    cases h
    obtain ⟨front, e, behind, s, rfl, hfront, he⟩ := exec_forM_error hs
    have hstep : ∀ id ∈ front ++ e :: behind, ∀ r, Pass.Leads (2 ^ 32) (binding v fun _ => False) p r →
        Pass.Leads (2 ^ 32) (binding v fun _ => False) r ((v.bindAttributes scope id).exec r).2 :=
      fun id hid r hr => leads_bindAttributes_tidy htidy hid hr
    have hlead := leads_of_exec hfront (leads_forM hp fun id hid r hr => hstep id (by simp [hid]) r hr)
    have hlead' := leads_of_exec he (hstep e (by simp) s hlead)
    have hlater := (hlead.trans hlead').later hq
    have hused := hlater.tree.inUse_of_stays (hq.trans_le (hlimit _)) (hconn e (by simp)) (fun _ _ hf => hf)
      fun _ _ hf => hf
    refine ⟨e, by simp, ?_, hused, hlater⟩
    unfold bindAttributes at he
    rw [exec_bind, exec_tree] at he
    obtain ⟨_, b, _, s', hmem, -, hb⟩ := exec_forM_error he
    obtain ⟨ht, hpipe⟩ := exec_bindAttribute_unknownPipe hb
    have hfaulty : Faulty v s.tree e := ⟨b, hmem ▸ by simp, ht, hpipe⟩
    exact hfaulty.later (hlead'.later hq).tree hlead.wellFormed (hq.trans_le (hlimit _)) hused
      fun name hn hw => hw hn

end sync

end View

end ViewBinding
