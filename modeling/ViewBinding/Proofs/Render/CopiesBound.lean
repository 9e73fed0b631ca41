import ViewBinding.Proofs.Render.CopiesMade
import ViewBinding.Proofs.Render.OwnAttributes

/-! The copies of a list once it has been made. Each of them was put behind the one before it, bound in the scope of its item,
and then marked; the copies made after it leave it as it is. -/
namespace ViewBinding

open ViewBinding.Tree

namespace Pass

/-- A node is there afterwards as it was, apart from one attribute. -/
structure StaysBut (mark : String) (p q : Pass) (x : NodeId) : Prop where
  inUse : q.tree.InUse x
  parent? : q.tree.parent? x = p.tree.parent? x
  children : q.tree.children x = p.tree.children x
  attr? : ∀ name, Text.asciiLower name ≠ Text.asciiLower mark → q.tree.attr? x name = p.tree.attr? x name
  listeners : q.document.listeners.on x = p.document.listeners.on x

end Pass

namespace View

open Render Pass

/--
A copy of a template that has been made and bound with an item on the way from `p` to `q`. It was made while all that had been
there, the template with what is in it, was as it had been. All that was in it when it had been bound is in it in the end, and
the copy itself has changed in its class only.
-/
structure BoundCopy (v : View) (fuel : Nat) (template up : NodeId) (cls : String) (item : ItemScope) (p q : Pass)
    (c : NodeId) : Prop where
  isElement : q.tree.isElement c = true
  plain : q.tree.attr? c (v.attributeName .foreach) = none
  tagged : q.tree.hasClass c cls = true
  recorded : c ∈ q.copies
  bound : ∃ anchor before inserted after, p.Moves before ∧ (∀ x, p.tree.InUse x → Stays up p before x) ∧
    (v.insertCopy template anchor).exec before = (.ok c, inserted) ∧
    (v.bindCopy (v.renderListWithin fuel) c item).exec inserted = (.ok (), after) ∧ after.Moves q ∧
    StaysBut "class" after q c ∧ ∀ x, after.tree.Inside x c → x ≠ c → Stays c after q x

variable {v : View} {fuel : Nat} {template anchor c up x : NodeId} {cls : String} {scope : Scope} {p q r s : Pass}
  {front behind : List NodeId}

/-- A copy that is put in place is the next sibling of its anchor. It is an element, with no entries but those of its template. -/
theorem insertCopy_spec (hp : p.tree.Whole) (helement : p.tree.isElement template = true)
    (hup : p.tree.parent? anchor = some up) (hchildren : p.tree.children up = front ++ anchor :: behind)
    (h : (v.insertCopy template anchor).exec p = (.ok c, q)) :
    q.tree.Whole ∧ q.tree.children up = front ++ anchor :: c :: behind ∧ q.tree.isElement c = true ∧
      (∀ x, p.tree.InUse x → Stays up p q x) ∧ ∀ kind, ∀ b ∈ v.entriesAt kind q.tree c, b ∈ v.entriesAt kind p.tree template := by
  obtain ⟨t₁, t₂, t₃, t₄, hcopy, h₂, h₃, h₄, rfl⟩ := exec_insertCopy_ok h
  obtain ⟨hafter, hself, hattrs⟩ := insert_spec hp helement hcopy h₂ h₃ h₄ hup hchildren
  have hrelist : p.tree.Relist up t₄ := .insert hup helement hcopy h₂ h₃ h₄
  obtain ⟨c', t, hexec, -, hedit⟩ := exec_insertCopy (v := v) hp helement hup
  obtain ⟨rfl, rfl⟩ : c' = c ∧ t = t₄ := by
    rw [hexec] at h
    have hpass := congrArg (fun r => r.2.tree) h
    exact ⟨by simpa using congrArg Prod.fst h, by simpa using hpass⟩
  have hedited := hedit.edited hp
  refine ⟨hedited.whole, hafter, hself, fun x hx => .relist hp hrelist hx (hedited.stays x hx List.not_mem_nil).1, fun kind b hb => ?_⟩
  unfold entriesAt at hb ⊢
  cases hraw : t.attr? c' (v.attributeName kind) with
  | none =>
    rw [Pass.tree_withTree, hraw] at hb
    cases hb
  | some raw =>
    rw [Pass.tree_withTree, hraw] at hb
    rwa [hattrs _ _ hraw]

/-- Making one copy, binding and marking it leaves alone what was there, but for the children of its parent. -/
theorem makeCopy_kept {item : ItemScope} {t : Tree} (hp : p.tree.Whole) (helement : p.tree.isElement template = true)
    (hup : p.tree.parent? anchor = some up) (hchildren : p.tree.children up = front ++ anchor :: behind)
    (hinsert : (v.insertCopy template anchor).exec p = (.ok c, q))
    (hbind : (v.bindCopy (v.renderListWithin fuel) c item).exec q = (.ok (), r)) (hclass : r.tree.addClass c cls = .ok t) :
    let s : Pass := { r.withTree t with copies := c :: r.copies }
    s.tree.Whole ∧ ¬ p.tree.InUse c ∧ s.tree.parent? c = some up ∧ s.tree.children up = front ++ anchor :: c :: behind ∧
      ∀ x, p.tree.InUse x → Stays up p s x := by
  intro s
  obtain ⟨hq, hnext, -, hstays, -⟩ := insertCopy_spec hp helement hup hchildren hinsert
  have hin := inserted_of_exec hp.wellFormed hinsert
  have hc := hin.inUse
  have hwq := hq.wellFormed
  have hcup : q.tree.parent? c = some up := hwq.mem_children_iff.1 (by simp [hnext])
  have hupc : ¬ q.tree.Inside up c := hwq.not_inside_of_parent? hcup
  have hworks := works_bindCopy_fenceBeside hq hc hin.plain fuel item
  have hbound : ∀ x up', q.tree.InUse x → ¬ q.tree.Inside x c → Stays up' q r x := fun x up' hx hout => by
    have hall : Stays up' q ((v.bindCopy (v.renderListWithin fuel) c item).exec q).2 x :=
      stays_bindCopy hq hc hin.plain fuel item hx hout
    rwa [hbind] at hall
  rw [hbind] at hworks
  have hr : r.tree.Whole := hworks.deeds.whole hq
  have hupr : r.tree.parent? c = some up := (hworks.confined.parent? c (outside_self hc)).trans hcup
  have hwrites := writes_addClass hr.wellFormed hclass
  have hmarked : ∀ {x up'}, r.tree.InUse x → x ≠ c → Stays up' r s x := fun hx hxc =>
    (Stays.addClass hr hclass hx hxc).trans (.record (p := r.withTree t) ((hwrites.inUse _).2 hx) hxc)
  have hold : ∀ x, p.tree.InUse x → ¬ q.tree.Inside x c := fun x hx hxc =>
    hin.unused x ((hwq.mem_preorder_iff_inside hc).2 hxc) hx
  have hnew : ¬ p.tree.InUse c := hin.unused c (hwq.self_mem_preorder hc)
  refine ⟨?_, hnew, (hwrites.parent? c).trans hupr, ?_, fun x hx => ?_⟩
  · obtain ⟨gone, hedit⟩ : ∃ gone, r.tree.Edit c gone t := ⟨_, .write hwrites⟩
    exact (hedit.edited hr).whole
  · have hupq := hwq.inUse_parent hcup
    have hne : up ≠ c := fun he => hupc (by rw [he]; exact .refl _ c)
    have hfirst : Stays c q r up := hbound up c hupq hupc
    have hsecond : Stays c r s up := hmarked hfirst.inUse hne
    rw [hsecond.children hne, hfirst.children hne, hnext]
  · have hfirst := hstays x hx
    have hsecond : Stays up q r x := hbound x up hfirst.inUse (hold x hx)
    exact (hfirst.trans hsecond).trans (hmarked hsecond.inUse fun he => hnew (he ▸ hx))

/-- What stays in a node lies in it afterwards. -/
theorem inside_of_stays (h : ∀ x, p.tree.Inside x c → x ≠ c → Stays c p q x) (hx : p.tree.Inside x c) : q.tree.Inside x c := by
  induction hx using Relation.ReflTransGen.head_induction_on with
  | refl => exact .refl q.tree c
  | @head x y hup hy ih =>
    by_cases hne : x = c
    · exact hne ▸ .refl q.tree x
    · exact .up ((h x (.up hup hy) hne).parent?.trans hup) ih

/-- A copy is as it was while its siblings come and go. -/
theorem BoundCopy.stays {item : ItemScope} (h : BoundCopy v fuel template up cls item p q c)
    (hq : q.tree.WellFormed) (hup : q.tree.parent? c = some up) (hmoves : q.Moves r)
    (hall : ∀ x, q.tree.InUse x → q.tree.Inside x c → Stays up q r x) : BoundCopy v fuel template up cls item p r c := by
  have hself := hall c (hq.inUse_of_parent? hup) (.refl q.tree c)
  have hne : c ≠ up := fun he => hq.not_inside_of_parent? hup (he ▸ .refl q.tree c)
  obtain ⟨anchor, before, inserted, after, hbefore, hkept, hinsert, hbind, hafter, hmarked, hbelow⟩ := h.bound
  refine ⟨hself.isElement.trans h.isElement, (hself.attr? _).trans h.plain, (hself.hasClass cls).trans h.tagged,
    hself.recorded.2 h.recorded, anchor, before, inserted, after, hbefore, hkept, hinsert, hbind, hafter.trans hmoves, ?_,
    fun x hx hxc => ?_⟩
  · exact ⟨hself.inUse, hself.parent?.trans hmarked.parent?, (hself.children hne).trans hmarked.children,
      fun name hn => (hself.attr? name).trans (hmarked.attr? name hn), hself.listeners.trans hmarked.listeners⟩
  · have hfirst := hbelow x hx hxc
    have hin := inside_of_stays hbelow hx
    have hxup : x ≠ up := by
      rintro rfl
      exact hq.not_inside_of_parent? hup hin
    exact hfirst.trans ((hall x hfirst.inUse hin).of_ne hxup c)

end View

end ViewBinding
