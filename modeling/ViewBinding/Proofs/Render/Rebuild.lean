import ViewBinding.Proofs.Render.CopiesBound
import ViewBinding.Proofs.Render.TearDown

/-! One rebuild of a list: the copies of the last one are torn down, new ones are made, bound and marked, and the template is
hidden. What is beside the list stays in place. -/
namespace ViewBinding

open ViewBinding.Tree

namespace Document

variable {F : Fence} {d d' m : Document} {x : NodeId}

namespace Deeds

theorem mutations_le (h : Deeds F d d') (hd : d.tree.Whole) : d.tree.mutations ≤ d'.tree.mutations := by
  obtain ⟨changes, hrun⟩ := h.exists_run hd
  exact Nat.le_of_add_right_le (hrun.mutations_add_count_le hd 0)

/-- A node that has gone does not come back before its slot has been through all generations. -/
theorem not_isLive (h : Deeds F d m) (h' : Deeds F m d') (hd : d.tree.Whole) (hx : d.tree.InUse x) (hgone : ¬ m.tree.InUse x)
    (hfew : d'.tree.mutations < d.tree.mutations + 2 ^ 32) : d'.tree.isLive x ≠ true := by
  obtain ⟨changes, hrun⟩ := h.exists_run hd
  obtain ⟨more, hmore⟩ := h'.exists_run (h.whole hd)
  have hall := hrun.trans hmore
  refine hall.not_isLive hd hx ?_ ?_
  · rw [taken_append]
    exact List.mem_append_left _ (by_contra fun hmem => hgone (hrun.inUse hd hx hmem))
  · have hle := hall.mutations_add_count_le hd x.slot
    omega

/-- Nobody listens to what is not there. -/
theorem on_eq_nil (h : Deeds F d d') (hon : d.listeners.on x = [])
    (hdead : ∀ m, Deeds F d m → Deeds F m d' → m.tree.isElement x ≠ true) : d'.listeners.on x = [] := by
  induction h with
  | refl => exact hon
  | @tail m d' h hdeed ih =>
    have hbefore := ih fun m' hm hm' => hdead m' hm (hm'.tail hdeed)
    cases hdeed with
    | rewrite _ _ => exact hbefore
    | relist _ _ => exact hbefore
    | install _ helement l =>
      refine (ListenerStore.on_install_of_ne _ ?_ l).trans hbefore
      rintro rfl
      exact hdead m h (.single (.install ‹_› helement l)) helement
    | purge _ =>
      refine (ListenerStore.on_purge ..).trans ?_
      split
      · rfl
      · exact hbefore

end Deeds

end Document

namespace Pass

variable {F : Fence} {a x : NodeId} {p q : Pass}

/-- What has been forgotten is not remembered as long as it is not there. -/
theorem Works.forgets (h : Works F a p q) (hx : p.Forgets x)
    (hdead : ∀ d, p.document.Deeds F d → d.Deeds F q.document → ¬ d.tree.InUse x ∧ d.tree.isElement x ≠ true) : q.Forgets x where
  unheard := h.deeds.on_eq_nil hx.unheard fun d hd hd' => (hdead d hd hd').2
  unrecorded hmem := by
    rcases h.recorded x hmem with hold | ⟨d, hd, hused, hd'⟩
    · exact hx.unrecorded hold
    · exact (hdead d hd hd').1 hused

end Pass

/-- A recorded child of a node that carries a class. -/
def Pass.Stale (p : Pass) (up : NodeId) (cls : String) (c : NodeId) : Prop :=
  p.tree.parent? c = some up ∧ c ∈ p.copies ∧ p.tree.hasClass c cls = true

instance (p : Pass) (up : NodeId) (cls : String) (c : NodeId) : Decidable (p.Stale up cls c) :=
  inferInstanceAs (Decidable (_ ∧ _ ∧ _))

namespace View

open Render Pass

variable {v : View} {fuel : Nat} {template up c : NodeId} {cls : String} {scope : Scope} {items : List Value} {p q r s : Pass}

theorem mem_staleCopies_iff (hp : p.tree.WellFormed) (hup : p.tree.parent? template = some up) :
    c ∈ staleCopies p.tree p.copies template cls ↔ p.Stale up cls c := by
  rw [staleCopies, hup]
  simp only [List.mem_filter, Tree.elementChildren, hp.mem_children_iff, Bool.and_eq_true, List.contains_iff_mem, Pass.Stale]
  constructor
  · rintro ⟨⟨hc, -⟩, hrecorded, hclass⟩
    exact ⟨hc, hrecorded, hclass⟩
  · rintro ⟨hc, hrecorded, hclass⟩
    refine ⟨⟨hc, ?_⟩, hrecorded, hclass⟩
    rw [Tree.hasClass] at hclass
    cases he : p.tree.element? c <;> simp_all [Tree.isElement]

/-- A copy is not touched when its template is marked. -/
theorem BoundCopy.setAttr {item : ItemScope} {t : Tree} {name value : String} (h : BoundCopy v fuel template up cls item p q c)
    (hq : q.tree.Whole) (hc : q.tree.parent? c = some up) (hup : q.tree.parent? template = some up) (hne : template ≠ c)
    (hset : q.tree.setAttr template name value = .ok t) : BoundCopy v fuel template up cls item p (q.withTree t) c := by
  refine h.stays hq.wellFormed hc (.single (.change q _ q.copies)) fun x hx hin => .setAttr hq hset hx ?_
  rintro rfl
  obtain ⟨y, hy, hyc⟩ := hin.eq_or_up.resolve_left hne
  rw [hup] at hy
  obtain rfl := Option.some.inj hy
  exact hq.wellFormed.not_inside_of_parent? hc hyc

end View

end ViewBinding
