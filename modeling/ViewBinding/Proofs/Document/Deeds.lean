import ViewBinding.Proofs.Document.Run
import ViewBinding.Proofs.Tree.Fence

/-! What is done to a document outside of a fence: elements are written, children come and go, and listeners are installed and
dropped. What is behind the fence, and who listens to it, stays as it is. -/
namespace ViewBinding.Document

open ViewBinding.Tree (Fence)

/-- One thing that is done to a document, outside of a fence. -/
inductive Deed (F : Fence) : Document → Document → Prop
  | rewrite {d : Document} {id : NodeId} {t : Tree} (hid : ¬ F.kept id) (h : d.tree.Rewrite id t) : Deed F d { d with tree := t }
  | relist {d : Document} {up : NodeId} {t : Tree} (hup : ¬ F.spared up) (h : d.tree.Relist up t) : Deed F d { d with tree := t }
  | install {d : Document} {id : NodeId} (hid : ¬ F.kept id) (h : d.tree.isElement id = true) (l : Listener) :
    Deed F d { d with listeners := d.listeners.install id l }
  | purge (d : Document) {ids : List NodeId} (hids : ∀ id ∈ ids, ¬ F.kept id) :
    Deed F d { d with listeners := d.listeners.purge ids }

/-- Things that are done one after the other. -/
abbrev Deeds (F : Fence) : Document → Document → Prop := Relation.ReflTransGen (Deed F)

variable {F G : Fence} {d d' : Document} {x : NodeId}

theorem Deed.exists_run (h : Deed F d d') (hd : d.tree.Whole) : ∃ changes, d.Run changes d' := by
  cases h with
  | rewrite _ h =>
    obtain ⟨gone, hedit⟩ := h.edit hd.wellFormed
    exact ⟨_, .single (.edit hedit)⟩
  | relist _ h =>
    obtain ⟨gone, hedit⟩ := h.edit hd.wellFormed
    exact ⟨_, .single (.edit hedit)⟩
  | install _ h l => exact ⟨_, .single (.install h l)⟩
  | purge _ => exact ⟨_, .single (.purge ..)⟩

theorem Deed.mono (h : Deed F d d') (hG : F.Encloses G) : Deed G d d' := by
  cases h with
  | rewrite hid h => exact .rewrite (fun hk => hid (hG.kept _ hk)) h
  | relist hup h => exact .relist (fun hs => hup (hG.spared _ hs)) h
  | install hid h l => exact .install (fun hk => hid (hG.kept _ hk)) h l
  | purge hids => exact .purge _ fun id hid hk => hids id hid (hG.kept _ hk)

/-- The fence stands after each deed, and what is behind it is as it was. -/
theorem Deed.around (h : Deed F d d') (hd : F.Around d.tree) : F.Around d'.tree ∧ F.Keeps d.tree d'.tree := by
  cases h with
  | rewrite hid h => exact hd.rewrite hid h
  | relist hup h => exact hd.relist hup h
  | install _ _ l => exact ⟨hd, .refl F _⟩
  | purge _ => exact ⟨hd, .refl F _⟩

theorem Deed.stands (h : Deed F d d') (hd : F.Stands d.tree) : F.Stands d'.tree ∧ F.Shelters d.tree d'.tree := by
  cases h with
  | rewrite hid h => exact hd.rewrite hid h
  | relist hup h => exact hd.relist hup h
  | install _ _ l => exact ⟨hd, .refl F _⟩
  | purge _ => exact ⟨hd, .refl F _⟩

theorem Deed.listeners_on (h : Deed F d d') (hx : F.kept x) : d'.listeners.on x = d.listeners.on x := by
  cases h with
  | rewrite _ _ => rfl
  | relist _ _ => rfl
  | install hid _ l =>
    refine ListenerStore.on_install_of_ne _ ?_ l
    rintro rfl
    exact hid hx
  | purge hids =>
    refine (ListenerStore.on_purge ..).trans (if_neg fun hmem => ?_)
    exact hids x (List.contains_iff_mem.1 hmem) hx

namespace Deeds

theorem mono (h : Deeds F d d') (hG : F.Encloses G) : Deeds G d d' := h.lift (fun d => d) fun _ _ hdeed => hdeed.mono hG

theorem around (h : Deeds F d d') (hd : F.Around d.tree) : F.Around d'.tree ∧ F.Keeps d.tree d'.tree := by
  induction h with
  | refl => exact ⟨hd, .refl F _⟩
  | tail _ hdeed ih =>
    obtain ⟨hnext, hkeeps⟩ := hdeed.around ih.1
    exact ⟨hnext, ih.2.trans hkeeps⟩

theorem stands (h : Deeds F d d') (hd : F.Stands d.tree) : F.Stands d'.tree ∧ F.Shelters d.tree d'.tree := by
  induction h with
  | refl => exact ⟨hd, .refl F _⟩
  | tail _ hdeed ih =>
    obtain ⟨hnext, hshelters⟩ := hdeed.stands ih.1
    exact ⟨hnext, ih.2.trans hshelters⟩

theorem whole (h : Deeds F d d') (hd : d.tree.Whole) : d'.tree.Whole :=
  ((h.mono F.encloses_nowhere).stands (Fence.stands_nowhere hd)).1.whole

/-- Who listens to a node behind the fence goes on listening, and nobody else does. -/
theorem listeners_on (h : Deeds F d d') (hx : F.kept x) : d'.listeners.on x = d.listeners.on x := by
  induction h with
  | refl => rfl
  | tail _ hdeed ih => exact (hdeed.listeners_on hx).trans ih

theorem exists_run (h : Deeds F d d') (hd : d.tree.Whole) : ∃ changes, d.Run changes d' := by
  induction h with
  | refl => exact ⟨[], .refl⟩
  | tail _ hdeed ih =>
    obtain ⟨changes, hrun⟩ := ih
    obtain ⟨more, hmore⟩ := hdeed.exists_run (hrun.kept hd).whole
    exact ⟨_, hrun.trans hmore⟩

end Deeds

end ViewBinding.Document
