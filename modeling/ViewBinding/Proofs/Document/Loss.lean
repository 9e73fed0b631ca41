import ViewBinding.Proofs.Document.Run
import ViewBinding.Proofs.Listener

/-! Who is listened to. A copy is dropped together with its listeners; where the content of an element is replaced, the
listeners on what was there stay in the store. So the store holds the listeners on elements of the document, and those that
have been lost in this way. -/
namespace ViewBinding

open ViewBinding.Tree

/-- The listeners of nodes, one node after the other. -/
theorem ListenerLog.on_flatMap (f : NodeId → List Listener) {ids : List NodeId} (hnodup : ids.Nodup) (id : NodeId) :
    ListenerLog.on (ids.flatMap fun x => (f x).map (x, ·)) id = if id ∈ ids then f id else [] := by
  induction ids with
  | nil => rfl
  | cons x ids ih =>
    obtain ⟨hx, hnodup⟩ := List.nodup_cons.1 hnodup
    have hhead : ListenerLog.on ((f x).map (x, ·)) id = if x = id then f x else [] := by
      by_cases he : x = id <;> simp [ListenerLog.on, he, List.filter_map, Function.comp_def]
    have happend : ∀ front behind : ListenerLog, ListenerLog.on (front ++ behind) id = front.on id ++ behind.on id :=
      fun front behind => by simp [ListenerLog.on]
    rw [List.flatMap_cons, happend, hhead, ih hnodup]
    by_cases he : x = id
    · simp [← he, hx]
    · simp [he, Ne.symm he]

/-- All listeners, counted on nodes that include all that are listened to. -/
theorem ListenerStore.size_eq_sum (s : ListenerStore) {ids : List NodeId} (hnodup : ids.Nodup)
    (h : ∀ x, s.on x ≠ [] → x ∈ ids) : s.size = (ids.map s.countOn).sum := by
  have hfollows : s.Follows (ids.flatMap fun x => (s.on x).map (x, ·)) := fun id => by
    rw [ListenerLog.on_flatMap s.on hnodup]
    split
    · rfl
    · next hid => exact not_not.1 fun hne => hid (h id hne)
  rw [hfollows.size, List.length_flatMap]
  simp only [List.length_map]
  rfl

namespace Document

/-- Whether anybody listens to a node. -/
def heard (d : Document) (x : NodeId) : Bool := !(d.listeners.on x).isEmpty

/--
One thing that is done to a document, with the nodes that it takes away although somebody listens to them. An edit that takes no
node away loses none, and neither does dropping a node with its listeners.
-/
inductive Act : Document → List NodeId → Document → Prop
  | edit {d : Document} {top : NodeId} {t : Tree} (h : d.tree.Edit top [] t) : Act d [] { d with tree := t }
  | refill {d : Document} {id : NodeId} (h : d.tree.isElement id = true) (content : List Markup) :
    Act d ((d.tree.preorder id).tail.filter d.heard) { d with tree := ((d.tree.clear id).fill id content).touch }
  | drop {d : Document} {id up : NodeId} {t : Tree} (hup : d.tree.parent? id = some up) (h : d.tree.remove id = .ok t) :
    Act d [] ⟨t, d.listeners.purge (d.tree.preorder id)⟩
  | install {d : Document} {id : NodeId} (h : d.tree.isElement id = true) (l : Listener) :
    Act d [] { d with listeners := d.listeners.install id l }

/-- Things that are done one after the other, with the nodes that they lose. -/
inductive Acts (d : Document) : List NodeId → Document → Prop
  | refl : Acts d [] d
  | tail {lost more : List NodeId} {d' d'' : Document} (h : Acts d lost d') (hact : Act d' more d'') : Acts d (lost ++ more) d''

variable {d d' d'' : Document} {lost more : List NodeId} {x : NodeId}

theorem heard_iff : d.heard x = true ↔ d.listeners.on x ≠ [] := by simp [heard]

/-- A handle that names nothing any more stays so, as long as its slot does not come to the same generation again. -/
theorem Run.expired {changes : List Change} (h : Run d changes d') (hd : d.tree.Whole) {since : Nat} (hx : d.tree.Expired since x) :
    d'.tree.Expired since x := by
  obtain ⟨k, hk, hle, hg⟩ := hx
  have hcount := h.mutations_add_count_le hd x.slot
  refine ⟨k + ((taken changes).map (·.slot)).count x.slot, by omega, by omega, ?_⟩
  rw [(h.kept hd).generation, hg, UInt32.ofNat_add, UInt32.add_assoc]

theorem Run.expired_of_mem_taken {changes : List Change} (h : Run d changes d') (hd : d.tree.Whole) (hx : d.tree.InUse x)
    (hmem : x ∈ taken changes) : d'.tree.Expired 0 x := by
  have hcount := h.mutations_add_count_le hd x.slot
  refine ⟨((taken changes).map (·.slot)).count x.slot, List.count_pos_iff.2 (List.mem_map_of_mem hmem), by omega, ?_⟩
  rw [(h.kept hd).generation, generation_of_isLive hx.1]

namespace Act

theorem exists_run (h : Act d lost d') : ∃ changes, d.Run changes d' ∧ lost ⊆ taken changes := by
  cases h with
  | edit h => exact ⟨_, .single (.edit h), List.nil_subset _⟩
  | @refill id h content =>
    refine ⟨_, .single (.edit (.refill h content)), fun x hx => ?_⟩
    rw [taken_edit]
    exact (List.mem_filter.1 hx).1
  | drop hup h => exact ⟨_, .tail (.single (.purge d _)) (.edit (.remove hup h)), List.nil_subset _⟩
  | install h l => exact ⟨_, .single (.install h l), List.nil_subset _⟩

/-- What is lost has been there until now. -/
theorem inUse_of_mem (h : Act d lost d') (hd : d.tree.Whole) (hx : x ∈ lost) : d.tree.InUse x := by
  cases h with
  | edit _ => cases hx
  | refill h content =>
    exact (((Edit.refill h content).edited hd).taken x (List.mem_filter.1 hx).1).1
  | drop _ _ => cases hx
  | install _ _ => cases hx

theorem nodup (h : Act d lost d') (hd : d.tree.Whole) : lost.Nodup := by
  cases h with
  | edit _ => exact List.nodup_nil
  | refill h content => exact ((hd.wellFormed.nodup_preorder (hd.wellFormed.inUse_of_isElement h)).tail).filter _
  | drop _ _ => exact List.nodup_nil
  | install _ _ => exact List.nodup_nil

theorem heard_of_mem (h : Act d lost d') (hx : x ∈ lost) : d.heard x = true := by
  cases h with
  | edit _ => cases hx
  | refill _ _ => exact (List.mem_filter.1 hx).2
  | drop _ _ => cases hx
  | install _ _ => cases hx

/-- Only dropping a node silences it. -/
theorem heard (h : Act d lost d') (hd : d.tree.Whole) (hx : d.heard x = true) (hgone : x ∈ lost ∨ ¬ d.tree.InUse x) :
    d'.heard x = true := by
  rw [heard_iff] at hx ⊢
  cases h with
  | edit _ => exact hx
  | refill _ _ => exact hx
  | drop hup _ =>
    have hin : x ∉ d.tree.preorder _ := fun hmem =>
      (hgone.resolve_left List.not_mem_nil) (hd.wellFormed.inUse_of_mem_preorder (hd.wellFormed.inUse_of_parent? hup) hmem)
    rwa [ListenerStore.on_purge, if_neg (by simpa using hin)]
  | @install id _ l =>
    by_cases he : x = id
    · rw [he, ListenerStore.on_install_self, ListenerStore.reinstalled]
      simp
    · rwa [ListenerStore.on_install_of_ne _ he]

/-- Somebody listens to elements of the document, and to what has been lost. -/
theorem traced (h : Act d more d') (hd : d.tree.Whole)
    (hall : ∀ x, d.heard x = true → d.tree.isElement x = true ∨ x ∈ lost) :
    ∀ x, d'.heard x = true → d'.tree.isElement x = true ∨ x ∈ lost ++ more := by
  -- an element that an edit does not take away stays one
  have hstays : ∀ {top gone t}, d.tree.Edit top gone t → ∀ x, d.heard x = true → x ∉ gone →
      t.isElement x = true ∨ x ∈ lost ++ more := fun hedit x hx hg => (hall x hx).imp
    (fun he => by
      have hedited := hedit.edited hd
      have hused := hd.wellFormed.inUse_of_isElement he
      rw [hedited.isElement_eq hused ((hedited.inUse_iff hused).2 hg), he])
    (List.mem_append_left _)
  intro x hx
  cases h with
  | edit h => exact hstays h x hx List.not_mem_nil
  | @refill id h content =>
    by_cases hg : x ∈ (d.tree.preorder id).tail
    · exact .inr (List.mem_append_right _ (List.mem_filter.2 ⟨hg, hx⟩))
    · exact hstays (.refill h content) x hx hg
  | @drop id _ _ hup h =>
    rw [heard_iff, ListenerStore.on_purge] at hx
    split at hx
    · exact absurd rfl hx
    · next hg => exact hstays (.remove hup h) x (heard_iff.2 hx) (by simpa using hg)
  | @install id h l =>
    by_cases he : x = id
    · exact .inl (he ▸ h)
    · rw [heard_iff, ListenerStore.on_install_of_ne _ he] at hx
      exact (hall x (heard_iff.2 hx)).imp_right (List.mem_append_left _)

end Act

namespace Acts

theorem single (h : Act d lost d') : Acts d lost d' := .tail .refl h

theorem trans (h : Acts d lost d') (h' : Acts d' more d'') : Acts d (lost ++ more) d'' := by
  induction h' with
  | refl => rwa [List.append_nil]
  | tail _ hact ih => exact List.append_assoc .. ▸ .tail ih hact

theorem exists_run (h : Acts d lost d') : ∃ changes, d.Run changes d' ∧ lost ⊆ taken changes := by
  induction h with
  | refl => exact ⟨[], .refl, List.nil_subset _⟩
  | tail _ hact ih =>
    obtain ⟨changes, hrun, hlost⟩ := ih
    obtain ⟨rest, hrest, hmore⟩ := hact.exists_run
    refine ⟨_, hrun.trans hrest, ?_⟩
    rw [taken_append]
    exact List.append_subset.2 ⟨List.subset_append_of_subset_left _ hlost, List.subset_append_of_subset_right _ hmore⟩

theorem whole (h : Acts d lost d') (hd : d.tree.Whole) : d'.tree.Whole :=
  let ⟨_, hrun, _⟩ := h.exists_run
  (hrun.kept hd).whole

theorem mutations_le (h : Acts d lost d') (hd : d.tree.Whole) : d.tree.mutations ≤ d'.tree.mutations :=
  let ⟨_, hrun, _⟩ := h.exists_run
  Nat.le_of_add_right_le (hrun.mutations_add_count_le hd 0)

/-- The handles of lost nodes name nothing. -/
theorem expired (h : Acts d lost d') (hd : d.tree.Whole) : ∀ x ∈ lost, d'.tree.Expired 0 x := by
  induction h with
  | refl => simp
  | tail h hact ih =>
    have hwhole := h.whole hd
    obtain ⟨changes, hrun, hmore⟩ := hact.exists_run
    intro x hx
    rcases List.mem_append.1 hx with hx | hx
    · exact hrun.expired hwhole (ih x hx)
    · exact hrun.expired_of_mem_taken hwhole (hact.inUse_of_mem hwhole hx) (hmore hx)

theorem not_isLive (h : Acts d lost d') (hd : d.tree.Whole) (hm : d'.tree.mutations < 2 ^ 32) (hx : x ∈ lost) :
    d'.tree.isLive x ≠ true :=
  (h.expired hd x hx).not_isLive (by omega)

/-- The listeners of lost nodes stay in the store. -/
theorem heard (h : Acts d lost d') (hd : d.tree.Whole) (hm : d'.tree.mutations < 2 ^ 32) : ∀ x ∈ lost, d'.heard x = true := by
  induction h with
  | refl => simp
  | tail h hact ih =>
    have hwhole := h.whole hd
    have hm' := ((single hact).mutations_le hwhole).trans_lt hm
    intro x hx
    rcases List.mem_append.1 hx with hx | hx
    · exact hact.heard hwhole (ih hm' x hx) (.inr fun hused => h.not_isLive hd hm' hx hused.1)
    · exact hact.heard hwhole (hact.heard_of_mem hx) (.inl hx)

theorem nodup (h : Acts d lost d') (hd : d.tree.Whole) (hm : d'.tree.mutations < 2 ^ 32) : lost.Nodup := by
  induction h with
  | refl => exact List.nodup_nil
  | tail h hact ih =>
    have hwhole := h.whole hd
    have hm' := ((single hact).mutations_le hwhole).trans_lt hm
    refine List.nodup_append.2 ⟨ih hm', hact.nodup hwhole, ?_⟩
    rintro x hx y hy rfl
    exact h.not_isLive hd hm' hx (hact.inUse_of_mem hwhole hy).1

/-- Somebody listens to elements of the document, and to what has been lost. -/
theorem traced (h : Acts d lost d') (hd : d.tree.Whole) (hnone : d.listeners = .empty) :
    ∀ x, d'.heard x = true → d'.tree.isElement x = true ∨ x ∈ lost := by
  induction h with
  | refl =>
    intro x hx
    rw [heard_iff, hnone] at hx
    exact absurd rfl hx
  | tail h hact ih => exact hact.traced (h.whole hd) ih

end Acts

end Document

end ViewBinding
