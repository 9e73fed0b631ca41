import ViewBinding.Proofs.Session.Reached

/-! The listeners outside of lists. They are installed when the view model is created, and a node keeps them as long as
it is there. -/
namespace ViewBinding

namespace ListenerStore

variable {s : ListenerStore} {id x : NodeId} {l l' wanted : Listener}

theorem mem_on_install (h : l ∈ (s.install id l').on x) : l ∈ s.on x ∨ x = id ∧ l = l' := by
  by_cases hx : x = id
  · subst hx
    rw [on_install_self, reinstalled, List.mem_append, List.mem_singleton] at h
    exact h.imp (fun hl => (List.mem_filter.1 hl).1) fun he => ⟨rfl, he⟩
  · rw [on_install_of_ne s hx] at h
    exact .inl h

theorem sameSlot_self (l : Listener) : sameSlot l l = true := by simp [sameSlot]

/-- Whether a node has a listener in the slot of another one. -/
def Fills (s : ListenerStore) (x : NodeId) (wanted : Listener) : Prop := ∃ l ∈ s.on x, sameSlot l wanted = true

theorem fills_install_self (s : ListenerStore) (x : NodeId) (l : Listener) : (s.install x l).Fills x l :=
  ⟨l, by simp [on_install_self, reinstalled], sameSlot_self l⟩

/-- A slot that is filled stays filled. -/
theorem Fills.install (h : s.Fills x wanted) (id : NodeId) (l : Listener) : (s.install id l).Fills x wanted := by
  obtain ⟨old, hold, hslot⟩ := h
  by_cases hx : x = id
  · subst hx
    by_cases hsame : sameSlot old l = true
    · refine ⟨l, by simp [on_install_self, reinstalled], ?_⟩
      simp only [sameSlot, Bool.and_eq_true, beq_iff_eq] at hslot hsame ⊢
      exact ⟨hsame.1.symm.trans hslot.1, hsame.2.symm.trans hslot.2⟩
    · refine ⟨old, ?_, hslot⟩
      rw [on_install_self, reinstalled]
      exact List.mem_append_left _ (List.mem_filter.2 ⟨hold, by simpa using hsame⟩)
  · exact ⟨old, by rwa [on_install_of_ne s hx], hslot⟩

theorem Fills.foldl_install (h : s.Fills x wanted) (id : NodeId) (listeners : List Listener) :
    (listeners.foldl (·.install id ·) s).Fills x wanted := by
  induction listeners generalizing s with
  | nil => exact h
  | cons l listeners ih => exact ih (h.install id l)

theorem fills_foldl_install (s : ListenerStore) (x : NodeId) {listeners : List Listener} (h : l ∈ listeners) :
    (listeners.foldl (·.install x ·) s).Fills x l := by
  induction listeners generalizing s with
  | nil => cases h
  | cons first listeners ih =>
    rcases List.mem_cons.1 h with rfl | h
    · exact (fills_install_self s x l).foldl_install x listeners
    · exact ih _ h

theorem mem_on_foldl_install {listeners : List Listener} (h : l ∈ (listeners.foldl (·.install id ·) s).on x) :
    l ∈ s.on x ∨ x = id ∧ l ∈ listeners := by
  induction listeners generalizing s with
  | nil => exact .inl h
  | cons first listeners ih =>
    rcases ih h with h | ⟨hx, h⟩
    · exact (mem_on_install h).imp_right fun hl => ⟨hl.1, by simp [hl.2]⟩
    · exact .inr ⟨hx, List.mem_cons_of_mem _ h⟩

end ListenerStore

namespace View

variable {v : View} {d : Document} {x root : NodeId} {l : Listener}

/-- The listeners that the bindings of an element outside of lists ask for. -/
def listenersAt (v : View) (t : Tree) (x : NodeId) : List Listener :=
  v.writeBackListeners t x none ++ v.handlerListeners t x none

/-- Listening to elements one after the other, each for the bindings that it has. -/
theorem mem_on_foldl_listen {ids : List NodeId} (h : l ∈ (ids.foldl (v.listen none) d).listeners.on x) :
    l ∈ d.listeners.on x ∨ l ∈ v.listenersAt d.tree x := by
  induction ids generalizing d with
  | nil => exact .inl h
  | cons id ids ih =>
    rcases ih h with h | h
    · refine (ListenerStore.mem_on_foldl_install h).imp_right ?_
      rintro ⟨rfl, hl⟩
      exact hl
    · exact .inr h

theorem fills_foldl_listen_of_fills {ids : List NodeId} (h : d.listeners.Fills x l) :
    (ids.foldl (v.listen none) d).listeners.Fills x l := by
  induction ids generalizing d with
  | nil => exact h
  | cons id ids ih => exact ih (h.foldl_install id _)

theorem fills_foldl_listen {ids : List NodeId} (hx : x ∈ ids) (hl : l ∈ v.listenersAt d.tree x) :
    (ids.foldl (v.listen none) d).listeners.Fills x l := by
  induction ids generalizing d with
  | nil => cases hx
  | cons id ids ih =>
    rcases List.mem_cons.1 hx with rfl | hx
    · rw [List.foldl_cons]
      exact fills_foldl_listen_of_fills (ListenerStore.fills_foldl_install d.listeners x hl)
    · exact ih hx hl

/-- All listeners that are installed when the view model is created come from bindings. -/
theorem mem_on_listenAll (h : l ∈ (v.listenAll d).listeners.on x) :
    l ∈ d.listeners.on x ∨ l ∈ v.listenersAt d.tree x := by
  unfold listenAll at h
  generalize v.roots = roots at h
  induction roots generalizing d with
  | nil => exact .inl h
  | cons root roots ih =>
    rcases ih h with h | h
    · exact mem_on_foldl_listen h
    · rw [tree_foldl_listen] at h
      exact .inr h

/-- Every binding of an element that is found when the view model is created gets its listener. -/
theorem fills_listenAll (hroot : root ∈ v.roots) (hx : x ∈ (v.scan d.tree [] root).elements)
    (hl : l ∈ v.listenersAt d.tree x) : (v.listenAll d).listeners.Fills x l := by
  unfold listenAll
  have hkeep : ∀ (roots : List NodeId) (d : Document), d.listeners.Fills x l →
      (roots.foldl (fun d root => (v.scan d.tree [] root).elements.foldl (v.listen none) d) d).listeners.Fills x l := by
    intro roots
    induction roots with
    | nil => exact fun _ h => h
    | cons root roots ih => exact fun d h => ih _ (fills_foldl_listen_of_fills h)
  generalize v.roots = roots at hroot
  induction roots generalizing d with
  | nil => cases hroot
  | cons first roots ih =>
    rcases List.mem_cons.1 hroot with rfl | hroot
    · exact hkeep roots _ (fills_foldl_listen hx hl)
    · have htree := tree_foldl_listen v none d (v.scan d.tree [] first).elements
      refine ih ?_ ?_ hroot
      · rwa [htree]
      · rwa [htree]

end View

end ViewBinding
