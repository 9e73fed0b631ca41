import Mathlib.Tactic
import ViewBinding.OrderedMap

/-! Lists of keys with values, each key once, as what they are written from. -/
namespace ViewBinding

namespace Association

variable {κ β : Type} [DecidableEq κ] {key : κ} {value : β} {es : List (κ × β)}

theorem lookup_of_mem (h : (es.map (·.1)).Nodup) (hmem : (key, value) ∈ es) : es.lookup key = some value := by
  induction es with
  | nil => cases hmem
  | cons e es ih =>
    obtain ⟨hnot, hrest⟩ := List.nodup_cons.1 h
    rcases List.mem_cons.1 hmem with rfl | hmem
    · simp
    · have hne : (key == e.1) = false := by
        exact beq_eq_false_iff_ne.2 fun he => hnot (List.mem_map.2 ⟨_, hmem, he⟩)
      rw [List.lookup_cons, hne]
      exact ih hrest hmem

theorem update_of_notMem (f : Option β → β) (h : key ∉ es.map (·.1)) : update key f es = es ++ [(key, f none)] := by
  induction es with
  | nil => rfl
  | cons e es ih =>
    obtain ⟨k, v⟩ := e
    simp only [List.map_cons, List.mem_cons, not_or] at h
    rw [update, if_neg (Ne.symm h.1), ih h.2, List.cons_append]

/-- Lists with the same keys and related values relate what is found under a key. -/
theorem rel_of_lookup {γ : Type} {R : β → γ → Prop} {fs : List (κ × γ)} {other : γ}
    (h : List.Forall₂ (fun e f => e.1 = f.1 ∧ R e.2 f.2) es fs) (hvalue : es.lookup key = some value)
    (hother : fs.lookup key = some other) : R value other := by
  induction h with
  | nil => cases hvalue
  | @cons e f es fs hef hrest ih =>
    rw [List.lookup_cons] at hvalue hother
    rw [hef.1] at hvalue
    cases hkey : key == f.1 with
    | true =>
      rw [hkey] at hvalue hother
      cases hvalue
      cases hother
      exact hef.2
    | false =>
      rw [hkey] at hvalue hother
      exact ih hvalue hother

theorem lookup_map {γ : Type} (f : β → γ) (es : List (κ × β)) (key : κ) :
    (es.map fun e => (e.1, f e.2)).lookup key = (es.lookup key).map f := by
  induction es with
  | nil => rfl
  | cons e es ih =>
    rw [List.map_cons, List.lookup_cons, List.lookup_cons, ih]
    cases key == e.1 <;> rfl

/-- What is kept in groups, each under a key of its own, is all that belongs to the keys. -/
theorem flatMap_perm (groups : List (κ × List β)) (all : List (κ × β)) (hnodup : (groups.map (·.1)).Nodup)
    (h : ∀ key, ((groups.lookup key).getD []).Perm ((all.filter (·.1 == key)).map (·.2))) :
    (groups.flatMap fun g => g.2.map (g.1, ·)).Perm all := by
  induction groups generalizing all with
  | nil =>
    have hnone : all = [] := List.eq_nil_iff_forall_not_mem.2 fun e he => by
      have hgroup := (h e.1).symm.subset (List.mem_map_of_mem (List.mem_filter.2 ⟨he, beq_self_eq_true _⟩))
      cases hgroup
    rw [hnone, List.flatMap_nil]
  | cons g groups ih =>
    obtain ⟨hnot, hrest⟩ := List.nodup_cons.1 hnodup
    have hfirst : (g.2.map (g.1, ·)).Perm (all.filter (·.1 == g.1)) := by
      have hg := (h g.1).map (g.1, ·)
      rw [List.lookup_cons, beq_self_eq_true, Option.getD_some, List.map_map] at hg
      refine hg.trans (List.Perm.of_eq ((List.map_congr_left fun e he => ?_).trans (List.map_id _)))
      exact Prod.ext (beq_iff_eq.1 (List.mem_filter.1 he).2).symm rfl
    have hothers : (groups.flatMap fun g => g.2.map (g.1, ·)).Perm (all.filter (!·.1 == g.1)) := by
      refine ih _ hrest fun key => ?_
      by_cases hkey : key = g.1
      · have hlookup : groups.lookup key = none := List.lookup_eq_none_iff.2 fun e he => by
          exact bne_iff_ne.2 fun heq => hnot (List.mem_map.2 ⟨e, he, heq.symm.trans hkey⟩)
        rw [hlookup, List.filter_filter, hkey]
        simp
      · have hg := h key
        rw [List.lookup_cons, beq_eq_false_iff_ne.2 hkey] at hg
        refine hg.trans (List.Perm.of_eq (congrArg _ ?_))
        rw [List.filter_filter]
        refine List.filter_congr fun e _ => ?_
        by_cases he : e.1 = key <;> simp [he, hkey]
    rw [List.flatMap_cons]
    exact (hfirst.append hothers).trans (List.filter_append_perm _ _)

end Association

namespace OrderedMap

variable {α : Type} {m : OrderedMap α} {key : String} {value : α}

theorem get?_of_mem (h : (key, value) ∈ m.entries) : m.get? key = some value :=
  Association.lookup_of_mem m.nodup_keys h

theorem mem_of_get? (h : m.get? key = some value) : (key, value) ∈ m.entries := by
  obtain ⟨front, behind, heq, -⟩ := List.lookup_eq_some_iff.1 h
  rw [heq]
  simp

theorem exists_get?_of_mem_keys (h : key ∈ m.keys) : ∃ value, m.get? key = some value := by
  obtain ⟨⟨_, value⟩, hmem, rfl⟩ := List.mem_map.1 h
  exact ⟨value, get?_of_mem hmem⟩

theorem entries_insert_of_notMem (h : key ∉ m.keys) : (m.insert key value).entries = m.entries ++ [(key, value)] :=
  Association.update_of_notMem _ h

/-- Entries whose keys differ are written one after the other. -/
theorem entries_ofList {es : List (String × α)} (h : (es.map (·.1)).Nodup) : (ofList es).entries = es := by
  have hfold : ∀ m : OrderedMap α, (∀ e ∈ es, e.1 ∉ m.keys) →
      (es.foldl (fun m e => m.insert e.1 e.2) m).entries = m.entries ++ es := by
    induction es with
    | nil => exact fun m _ => (List.append_nil m.entries).symm
    | cons e es ih =>
      intro m hm
      obtain ⟨hnot, hrest⟩ := List.nodup_cons.1 h
      have hnext : (m.insert e.1 e.2).entries = m.entries ++ [(e.1, e.2)] :=
        entries_insert_of_notMem (hm e List.mem_cons_self)
      rw [List.foldl_cons, ih hrest, hnext, List.append_assoc]
      · rfl
      · intro e' he' hmem
        rw [keys, hnext, List.map_append, List.mem_append] at hmem
        rcases hmem with hmem | hmem
        · exact hm e' (List.mem_cons_of_mem e he') hmem
        · rw [List.map_singleton, List.mem_singleton] at hmem
          exact hnot (List.mem_map.2 ⟨e', he', hmem⟩)
  exact hfold empty fun _ _ hmem => by cases hmem

end OrderedMap

end ViewBinding
