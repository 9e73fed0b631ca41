import ViewBinding.Proofs.Association

/-! Ordered maps with an index. The entries stand in a row, and a hashed index has the place of each key, so that an entry
is found without going through those before it. The index stays in step with the row whatever is written, and the map
reads as one without an index does. -/
namespace ViewBinding

namespace Association

variable {κ β : Type} [DecidableEq κ] {key : κ} {old : β} {es : List (κ × β)}

/-- Writing a key that has a place changes the value in that place. -/
theorem update_of_getElem? (f : Option β → β) (hnodup : (es.map (·.1)).Nodup) {i : ℕ} (h : es[i]? = some (key, old)) :
    update key f es = es.modify i fun e => (e.1, f (some e.2)) := by
  induction es generalizing i with
  | nil => cases h
  | cons e es ih =>
    obtain ⟨hnot, hrest⟩ := List.nodup_cons.1 hnodup
    cases i with
    | zero =>
      cases h
      rw [update, if_pos rfl, List.modify_zero_cons]
    | succ i =>
      rw [List.getElem?_cons_succ] at h
      have hne : e.1 ≠ key := by
        rintro rfl
        exact hnot (List.mem_map.2 ⟨_, List.mem_of_getElem? h, rfl⟩)
      rw [update, if_neg hne, ih hrest h, List.modify_succ_cons]

end Association

namespace OrderedMap

variable {α : Type} {key : String}

theorem ofList_concat (es : List (String × α)) (e : String × α) : ofList (es ++ [e]) = (ofList es).insert e.1 e.2 := by
  rw [ofList, ofList, List.foldl_append]
  rfl

theorem mem_keys_ofList {es : List (String × α)} : key ∈ (ofList es).keys ↔ key ∈ es.map (·.1) := by
  induction es using List.reverseRecOn with
  | nil => rfl
  | append_singleton es e ih =>
    rw [ofList_concat, keys_insert, List.map_append, List.mem_append, List.map_singleton, List.mem_singleton, ← ih]
    split
    · next he => exact ⟨.inl, fun h => h.elim id fun h => h ▸ he⟩
    · rw [List.mem_append, List.mem_singleton]

/-- The keys come in the order of their first write. -/
theorem pairwise_keys_ofList (es : List (String × α)) :
    (ofList es).keys.Pairwise fun a b => (es.map (·.1)).idxOf a < (es.map (·.1)).idxOf b := by
  induction es using List.reverseRecOn with
  | nil => exact .nil
  | append_singleton es e ih =>
    have hplace : ∀ {key}, key ∈ (ofList es).keys →
        ((es ++ [e]).map (·.1)).idxOf key = (es.map (·.1)).idxOf key := fun hkey => by
      rw [List.map_append, List.idxOf_append_of_mem (mem_keys_ofList.1 hkey)]
    have hold : (ofList es).keys.Pairwise fun a b =>
        ((es ++ [e]).map (·.1)).idxOf a < ((es ++ [e]).map (·.1)).idxOf b :=
      ih.imp_of_mem fun ha hb hab => by rwa [hplace ha, hplace hb]
    rw [ofList_concat, keys_insert]
    split
    · exact hold
    · next hnew =>
      refine List.pairwise_append.2 ⟨hold, List.pairwise_singleton _ _, fun a ha b hb => ?_⟩
      obtain rfl := List.mem_singleton.1 hb
      have hfirst : e.1 ∉ es.map (·.1) := fun h => hnew (mem_keys_ofList.2 h)
      rw [hplace ha, List.map_append, List.idxOf_append_of_notMem hfirst]
      exact Nat.lt_add_right _ (List.idxOf_lt_length_of_mem (mem_keys_ofList.1 ha))

/-- A key has the value that was written to it last. -/
theorem get?_ofList (es : List (String × α)) (key : String) : (ofList es).get? key = es.reverse.lookup key := by
  induction es using List.reverseRecOn with
  | nil => rfl
  | append_singleton es e ih =>
    rw [ofList_concat, List.reverse_append, List.reverse_singleton, List.singleton_append, List.lookup_cons]
    by_cases he : key = e.1
    · rw [he, get?_insert_self, beq_self_eq_true]
    · rw [get?_insert_of_ne _ he, ih, beq_eq_false_iff_ne.2 he]

/-- The values come in the order of the keys. -/
theorem values_eq (m : OrderedMap α) (missing : α) : m.values = m.keys.map fun key => (m.get? key).getD missing := by
  rw [values, keys, List.map_map]
  refine List.map_congr_left fun e he => ?_
  rw [Function.comp_apply, get?_of_mem he, Option.getD_some]

end OrderedMap

structure IndexedMap (α : Type) where
  entries : Array (String × α)
  /-- The place of the entry of a key. -/
  index : Std.HashMap String ℕ

namespace IndexedMap

variable {α : Type} {m : IndexedMap α} {o : OrderedMap α}

def empty : IndexedMap α := ⟨#[], ∅⟩

/-- Writes in the place that the index has for the key, or behind all others if there is no entry in such a place. -/
def insert (m : IndexedMap α) (key : String) (value : α) : IndexedMap α :=
  match m.index[key]?.filter (· < m.entries.size) with
  | some i => { m with entries := m.entries.modify i fun e => (e.1, value) }
  | none => ⟨m.entries.push (key, value), m.index.insert key m.entries.size⟩

def get? (m : IndexedMap α) (key : String) : Option α :=
  (m.index[key]?.bind fun i => m.entries[i]?).map (·.2)

/-- The entries of a list, written one after the other. -/
def ofList (es : List (String × α)) : IndexedMap α := es.foldl (fun m e => m.insert e.1 e.2) empty

/-- The index has the place of every key, and nothing else. -/
def InStep (m : IndexedMap α) : Prop :=
  ∀ (key : String) (i : ℕ), m.index[key]? = some i ↔ m.entries[i]?.map Prod.fst = some key

/-- An indexed map that has the entries of a map without an index. -/
structure Follows (m : IndexedMap α) (o : OrderedMap α) : Prop where
  entries : m.entries.toList = o.entries
  inStep : m.InStep

theorem Follows.getElem? (h : m.Follows o) (i : ℕ) : m.entries[i]? = o.entries[i]? := by
  rw [← h.entries, Array.getElem?_toList]

theorem Follows.get? (h : m.Follows o) (key : String) : m.get? key = o.get? key := by
  cases hi : m.index[key]? with
  | some i =>
    obtain ⟨e, he, rfl⟩ := Option.map_eq_some_iff.1 ((h.inStep key i).1 hi)
    rw [IndexedMap.get?, hi, Option.bind_some, he]
    exact (OrderedMap.get?_of_mem (List.mem_of_getElem? (h.getElem? i ▸ he))).symm
  | none =>
    rw [IndexedMap.get?, hi]
    refine Eq.symm (Option.eq_none_iff_forall_ne_some.2 fun value hvalue => ?_)
    obtain ⟨i, he⟩ := List.mem_iff_getElem?.1 (OrderedMap.mem_of_get? hvalue)
    have hplace := (h.inStep key i).2 (by rw [h.getElem?, he]; rfl)
    rw [hi] at hplace
    cases hplace

theorem Follows.insert (h : m.Follows o) (key : String) (value : α) :
    (m.insert key value).Follows (o.insert key value) := by
  cases hi : m.index[key]? with
  | some i =>
    -- the key keeps its place, so the index may stay as it is
    obtain ⟨⟨_, old⟩, he, rfl⟩ := Option.map_eq_some_iff.1 ((h.inStep key i).1 hi)
    have hlt : i < m.entries.size := (Array.getElem?_eq_some_iff.1 he).1
    rw [IndexedMap.insert, hi, Option.filter_some, if_pos (decide_eq_true hlt)]
    constructor
    · rw [Array.toList_modify, h.entries]
      exact (Association.update_of_getElem? (fun _ => value) o.nodup_keys (h.getElem? i ▸ he)).symm
    · intro other j
      rw [h.inStep other j, Array.getElem?_modify]
      split
      · cases m.entries[j]? <;> rfl
      · rfl
  | none =>
    have hnew : key ∉ o.keys := fun hkey => by
      obtain ⟨e, he, rfl⟩ := List.mem_map.1 hkey
      obtain ⟨i, he⟩ := List.mem_iff_getElem?.1 he
      have hplace := (h.inStep e.1 i).2 (by rw [h.getElem?, he]; rfl)
      rw [hi] at hplace
      cases hplace
    rw [IndexedMap.insert, hi, Option.filter_none]
    constructor
    · rw [Array.toList_push, h.entries, OrderedMap.entries_insert_of_notMem hnew]
    · intro other j
      rw [Std.HashMap.getElem?_insert, Array.getElem?_push]
      by_cases hkey : key = other
      · subst hkey
        rw [beq_self_eq_true, if_pos rfl]
        by_cases hj : j = m.entries.size
        · rw [if_pos hj, hj]
          exact iff_of_true rfl rfl
        · rw [if_neg hj, ← h.inStep key j, hi]
          exact iff_of_false (fun he => hj (Option.some.inj he).symm) (by simp)
      · rw [beq_eq_false_iff_ne.2 hkey, if_neg Bool.false_ne_true, h.inStep other j]
        by_cases hj : j = m.entries.size
        · rw [if_pos hj, hj, Array.getElem?_eq_none (le_refl _)]
          exact iff_of_false (by simp) fun he => hkey (Option.some.inj he)
        · rw [if_neg hj]

theorem follows_empty : (empty : IndexedMap α).Follows .empty :=
  ⟨rfl, fun key i => by simp [empty]⟩

/-- Whatever is written one after the other, the index stays in step, and the map reads as one without an index does. -/
theorem follows_ofList (es : List (String × α)) : (ofList es).Follows (.ofList es) := by
  induction es using List.reverseRecOn with
  | nil => exact follows_empty
  | append_singleton es e ih =>
    rw [OrderedMap.ofList_concat, ofList, List.foldl_append]
    exact ih.insert e.1 e.2

end IndexedMap

end ViewBinding
