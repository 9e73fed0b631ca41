/-!
Lists of keys with values, each key once: writing keeps the place of a key that is there, and a new key
goes behind all others.
-/
namespace ViewBinding.Association

variable {κ β : Type}

theorem nodup_keys_filter (keep : κ × β → Bool) {es : List (κ × β)} (h : (es.map (·.1)).Nodup) :
    ((es.filter keep).map (·.1)).Nodup :=
  h.sublist (List.filter_sublist.map _)

variable [DecidableEq κ]

/-- Writes what `f` makes of the present value of a key. -/
def update (key : κ) (f : Option β → β) : List (κ × β) → List (κ × β)
  | [] => [(key, f none)]
  | (k, v) :: rest => if k = key then (key, f (some v)) :: rest else (k, v) :: update key f rest

theorem keys_update (key : κ) (f : Option β → β) (es : List (κ × β)) :
    (update key f es).map (·.1) =
      if key ∈ es.map (·.1) then es.map (·.1) else es.map (·.1) ++ [key] := by
  induction es with
  | nil => simp [update]
  | cons e es ih =>
    obtain ⟨k, v⟩ := e
    by_cases h : k = key
    · simp [update, h]
    · simp only [update, if_neg h, List.map_cons, ih, List.mem_cons, Ne.symm h, false_or]
      split <;> simp

theorem nodup_keys_update (key : κ) (f : Option β → β) {es : List (κ × β)}
    (h : (es.map (·.1)).Nodup) : ((update key f es).map (·.1)).Nodup := by
  rw [keys_update]
  split
  · exact h
  · rename_i hk
    refine List.nodup_append.2 ⟨h, by simp, fun a ha b hb hab => hk ?_⟩
    rw [← List.mem_singleton.1 hb, ← hab]
    exact ha

theorem lookup_update_self (key : κ) (f : Option β → β) (es : List (κ × β)) :
    (update key f es).lookup key = some (f (es.lookup key)) := by
  induction es with
  | nil => simp [update]
  | cons e es ih =>
    obtain ⟨k, v⟩ := e
    by_cases h : k = key
    · simp [update, h]
    · have hb : (key == k) = false := beq_eq_false_iff_ne.2 (Ne.symm h)
      simp only [update, if_neg h, List.lookup_cons, hb, ih]

theorem lookup_update_of_ne {key other : κ} (h : other ≠ key) (f : Option β → β) (es : List (κ × β)) :
    (update key f es).lookup other = es.lookup other := by
  have hb : (other == key) = false := beq_eq_false_iff_ne.2 h
  induction es with
  | nil => simp [update, List.lookup_cons, hb]
  | cons e es ih =>
    obtain ⟨k, v⟩ := e
    by_cases hk : k = key
    · simp [update, List.lookup_cons, hk, hb]
    · simp [update, List.lookup_cons, hk, ih]

/-- Dropping keys leaves what the other keys read. -/
theorem lookup_filter (keep : κ → Bool) (key : κ) (es : List (κ × β)) :
    (es.filter fun e => keep e.1).lookup key = if keep key then es.lookup key else none := by
  induction es with
  | nil => simp
  | cons e es ih =>
    obtain ⟨k, v⟩ := e
    by_cases h : key = k
    · subst h
      cases hk : keep key <;> simp [hk, ih]
    · have hb : (key == k) = false := beq_eq_false_iff_ne.2 h
      cases hk : keep k <;> simp [hk, ih, List.lookup_cons, hb]

end ViewBinding.Association
