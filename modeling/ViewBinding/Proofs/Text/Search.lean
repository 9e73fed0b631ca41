import ViewBinding.Proofs.Text.Blank
import ViewBinding.Text.Search

/-! What a text contains: another text as a part of it, and words between separating characters. -/
namespace ViewBinding.Text

variable {separator : Char → Bool} {text part piece : List Char}

/-- The search for a part finds one exactly if there is one. -/
theorem isSome_find? : (find? part text).isSome = true ↔ part <:+: text := by
  induction text with
  | nil => simp only [find?, List.isEmpty_iff, List.infix_nil]; split <;> simp_all
  | cons c text ih =>
    rw [find?, List.infix_cons_iff, ← ih]
    split
    · next h => simp [List.isPrefixOf_iff_prefix.1 h]
    · next h => simp [show ¬ part <+: c :: text from fun hp => h (List.isPrefixOf_iff_prefix.2 hp)]

/-- Whether a text has a part at a place. -/
def OccursAt (part text : List Char) (i : ℕ) : Prop := part <+: text.drop i

theorem find?_eq_none_iff : find? part text = none ↔ ∀ i, ¬ OccursAt part text i := by
  rw [← Option.not_isSome_iff_eq_none, isSome_find?, List.infix_iff_prefix_suffix]
  constructor
  · exact fun h i hi => h ⟨_, hi, List.drop_suffix i text⟩
  · rintro h ⟨rest, hrest, hsuffix⟩
    rw [List.suffix_iff_eq_drop] at hsuffix
    exact h _ (hsuffix ▸ hrest)

/-- The search finds the least place. -/
theorem find?_eq_some_iff {i : ℕ} :
    find? part text = some i ↔ OccursAt part text i ∧ ∀ j < i, ¬ OccursAt part text j := by
  induction text generalizing i with
  | nil =>
    have hempty : ∀ i, OccursAt part [] i ↔ part = [] := fun i => by rw [OccursAt, List.drop_nil, List.prefix_nil]
    simp only [find?, List.isEmpty_iff, hempty]
    cases i with
    | zero => simp
    | succ i =>
      refine iff_of_false (by split <;> simp) fun h => h.2 0 i.succ_pos h.1
  | cons c text ih =>
    have hfirst : OccursAt part (c :: text) 0 ↔ part.isPrefixOf (c :: text) = true := List.isPrefixOf_iff_prefix.symm
    rw [find?]
    split
    · next h =>
      cases i with
      | zero => exact iff_of_true rfl ⟨hfirst.2 h, fun j hj => absurd hj j.not_lt_zero⟩
      | succ i => exact iff_of_false (by simp) fun hi => hi.2 0 i.succ_pos (hfirst.2 h)
    · next h =>
      cases i with
      | zero => exact iff_of_false (by simp) fun hi => h (hfirst.1 hi.1)
      | succ i =>
        rw [Option.map_eq_some_iff]
        simp only [Nat.add_right_cancel_iff, exists_eq_right, ih]
        refine and_congr_right fun _ => ⟨fun hi j hj => ?_, fun hi j hj => hi (j + 1) (Nat.succ_lt_succ hj)⟩
        cases j with
        | zero => exact mt hfirst.1 h
        | succ j => exact hi j (Nat.lt_of_succ_lt_succ hj)

theorem occursAt_drop {start i : ℕ} : OccursAt part (text.drop start) i ↔ OccursAt part text (start + i) := by
  rw [OccursAt, OccursAt, List.drop_drop]

theorem findFrom?_eq_none_iff {start : ℕ} :
    findFrom? part text start = none ↔ ∀ i, start ≤ i → ¬ OccursAt part text i := by
  rw [findFrom?, Option.map_eq_none_iff, find?_eq_none_iff]
  simp only [occursAt_drop]
  exact ⟨fun h i hi => Nat.add_sub_cancel' hi ▸ h (i - start), fun h i => h _ (Nat.le_add_right start i)⟩

theorem findFrom?_eq_some_iff {start i : ℕ} : findFrom? part text start = some i ↔
    start ≤ i ∧ OccursAt part text i ∧ ∀ j, start ≤ j → j < i → ¬ OccursAt part text j := by
  rw [findFrom?, Option.map_eq_some_iff]
  constructor
  · rintro ⟨k, hk, rfl⟩
    obtain ⟨hat, hbefore⟩ := find?_eq_some_iff.1 hk
    rw [occursAt_drop, Nat.add_comm] at hat
    refine ⟨Nat.le_add_left start k, hat, fun j hstart hj => ?_⟩
    have hnot := hbefore (j - start) (by omega)
    rwa [occursAt_drop, Nat.add_sub_cancel' hstart] at hnot
  · rintro ⟨hstart, hat, hbefore⟩
    refine ⟨i - start, find?_eq_some_iff.2 ⟨?_, fun j hj => ?_⟩, Nat.sub_add_cancel hstart⟩
    · rwa [occursAt_drop, Nat.add_sub_cancel' hstart]
    · rw [occursAt_drop]
      exact hbefore _ (Nat.le_add_right start j) (by omega)

/-- A piece of a text stands between separating characters or the ends of the text, and has none of them in it. -/
structure IsPiece (separator : Char → Bool) (text piece : List Char) : Prop where
  plain : ∀ c ∈ piece, separator c = false
  stands : ∃ before after, text = before ++ piece ++ after ∧ (∀ c ∈ before.getLast?, separator c = true) ∧
    ∀ c ∈ after.head?, separator c = true

/-- The first piece goes up to the first separating character. -/
theorem exists_splitOn (separator : Char → Bool) (text : List Char) : ∃ piece, (∀ c ∈ piece, separator c = false) ∧
    (text = piece ∧ splitOn separator text = [piece] ∨
      ∃ s rest, separator s = true ∧ text = piece ++ s :: rest ∧ splitOn separator text = piece :: splitOn separator rest) := by
  have hplain : ∀ c ∈ text.takeWhile (!separator ·), separator c = false := fun c hc => by
    simpa using List.mem_takeWhile_imp hc
  have htext := List.takeWhile_append_dropWhile (p := (!separator ·)) (l := text)
  refine ⟨text.takeWhile (!separator ·), hplain, ?_⟩
  cases hrest : text.dropWhile (!separator ·) with
  | nil =>
    rw [hrest, List.append_nil] at htext
    refine .inl ⟨htext.symm, ?_⟩
    rw [htext] at hplain ⊢
    exact splitOn_of_forall hplain
  | cons s rest =>
    have hs : separator s = true := by
      have := List.head?_dropWhile_not (!separator ·) text
      rw [hrest] at this
      simpa using this
    rw [hrest] at htext
    refine .inr ⟨s, rest, hs, htext.symm, ?_⟩
    conv_lhs => rw [← htext]
    rw [splitOn_append_cons hs, splitOn_of_forall hplain]
    rfl

theorem isPiece_of_mem_splitOn (h : piece ∈ splitOn separator text) : IsPiece separator text piece := by
  induction hn : text.length using Nat.strong_induction_on generalizing text with
  | _ n ih =>
    obtain ⟨first, hfirst, ⟨rfl, hsplit⟩ | ⟨s, rest, hs, rfl, hsplit⟩⟩ := exists_splitOn separator text
    · rw [hsplit] at h
      obtain rfl := List.mem_singleton.1 h
      exact ⟨hfirst, [], [], by simp, by simp, by simp⟩
    · rw [hsplit] at h
      rcases List.mem_cons.1 h with rfl | h
      · exact ⟨hfirst, [], s :: rest, by simp, by simp, by simpa using hs⟩
      · have hlt : rest.length < n := by simp at hn; omega
        obtain ⟨hplain, before, after, rfl, hbefore, hafter⟩ := ih rest.length hlt h rfl
        refine ⟨hplain, first ++ s :: before, after, by simp, fun c hc => ?_, hafter⟩
        rw [List.getLast?_append, List.getLast?_cons] at hc
        cases hlast : before.getLast? with
        | none => simp [hlast] at hc; exact hc ▸ hs
        | some d => simp [hlast] at hc; exact hbefore c (hc ▸ hlast)

/-- The pieces that a text is cut into are its pieces. -/
theorem mem_splitOn_iff : piece ∈ splitOn separator text ↔ IsPiece separator text piece := by
  refine ⟨isPiece_of_mem_splitOn, ?_⟩
  rintro ⟨hplain, before, after, rfl, hbefore, hafter⟩
  have hfront : piece ∈ splitOn separator (piece ++ after) := by
    cases after with
    | nil => rw [List.append_nil, splitOn_of_forall hplain]; simp
    | cons s after => rw [splitOn_append_cons (hafter s rfl), splitOn_of_forall hplain]; simp
  rcases List.eq_nil_or_concat before with rfl | ⟨before, s, rfl⟩
  · simpa using hfront
  · rw [List.concat_eq_append, List.append_assoc, List.append_assoc, List.singleton_append,
      splitOn_append_cons (hbefore s (by simp))]
    exact List.mem_append_right _ hfront

/-- Words are the pieces with something in them. -/
theorem mem_words_iff : piece ∈ words separator text ↔ piece ≠ [] ∧ IsPiece separator text piece := by
  rw [words, List.mem_filter, mem_splitOn_iff, and_comm]
  simp

end ViewBinding.Text
