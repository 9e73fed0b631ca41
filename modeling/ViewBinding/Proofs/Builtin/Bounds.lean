import Mathlib.Tactic
import ViewBinding.Proofs.Number.Radix
import ViewBinding.Proofs.Text.Search

/-! Places in strings and arrays. The methods that take places go with the same methods in which every access to a range
is checked and nothing is yielded if one is out of range: that never happens, whatever the arguments are. -/
namespace ViewBinding.Builtin

open Number Text

section

variable {α : Type} {xs : List α} {start stop : ℕ} {part text : List Char}

/-- The places from `start` up to `stop`, if these are in order and within the list. -/
def range? (xs : List α) (start stop : ℕ) : Option (List α) :=
  if start ≤ stop ∧ stop ≤ xs.length then some (between xs start stop) else none

theorem range?_eq (hstart : start ≤ stop) (hstop : stop ≤ xs.length) : range? xs start stop = some (between xs start stop) :=
  if_pos ⟨hstart, hstop⟩

/-- No place is accessed if there is none between the two. -/
def slice? (xs : List α) (start stop : ℕ) : Option (List α) := if stop ≤ start then some [] else range? xs start stop

theorem slice?_eq (hstop : stop ≤ xs.length) : slice? xs start stop = some (between xs start stop) := by
  unfold slice?
  split
  · next h => rw [between, Nat.sub_eq_zero_of_le h, List.take_zero]
  · next h => exact range?_eq (Nat.le_of_not_le h) hstop

/-- Compares a part with what is at some places, one after the other. -/
def search? (part text : List Char) : List ℕ → Option (Option ℕ)
  | [] => some none
  | i :: places =>
    (range? text i (i + part.length)).bind fun found => if found = part then some (some i) else search? part text places

/-- Searches for a part from a place on, at all places at which there is room for it. -/
def findIn? (part text : List Char) (start : ℕ) : Option (Option ℕ) :=
  if part.isEmpty then some (some (min start text.length))
  else if text.length < part.length then some none
  else search? part text (List.range' start (text.length - part.length + 1 - start))

theorem search?_eq {places : List ℕ} (h : ∀ i ∈ places, i + part.length ≤ text.length) :
    search? part text places = some (places.find? fun i => part.isPrefixOf (text.drop i)) := by
  induction places with
  | nil => rfl
  | cons i places ih =>
    have hfound : between text i (i + part.length) = part ↔ part.isPrefixOf (text.drop i) = true := by
      rw [between, Nat.add_sub_cancel_left, List.isPrefixOf_iff_prefix, List.prefix_iff_eq_take, eq_comm]
    rw [search?, range?_eq (Nat.le_add_right _ _) (h i List.mem_cons_self), Option.bind_some, List.find?_cons]
    simp only [hfound]
    split
    · next hi => rw [hi]
    · next hi =>
      rw [Bool.eq_false_of_not_eq_true hi]
      exact ih fun i hi => h i (List.mem_cons_of_mem _ hi)

theorem add_le_of_occursAt {i : ℕ} (hpart : part ≠ []) (h : OccursAt part text i) : i + part.length ≤ text.length := by
  have hlength := h.length_le
  have hpos := List.length_pos_of_ne_nil hpart
  rw [List.length_drop] at hlength
  omega

theorem findIn?_eq (hstart : start ≤ text.length) : findIn? part text start = some (findFrom? part text start) := by
  unfold findIn?
  split
  · next hpart =>
    rw [List.isEmpty_iff] at hpart
    have hfound : findFrom? part text start = some start := by
      rw [findFrom?_eq_some_iff, hpart]
      exact ⟨le_rfl, List.nil_prefix, fun j hj hlt => absurd hj hlt.not_ge⟩
    rw [hfound, min_eq_left hstart]
  · next hpart =>
    rw [List.isEmpty_iff] at hpart
    split
    · next hlong =>
      have hnone : findFrom? part text start = none := by
        rw [findFrom?_eq_none_iff]
        intro i _ hi
        have := add_le_of_occursAt hpart hi
        omega
      rw [hnone]
    · next hroom =>
      have hat : ∀ i, part.isPrefixOf (text.drop i) = true ↔ OccursAt part text i := fun _ => List.isPrefixOf_iff_prefix
      rw [search?_eq fun i hi => by rw [List.mem_range'_1] at hi; omega]
      congr 1
      ext i
      simp only [List.find?_range'_eq_some, findFrom?_eq_some_iff, List.mem_range'_1, Bool.not_eq_true', ← Bool.not_eq_true,
        hat]
      constructor
      · rintro ⟨hi, hmem, hbefore⟩
        exact ⟨hmem.1, hi, hbefore⟩
      · rintro ⟨hle, hi, hbefore⟩
        have := add_le_of_occursAt hpart hi
        exact ⟨hi, ⟨hle, by omega⟩, hbefore⟩

theorem between_zero (xs : List α) (stop : ℕ) : between xs 0 stop = xs.take stop := by
  rw [between, List.drop_zero, Nat.sub_zero]

theorem between_length (xs : List α) (start : ℕ) : between xs start xs.length = xs.drop start := by
  rw [between, ← List.length_drop, List.take_length]

end

section

variable {h : Heap} {s method : String} {args : List Value} {r : ArrayRef}

theorem relativeArg_le (h : Heap) {len default : ℕ} (hdefault : default ≤ len) (args : List Value) (i : ℕ) :
    relativeArg h len default args i ≤ len := by
  rw [relativeArg, positionOr]
  split
  · exact hdefault
  · exact relativeIndex_le len _

theorem clampedArg_le (h : Heap) {len default : ℕ} (hdefault : default ≤ len) (args : List Value) (i : ℕ) :
    clampedArg h len default args i ≤ len := by
  rw [clampedArg, positionOr]
  split
  · exact hdefault
  · exact clampedIndex_le len _

/-- The methods of strings that take places, with checked ranges. -/
def checkedStringMethod? (h : Heap) (s method : String) (args : List Value) : Option Value :=
  let text := s.toList
  let len := text.length
  let pattern := (h.string (argument args 0)).toList
  let chars (cs : List Char) : Value := .string (String.ofList cs)
  match method with
  | "includes" => (findIn? pattern text (clampedArg h len 0 args 1)).map fun found => .bool found.isSome
  | "indexOf" =>
    (findIn? pattern text (clampedArg h len 0 args 1)).map fun found => (found.map Value.ofNat).getD (.number (-1))
  | "startsWith" => (range? text (clampedArg h len 0 args 1) len).map fun rest => .bool (pattern.isPrefixOf rest)
  | "endsWith" => (range? text 0 (clampedArg h len len args 1)).map fun front => .bool (pattern.isSuffixOf front)
  | "slice" => (slice? text (relativeArg h len 0 args 0) (relativeArg h len len args 1)).map chars
  | "substring" =>
    let start := clampedArg h len 0 args 0
    let stop := clampedArg h len len args 1
    (slice? text (min start stop) (max start stop)).map chars
  | "charAt" => some (chars (text[clampedArg h len 0 args 0]?.toList))
  | "at" => some ((((placeAt? len (h.number (argument args 0))).bind (text[·]?)).map Value.ofChar).getD .undefined)
  | _ => none

/-- The methods of arrays that take places, with checked ranges. -/
def checkedArrayMethod? (h : Heap) (r : ArrayRef) (method : String) (args : List Value) : Option (Value × Heap) :=
  let items := (h.items r).toList
  let len := items.length
  match method with
  | "includes" => some (.bool (items.any (foundEqual · (argument args 0))), h)
  | "indexOf" =>
    let start := relativeArg h len 0 args 1
    let found := (items.drop start).findIdx? (·.strictEquals (argument args 0))
    some ((found.map fun i => Value.ofNat (start + i)).getD (.number (-1)), h)
  | "slice" => (slice? items (relativeArg h len 0 args 0) (relativeArg h len len args 1)).map h.newArray
  | "at" => some (((placeAt? len (h.number (argument args 0))).bind (items[·]?)).getD .undefined, h)
  | _ => none

/-- The methods of a value that take places. -/
def placeMethods : Value → List String
  | .string _ => ["slice", "substring", "startsWith", "endsWith", "includes", "indexOf", "charAt", "at"]
  | .array _ => ["slice", "includes", "indexOf", "at"]
  | _ => []

/-- A call of such a method with checked ranges. -/
def checkedCall? (h : Heap) (receiver : Value) (method : String) (args : List Value) : Option (Value × Heap) :=
  match receiver with
  | .string s => (checkedStringMethod? h s method args).map (·, h)
  | .array r => checkedArrayMethod? h r method args
  | _ => none

theorem runIn_stringMethod {v : Value} (hv : pureStringMethod? h s method args = some v) :
    (callMethod (.string s) method args).runIn h = (.ok v, h) := by
  unfold callMethod stringMethod
  rw [Eval.runIn_bind, Eval.runIn_view, hv]
  rfl

theorem pureStringMethod?_indexOf (h : Heap) (s : String) (args : List Value) :
    pureStringMethod? h s "indexOf" args = some (((findFrom? (h.string (argument args 0)).toList s.toList
      (clampedArg h s.toList.length 0 args 1)).map Value.ofNat).getD (.number (-1))) := by
  simp only [pureStringMethod?]
  cases findFrom? (h.string (argument args 0)).toList s.toList (clampedArg h s.toList.length 0 args 1) <;> rfl

theorem checkedStringMethod?_eq (hmethod : method ∈ placeMethods (.string s)) :
    checkedStringMethod? h s method args = pureStringMethod? h s method args := by
  have hstart := clampedArg_le h (Nat.zero_le s.toList.length) args
  have hstop := clampedArg_le h (le_refl s.toList.length) args
  simp only [placeMethods, List.mem_cons, List.not_mem_nil, or_false] at hmethod
  rcases hmethod with rfl | rfl | rfl | rfl | rfl | rfl | rfl | rfl
  · simp only [checkedStringMethod?, pureStringMethod?, slice?_eq (relativeArg_le h le_rfl args 1), Option.map_some]
  · simp only [checkedStringMethod?, pureStringMethod?, slice?_eq (max_le (hstart 0) (hstop 1)), Option.map_some]
  · simp only [checkedStringMethod?, pureStringMethod?, range?_eq (hstart 1) le_rfl, between_length, Option.map_some]
  · simp only [checkedStringMethod?, pureStringMethod?, range?_eq (Nat.zero_le _) (hstop 1), between_zero, Option.map_some]
  · simp only [checkedStringMethod?, pureStringMethod?, findIn?_eq (hstart 1), Option.map_some]
  · simp only [checkedStringMethod?, pureStringMethod?_indexOf, findIn?_eq (hstart 1), Option.map_some]
  · rfl
  · rfl

theorem exists_pureStringMethod? (h : Heap) (args : List Value) (hmethod : method ∈ placeMethods (.string s)) :
    ∃ v, pureStringMethod? h s method args = some v := by
  simp only [placeMethods, List.mem_cons, List.not_mem_nil, or_false] at hmethod
  rcases hmethod with rfl | rfl | rfl | rfl | rfl | rfl | rfl | rfl
  case inr.inr.inr.inr.inr.inl => exact ⟨_, pureStringMethod?_indexOf h s args⟩
  all_goals exact ⟨_, rfl⟩

theorem runIn_slice_array (h : Heap) (r : ArrayRef) (args : List Value) : (callMethod (.array r) "slice" args).runIn h =
    (.ok (h.newArray (between (h.items r).toList (relativeArg h (h.items r).toList.length 0 args 0)
      (relativeArg h (h.items r).toList.length (h.items r).toList.length args 1))).1,
    (h.newArray (between (h.items r).toList (relativeArg h (h.items r).toList.length 0 args 0)
      (relativeArg h (h.items r).toList.length (h.items r).toList.length args 1))).2) := rfl

theorem runIn_arrayMethod (hmethod : method ∈ placeMethods (.array r)) : ∃ v h',
    checkedArrayMethod? h r method args = some (v, h') ∧ (callMethod (.array r) method args).runIn h = (.ok v, h') := by
  simp only [placeMethods, List.mem_cons, List.not_mem_nil, or_false] at hmethod
  rcases hmethod with rfl | rfl | rfl | rfl
  · refine ⟨_, _, ?_, runIn_slice_array h r args⟩
    simp only [checkedArrayMethod?, slice?_eq (relativeArg_le h le_rfl args 1), Option.map_some]
  · exact ⟨_, _, rfl, rfl⟩
  · refine ⟨_, _, rfl, ?_⟩
    simp only [callMethod, arrayMethod, Eval.runIn_bind, Eval.runIn_view, id]
    cases ((h.items r).toList.drop (relativeArg h (h.items r).toList.length 0 args 1)).findIdx?
      (·.strictEquals (argument args 0)) <;> rfl
  · exact ⟨_, _, rfl, rfl⟩

/-- No range is out of range: the call with checked ranges yields what the call yields. -/
theorem runIn_of_mem_placeMethods {receiver : Value} (hmethod : method ∈ placeMethods receiver) : ∃ v h',
    checkedCall? h receiver method args = some (v, h') ∧ (callMethod receiver method args).runIn h = (.ok v, h') := by
  cases receiver with
  | string s =>
    obtain ⟨v, hv⟩ := exists_pureStringMethod? h args hmethod
    refine ⟨v, h, ?_, runIn_stringMethod hv⟩
    rw [checkedCall?, checkedStringMethod?_eq hmethod, hv, Option.map_some]
  | array r => exact runIn_arrayMethod hmethod
  | _ => cases hmethod

end

/-! ### The parts in front of and behind a place -/

section

variable {h : Heap} {x : Float} {len default i : ℕ} {args : List Value}

theorem relativeArg_number (hx : argument args i = .number x) : relativeArg h len default args i = relativeIndex len x := by
  rw [relativeArg, positionOr, hx, Heap.number_number]
  rfl

theorem relativeArg_missing (hx : argument args i = .undefined) : relativeArg h len default args i = default := by
  rw [relativeArg, positionOr, hx]
  rfl

theorem clampedArg_number (hx : argument args i = .number x) : clampedArg h len default args i = clampedIndex len x := by
  rw [clampedArg, positionOr, hx, Heap.number_number]
  rfl

theorem relativeIndex_zero (len : ℕ) : relativeIndex len 0 = 0 := by
  have hzero : decode 0 = .finite false 0 (-1074) := by decide +kernel
  have hpart : wholePart 0 (-1074) = 0 := by rw [wholePart, if_neg (by decide), Nat.zero_div]
  rw [relativeIndex, hzero]
  simp only [hpart, Bool.false_and, Bool.false_eq_true, if_false, Nat.zero_min]

/-- The parts of a list up to a number and from it on. -/
theorem between_relativeArg {α : Type} (h h' : Heap) (xs : List α) (x : Float) :
    between xs (relativeArg h xs.length 0 [.number 0, .number x] 0)
        (relativeArg h xs.length xs.length [.number 0, .number x] 1) ++
      between xs (relativeArg h' xs.length 0 [.number x] 0) (relativeArg h' xs.length xs.length [.number x] 1) = xs := by
  rw [relativeArg_number rfl, relativeArg_number rfl, relativeArg_number rfl, relativeArg_missing rfl, relativeIndex_zero,
    between_length, between_append_drop]

theorem slice_string_append (h : Heap) (s : String) (x : Float) : ∃ front back,
    (callMethod (.string s) "slice" [.number 0, .number x]).runIn h = (.ok (.string front), h) ∧
      (callMethod (.string s) "slice" [.number x]).runIn h = (.ok (.string back), h) ∧ front ++ back = s := by
  refine ⟨_, _, runIn_stringMethod rfl, runIn_stringMethod rfl, ?_⟩
  rw [← String.ofList_append, between_relativeArg, String.ofList_toList]

theorem items_newArray (h : Heap) (items : List Value) (r : ArrayRef) :
    (h.newArray items).2.items r = if r.index = h.arrays.size then items.toArray else h.items r := by
  simp only [Heap.items, Heap.newArray, Array.getElem?_push]
  split <;> rfl

theorem slice_array_append (h : Heap) (r : ArrayRef) (x : Float) : ∃ front back h₁ h₂,
    (callMethod (.array r) "slice" [.number 0, .number x]).runIn h = (.ok (.array front), h₁) ∧
      (callMethod (.array r) "slice" [.number x]).runIn h₁ = (.ok (.array back), h₂) ∧
      h₂.items front ++ h₂.items back = h.items r := by
  generalize hfront : between (h.items r).toList (relativeArg h (h.items r).toList.length 0 [.number 0, .number x] 0)
    (relativeArg h (h.items r).toList.length (h.items r).toList.length [.number 0, .number x] 1) = front
  -- a reference to nothing may be that of the new array, which is empty as well then
  have hkept : (h.newArray front).2.items r = h.items r := by
    rw [items_newArray]
    split
    · next hr =>
      have hempty : h.items r = #[] := by rw [Heap.items, Array.getElem?_eq_none hr.ge, Option.getD_none]
      rw [← hfront, hempty]
      simp [between]
    · rfl
  have hfirst := runIn_slice_array h r [.number 0, .number x]
  have hsecond := runIn_slice_array (h.newArray front).2 r [.number x]
  rw [hfront] at hfirst
  rw [hkept] at hsecond
  refine ⟨_, _, _, _, hfirst, hsecond, ?_⟩
  rw [items_newArray, items_newArray, if_neg (by simp [Heap.newArray]), if_pos rfl, items_newArray, if_pos rfl, ← hfront,
    List.append_toArray, between_relativeArg]

/-! ### Searching from a place on -/

/-- The place that a number is clamped to: its whole part, but at least zero and at most the length. -/
inductive Clamped (len : ℕ) (x : Float) : ℕ → Prop where
  | finite {q : ℚ} (hx : Denotes x q) : Clamped len x (min ⌊q⌋₊ len)
  | below (hx : decode x = .infinite true) : Clamped len x 0
  | above (hx : decode x = .infinite false) : Clamped len x len
  | nan (hx : decode x = .nan) : Clamped len x 0

theorem floor_wholePart (m : ℕ) (e : ℤ) : ⌊(m : ℚ) * 2 ^ e⌋₊ = wholePart m e := by
  rw [wholePart]
  split
  · next he =>
    obtain ⟨k, rfl⟩ := Int.eq_ofNat_of_zero_le he
    rw [zpow_natCast, Int.toNat_natCast]
    exact_mod_cast Nat.floor_natCast (R := ℚ) (m * 2 ^ k)
  · next he =>
    obtain ⟨k, hk⟩ := Int.eq_ofNat_of_zero_le (show 0 ≤ -e by omega)
    rw [hk, Int.toNat_natCast, ← neg_neg e, hk, zpow_neg, zpow_natCast, ← div_eq_mul_inv]
    exact_mod_cast Nat.floor_div_eq_div (K := ℚ) m (2 ^ k)

theorem clamped_clampedIndex (len : ℕ) (x : Float) : Clamped len x (clampedIndex len x) := by
  rw [clampedIndex]
  split
  · next hx => exact .nan hx
  · next negative hx =>
    cases negative with
    | true => exact .below hx
    | false => exact .above hx
  · next negative m e hx =>
    have hclamped : Clamped len x (min ⌊(if negative then -1 else 1 : ℚ) * m * 2 ^ e⌋₊ len) :=
      .finite ⟨negative, m, e, hx, rfl⟩
    cases negative with
    | true =>
      have hfloor : ⌊(if true then -1 else 1 : ℚ) * m * 2 ^ e⌋₊ = 0 := Nat.floor_of_nonpos (by
        have : (0 : ℚ) ≤ m * 2 ^ e := by positivity
        simpa [mul_assoc] using this)
      rw [hfloor] at hclamped
      simpa using hclamped
    | false =>
      have hfloor : ⌊(if false then -1 else 1 : ℚ) * m * 2 ^ e⌋₊ = wholePart m e := by
        rw [if_neg Bool.false_ne_true, one_mul, floor_wholePart]
      rw [hfloor] at hclamped
      exact hclamped

/-- What a search for a part from a place on answers: the least place at which the part is, or minus one. -/
def IsFirst (part text : List Char) (start : ℕ) (answer : Value) : Prop :=
  (∃ i, answer = .ofNat i ∧ start ≤ i ∧ OccursAt part text i ∧ ∀ j, start ≤ j → j < i → ¬ OccursAt part text j) ∨
    answer = .number (-1) ∧ ∀ i, start ≤ i → ¬ OccursAt part text i

theorem indexOf_isFirst (h : Heap) (s t : String) (x : Float) : ∃ start answer, Clamped s.toList.length x start ∧
    (callMethod (.string s) "indexOf" [.string t, .number x]).runIn h = (.ok answer, h) ∧
    IsFirst t.toList s.toList start answer := by
  refine ⟨_, _, clamped_clampedIndex _ x, runIn_stringMethod (pureStringMethod?_indexOf h s _), ?_⟩
  rw [clampedArg_number rfl, show argument [.string t, .number x] 0 = .string t from rfl, Heap.string_string]
  cases hfound : findFrom? t.toList s.toList (clampedIndex s.toList.length x) with
  | some i => exact .inl ⟨i, rfl, findFrom?_eq_some_iff.1 hfound⟩
  | none => exact .inr ⟨rfl, findFrom?_eq_none_iff.1 hfound⟩

/-- Strings and arrays are never accessed out of range, whatever the arguments are. The part up to a number and that from it
on make the whole, and the search in a string finds the first occurrence that is not in front of the place given. -/
theorem places_in_range (h : Heap) :
    (∀ receiver method args, method ∈ placeMethods receiver → ∃ v h',
      checkedCall? h receiver method args = some (v, h') ∧ (callMethod receiver method args).runIn h = (.ok v, h')) ∧
    (∀ s x, ∃ front back, (callMethod (.string s) "slice" [.number 0, .number x]).runIn h = (.ok (.string front), h) ∧
      (callMethod (.string s) "slice" [.number x]).runIn h = (.ok (.string back), h) ∧ front ++ back = s) ∧
    (∀ r x, ∃ front back h₁ h₂,
      (callMethod (.array r) "slice" [.number 0, .number x]).runIn h = (.ok (.array front), h₁) ∧
      (callMethod (.array r) "slice" [.number x]).runIn h₁ = (.ok (.array back), h₂) ∧
      h₂.items front ++ h₂.items back = h.items r) ∧
    ∀ s t x, ∃ start answer, Clamped s.toList.length x start ∧
      (callMethod (.string s) "indexOf" [.string t, .number x]).runIn h = (.ok answer, h) ∧
      IsFirst t.toList s.toList start answer :=
  ⟨fun _ _ _ hmethod => runIn_of_mem_placeMethods hmethod, slice_string_append h, slice_array_append h, indexOf_isFirst h⟩

end

end ViewBinding.Builtin
