import Mathlib.Tactic
import ViewBinding.Proofs.Association
import ViewBinding.Proofs.Number.Unpacked
import ViewBinding.Proofs.Value.Reach
import ViewBinding.Value.Equality

/-! The laws of the equalities. Equality of contents goes into arrays and objects step by step, and each step is
symmetric and transitive if the one before is: it asks only that the keys of one object are among those of the other, but
as both have as many and none twice, these are the same keys. -/
namespace ViewBinding

section

variable {α : Type} {R S : α → α → Prop} {o o' o'' : Option α}

theorem optionRel_imp (hRS : ∀ x, o = some x → ∀ y, R x y → S x y) (h : Option.Rel R o o') : Option.Rel S o o' := by
  cases h with
  | none => exact .none
  | some h => exact .some (hRS _ rfl _ h)

theorem optionRel_symm (hR : ∀ x y, R x y → R y x) (h : Option.Rel R o o') : Option.Rel R o' o := by
  cases h with
  | none => exact .none
  | some h => exact .some (hR _ _ h)

theorem optionRel_trans (hR : ∀ x y z, R x y → R y z → R x z) (h : Option.Rel R o o') (h' : Option.Rel R o' o'') :
    Option.Rel R o o'' := by
  cases h with
  | none => exact h'
  | some h =>
    cases h' with
    | some h' => exact .some (hR _ _ _ h h')

theorem isSome_eq_of_optionRel (h : Option.Rel R o o') : o.isSome = o'.isSome := by
  cases h <;> rfl

theorem forall₂_trans (hR : ∀ x y z, R x y → R y z → R x z) {as bs cs : List α} (hab : List.Forall₂ R as bs)
    (hbc : List.Forall₂ R bs cs) : List.Forall₂ R as cs := by
  induction hab generalizing cs with
  | nil => exact hbc
  | cons hfirst _ ih =>
    cases hbc with
    | cons hsecond hrest => exact .cons (hR _ _ _ hfirst hsecond) (ih hrest)

end

namespace OrderedMap

variable {α : Type} {R : α → α → Prop} {m m' : OrderedMap α} {key : String}

theorem get?_eq_some_iff {value : α} : m.get? key = some value ↔ (key, value) ∈ m.entries := ⟨mem_of_get?, get?_of_mem⟩

theorem mem_keys_iff : key ∈ m.keys ↔ (m.get? key).isSome = true := by
  rw [Option.isSome_iff_exists]
  refine ⟨exists_get?_of_mem_keys, fun ⟨value, h⟩ => ?_⟩
  exact List.mem_map_of_mem (get?_eq_some_iff.1 h)

/-- The order of the entries does not matter for what is found under a key. -/
theorem get?_eq_of_perm (h : m.entries.Perm m'.entries) (key : String) : m.get? key = m'.get? key := by
  ext value
  rw [get?_eq_some_iff, get?_eq_some_iff, h.mem_iff]

/-- Maps have related values under the same keys if they have as many keys and those of the one are among those of the
other. -/
theorem forall_rel_iff : (∀ key, Option.Rel R (m.get? key) (m'.get? key)) ↔
    m.size = m'.size ∧ ∀ e ∈ m.entries, ∃ value, m'.get? e.1 = some value ∧ R e.2 value := by
  have hlength : ∀ m : OrderedMap α, m.keys.length = m.size := fun m => List.length_map ..
  constructor
  · intro h
    refine ⟨?_, fun e he => ?_⟩
    · have hkeys : ∀ key, key ∈ m.keys ↔ key ∈ m'.keys := fun key => by
        rw [mem_keys_iff, mem_keys_iff, isSome_eq_of_optionRel (h key)]
      rw [← hlength m, ← hlength m']
      exact ((List.perm_ext_iff_of_nodup m.nodup_keys m'.nodup_keys).2 hkeys).length_eq
    · have hvalue := h e.1
      rw [get?_of_mem he] at hvalue
      generalize m'.get? e.1 = found at hvalue
      cases hvalue with
      | some hr => exact ⟨_, rfl, hr⟩
  · rintro ⟨hsize, h⟩ key
    have hsubset : m.keys ⊆ m'.keys := fun key hkey => by
      obtain ⟨e, he, rfl⟩ := List.mem_map.1 hkey
      obtain ⟨value, hvalue, -⟩ := h e he
      exact mem_keys_iff.2 (Option.isSome_of_eq_some hvalue)
    have hlengths : m'.keys.length ≤ m.keys.length := by rw [hlength, hlength, hsize]
    have hperm : m.keys.Perm m'.keys := (List.subperm_of_subset m.nodup_keys hsubset).perm_of_length_le hlengths
    cases hkey : m.get? key with
    | some value =>
      obtain ⟨other, hother, hr⟩ := h _ (get?_eq_some_iff.1 hkey)
      rw [hother]
      exact .some hr
    | none =>
      have hnone : m'.get? key = none := by
        rw [← Option.not_isSome_iff_eq_none, ← mem_keys_iff, ← hperm.mem_iff, mem_keys_iff, hkey]
        exact Bool.false_ne_true
      rw [hnone]
      exact .none

end OrderedMap

namespace Value

variable {a b c : Value}

def sameVariant : Value → Value → Bool
  | .undefined, .undefined | .null, .null | .bool _, .bool _ | .number _, .number _ | .string _, .string _
  | .array _, .array _ | .object _, .object _ => true
  | _, _ => false

/-- Values are equal without conversion if they are equal numbers, or one and the same value that is no number. -/
theorem strictEquals_iff : a.strictEquals b = true ↔
    (∃ x y, a = .number x ∧ b = .number y ∧ (x == y) = true) ∨ a = b ∧ ∀ x, a ≠ .number x := by
  cases a <;> cases b <;> simp [strictEquals]

theorem strictEquals_symm (h : a.strictEquals b = true) : b.strictEquals a = true := by
  rw [strictEquals_iff] at h ⊢
  rcases h with ⟨x, y, rfl, rfl, hxy⟩ | ⟨rfl, ha⟩
  · exact .inl ⟨y, x, rfl, rfl, Number.beq_symm hxy⟩
  · exact .inr ⟨rfl, ha⟩

theorem strictEquals_trans (h : a.strictEquals b = true) (h' : b.strictEquals c = true) : a.strictEquals c = true := by
  rw [strictEquals_iff] at h h' ⊢
  rcases h with ⟨x, y, rfl, rfl, hxy⟩ | ⟨rfl, ha⟩
  · rcases h' with ⟨y', z, hy, rfl, hyz⟩ | ⟨-, hb⟩
    · cases hy
      exact .inl ⟨x, z, rfl, rfl, Number.beq_trans hxy hyz⟩
    · exact absurd rfl (hb y)
  · exact h'

theorem strictEquals_comm (a b : Value) : a.strictEquals b = b.strictEquals a :=
  Bool.eq_iff_iff.2 ⟨strictEquals_symm, strictEquals_symm⟩

end Value

namespace Heap

variable {h h' : Heap} {R S : Value → Value → Prop} {a b c : Value} {n : ℕ}

/-! ### Equality with conversion -/

theorem equalsPrimitive_comm (h : Heap) (a b : Value) : h.equalsPrimitive a b = h.equalsPrimitive b a := by
  have hnumbers : (h.number a == h.number b) = (h.number b == h.number a) :=
    Bool.eq_iff_iff.2 ⟨Number.beq_symm, Number.beq_symm⟩
  cases a <;> cases b <;> simp only [equalsPrimitive, hnumbers] <;> exact Value.strictEquals_comm _ _

/-- The conversions on one side are those on the other. -/
theorem looseEquals_comm (h : Heap) (a b : Value) : h.looseEquals a b = h.looseEquals b a := by
  rw [looseEquals, looseEquals, Bool.or_comm b.isNullish, Bool.and_comm b.isNullish]
  split
  · rfl
  · generalize unbool a = a
    generalize unbool b = b
    cases a <;> cases b <;> exact equalsPrimitive_comm h _ _

/-- Values of the same kind are not converted, but for booleans, which are equal as numbers if they are the same. -/
theorem looseEquals_of_sameVariant (h : Heap) (hab : a.sameVariant b = true) : h.looseEquals a b = a.strictEquals b := by
  have hbools : ∀ b b' : Bool, ((if b then 1 else 0 : Float) == (if b' then 1 else 0)) = (b == b') := by decide +kernel
  cases a with
  | bool b₁ =>
    cases b with
    | bool b₂ => exact hbools b₁ b₂
    | _ => cases hab
  | _ => cases b <;> first | exact absurd hab Bool.false_ne_true | rfl

/-! ### Equality of contents -/

/-- A step of the equality of contents, for a relation that what is inside has to have. -/
inductive Matches (h : Heap) (R : Value → Value → Prop) : Value → Value → Prop where
  | strict {a b : Value} (hab : a.strictEquals b = true) : Matches h R a b
  | array {r s : ArrayRef} (hitems : List.Forall₂ R (h.items r).toList (h.items s).toList) :
    Matches h R (.array r) (.array s)
  | object {r s : ObjectRef} (hfields : ∀ key, Option.Rel R ((h.fields r).get? key) ((h.fields s).get? key)) :
    Matches h R (.object r) (.object s)

theorem eq_array_of_strictEquals {r : ArrayRef} (h : a.strictEquals (.array r) = true) : a = .array r := by
  rcases Value.strictEquals_iff.1 h with ⟨_, _, -, hr, -⟩ | ⟨ha, -⟩
  · cases hr
  · exact ha

theorem eq_object_of_strictEquals {r : ObjectRef} (h : a.strictEquals (.object r) = true) : a = .object r := by
  rcases Value.strictEquals_iff.1 h with ⟨_, _, -, hr, -⟩ | ⟨ha, -⟩
  · cases hr
  · exact ha

theorem Matches.imp (hRS : ∀ x ∈ h.values a, ∀ y, R x y → S x y) (hab : h.Matches R a b) : h.Matches S a b := by
  cases hab with
  | strict hab => exact .strict hab
  | @array r s hitems =>
    rw [List.forall₂_iff_zip] at hitems
    refine .array (List.forall₂_iff_zip.2 ⟨hitems.1, fun {x y} hxy => ?_⟩)
    exact hRS x (List.of_mem_zip hxy).1 y (hitems.2 hxy)
  | @object r s hfields =>
    refine .object fun key => optionRel_imp (fun x hx => hRS x ?_) (hfields key)
    exact List.mem_map_of_mem (OrderedMap.get?_eq_some_iff.1 hx)

theorem Matches.symm (hR : ∀ x y, R x y → R y x) (hab : h.Matches R a b) : h.Matches R b a := by
  cases hab with
  | strict hab => exact .strict (Value.strictEquals_symm hab)
  | array hitems => exact .array (List.Forall₂.flip (hitems.imp hR))
  | object hfields => exact .object fun key => optionRel_symm hR (hfields key)

theorem Matches.trans (hR : ∀ x y z, R x y → R y z → R x z) (hab : h.Matches R a b) (hbc : h.Matches R b c) :
    h.Matches R a c := by
  cases hab with
  | strict hab =>
    cases hbc with
    | strict hbc => exact .strict (Value.strictEquals_trans hab hbc)
    | array hitems => exact eq_array_of_strictEquals hab ▸ .array hitems
    | object hfields => exact eq_object_of_strictEquals hab ▸ .object hfields
  | array hab =>
    cases hbc with
    | strict hbc => exact eq_array_of_strictEquals (Value.strictEquals_symm hbc) ▸ .array hab
    | array hbc => exact .array (forall₂_trans hR hab hbc)
  | object hab =>
    cases hbc with
    | strict hbc => exact eq_object_of_strictEquals (Value.strictEquals_symm hbc) ▸ .object hab
    | object hbc => exact .object fun key => optionRel_trans hR (hab key) (hbc key)

theorem sameWithin_zero (h : Heap) (a b : Value) : h.sameWithin 0 a b = a.strictEquals b := by
  cases a <;> cases b <;> simp [sameWithin, Value.strictEquals]

theorem sameWithin_array_iff {r s : ArrayRef} : h.sameWithin (n + 1) (.array r) (.array s) = true ↔
    r = s ∨ List.Forall₂ (h.sameWithin n · · = true) (h.items r).toList (h.items s).toList := by
  rw [sameWithin, Bool.or_eq_true, beq_iff_eq, List.forall₂_iff_zip]
  simp only [Bool.and_eq_true, beq_iff_eq, List.all_eq_true, Prod.forall]

theorem sameWithin_object_iff {r s : ObjectRef} : h.sameWithin (n + 1) (.object r) (.object s) = true ↔
    r = s ∨ ∀ key, Option.Rel (h.sameWithin n · · = true) ((h.fields r).get? key) ((h.fields s).get? key) := by
  rw [sameWithin, Bool.or_eq_true, beq_iff_eq, OrderedMap.forall_rel_iff]
  simp only [Bool.and_eq_true, beq_iff_eq, List.all_eq_true]
  refine or_congr_right (and_congr_right fun _ => forall₂_congr fun e _ => ?_)
  cases (h.fields s).get? e.1 <;> simp

theorem sameWithin_of_strictEquals (hab : a.strictEquals b = true) (n : ℕ) : h.sameWithin n a b = true := by
  cases n with
  | zero => rwa [sameWithin_zero]
  | succ n =>
    cases a with
    | array r =>
      obtain rfl := eq_array_of_strictEquals (Value.strictEquals_symm hab)
      exact sameWithin_array_iff.2 (.inl rfl)
    | object r =>
      obtain rfl := eq_object_of_strictEquals (Value.strictEquals_symm hab)
      exact sameWithin_object_iff.2 (.inl rfl)
    | _ => exact hab

theorem sameWithin_succ_iff : h.sameWithin (n + 1) a b = true ↔ h.Matches (h.sameWithin n · · = true) a b := by
  constructor
  · intro hab
    cases a with
    | array r =>
      cases b with
      | array s => exact (sameWithin_array_iff.1 hab).elim (fun hrs => .strict (beq_iff_eq.2 hrs)) .array
      | _ => exact .strict hab
    | object r =>
      cases b with
      | object s => exact (sameWithin_object_iff.1 hab).elim (fun hrs => .strict (beq_iff_eq.2 hrs)) .object
      | _ => exact .strict hab
    | _ => exact .strict hab
  · intro hab
    cases hab with
    | strict hab => exact sameWithin_of_strictEquals hab _
    | array hitems => exact sameWithin_array_iff.2 (.inr hitems)
    | object hfields => exact sameWithin_object_iff.2 (.inr hfields)

theorem sameWithin_symm (hab : h.sameWithin n a b = true) : h.sameWithin n b a = true := by
  induction n generalizing a b with
  | zero =>
    rw [sameWithin_zero] at hab ⊢
    exact Value.strictEquals_symm hab
  | succ n ih =>
    rw [sameWithin_succ_iff] at hab ⊢
    exact hab.symm fun _ _ hxy => ih hxy

theorem sameWithin_trans (hab : h.sameWithin n a b = true) (hbc : h.sameWithin n b c = true) :
    h.sameWithin n a c = true := by
  induction n generalizing a b c with
  | zero =>
    rw [sameWithin_zero] at hab hbc ⊢
    exact Value.strictEquals_trans hab hbc
  | succ n ih =>
    rw [sameWithin_succ_iff] at hab hbc ⊢
    exact hab.trans (fun _ _ _ hxy hyz => ih hxy hyz) hbc

/-! ### The order of keys -/

/-- A heap whose objects have the same entries as those of another one, in whatever order. -/
structure Reordered (h h' : Heap) : Prop where
  arrays : h'.arrays = h.arrays
  size_objects : h'.objects.size = h.objects.size
  fields : ∀ r, (h'.fields r).entries.Perm (h.fields r).entries

theorem Reordered.matches (hr : h.Reordered h') (hab : h.Matches R a b) : h'.Matches R a b := by
  have hitems : ∀ r, h'.items r = h.items r := fun r => by rw [items, items, hr.arrays]
  have hfields : ∀ r key, (h'.fields r).get? key = (h.fields r).get? key := fun r key =>
    OrderedMap.get?_eq_of_perm (hr.fields r) key
  cases hab with
  | strict hab => exact .strict hab
  | @array r s hab => exact .array (by rwa [hitems, hitems])
  | @object r s hab => exact .object fun key => by rw [hfields, hfields]; exact hab key

theorem Reordered.symm (hr : h.Reordered h') : h'.Reordered h :=
  ⟨hr.arrays.symm, hr.size_objects.symm, fun r => (hr.fields r).symm⟩

theorem Reordered.sameWithin (hr : h.Reordered h') (hab : h.sameWithin n a b = true) : h'.sameWithin n a b = true := by
  induction n generalizing a b with
  | zero =>
    rw [sameWithin_zero] at hab ⊢
    exact hab
  | succ n ih =>
    rw [sameWithin_succ_iff] at hab ⊢
    exact (hr.matches hab).imp fun _ _ _ hxy => ih hxy

theorem Reordered.same_eq (hr : h.Reordered h') (a b : Value) : h'.same a b = h.same a b := by
  have hdepth : h'.depth = h.depth := by rw [depth, depth, hr.arrays, hr.size_objects]
  rw [same, same, hdepth]
  exact Bool.eq_iff_iff.2 ⟨hr.symm.sameWithin, hr.sameWithin⟩

/-- Entries with different keys that are written in another order make the same object but for the order. -/
theorem reordered_newObject (h : Heap) {es es' : List (String × Value)} (hkeys : (es.map (·.1)).Nodup)
    (hperm : es'.Perm es) : (h.newObject es).2.Reordered (h.newObject es').2 where
  arrays := rfl
  size_objects := by rw [newObject, newObject, Array.size_push, Array.size_push]
  fields r := by
    have hentries : (OrderedMap.ofList es').entries.Perm (OrderedMap.ofList es).entries := by
      rwa [OrderedMap.entries_ofList hkeys, OrderedMap.entries_ofList ((hperm.map _).nodup_iff.2 hkeys)]
    simp only [fields, newObject, Array.getElem?_push]
    split
    · exact hentries
    · exact .refl _

/-! ### The bound on the nesting -/

theorem sameWithin_succ_eq (ha : h.NestedWithin n a) (b : Value) : h.sameWithin (n + 1) a b = h.sameWithin n a b := by
  induction n generalizing a b with
  | zero =>
    rw [sameWithin_zero]
    cases a with
    | array | object => cases ha
    | _ => rfl
  | succ n ih =>
    rw [Bool.eq_iff_iff, sameWithin_succ_iff, sameWithin_succ_iff]
    exact ⟨.imp fun x hx y hxy => (ih (ha x hx) y).symm.trans hxy, .imp fun x hx y hxy => (ih (ha x hx) y).trans hxy⟩

theorem stringWithin_succ_eq (ha : h.NestedWithin n a) : h.stringWithin (n + 1) a = h.stringWithin n a := by
  induction n generalizing a with
  | zero =>
    cases a with
    | array | object => cases ha
    | bool b => cases b <;> rfl
    | _ => rfl
  | succ n ih =>
    cases a with
    | array r =>
      rw [stringWithin, stringWithin]
      refine congrArg _ (List.map_congr_left fun item hitem => ?_)
      rw [ih (ha item hitem)]
    | bool b => cases b <;> rfl
    | _ => rfl

/-- A value that does not contain itself is compared and shown as a whole, and no greater bound changes that. -/
theorem Acyclic.eq_of_depth_le (ha : h.Acyclic a) {n : ℕ} (hn : h.depth ≤ n) (b : Value) :
    h.sameWithin n a b = h.same a b ∧ h.stringWithin n a = h.string a := by
  induction hn with
  | refl => exact ⟨rfl, rfl⟩
  | step hn ih =>
    have hnested := ha.nestedWithin_depth.mono hn
    exact ⟨(sameWithin_succ_eq hnested b).trans ih.1, (stringWithin_succ_eq hnested).trans ih.2⟩

/-- The laws of the equalities. Equality with conversion is symmetric, and converts nothing if both values are of the same
kind. Equality of contents is symmetric and transitive, holds of what is equal without conversion, and does not depend on
the order of the keys of any object, such as that in which they were written; what does not contain itself is followed
to its end. -/
theorem equality_laws (h : Heap) (a b c : Value) :
    h.looseEquals a b = h.looseEquals b a ∧
      (a.sameVariant b = true → h.looseEquals a b = a.strictEquals b) ∧
      h.same a b = h.same b a ∧
      (h.same a b = true → h.same b c = true → h.same a c = true) ∧
      (a.strictEquals b = true → h.same a b = true) ∧
      (∀ h', h.Reordered h' → h'.same a b = h.same a b) ∧
      (∀ es es', (es.map (·.1)).Nodup → es'.Perm es → (h.newObject es').2.same a b = (h.newObject es).2.same a b) ∧
      (h.Acyclic a → ∀ n, h.depth ≤ n → h.sameWithin n a b = h.same a b ∧ h.stringWithin n a = h.string a) :=
  ⟨h.looseEquals_comm a b, h.looseEquals_of_sameVariant,
    Bool.eq_iff_iff.2 ⟨sameWithin_symm, sameWithin_symm⟩, sameWithin_trans,
    fun hab => sameWithin_of_strictEquals hab _, fun _ hr => hr.same_eq a b,
    fun _ _ hkeys hperm => (h.reordered_newObject hkeys hperm).same_eq a b,
    fun ha _ hn => ha.eq_of_depth_le hn b⟩

example : Heap.same ⟨#[], #[.ofList [("a", .number 1), ("b", .null)], .ofList [("b", .null), ("a", .number 1)]]⟩
    (.object ⟨0⟩) (.object ⟨1⟩) = true := by decide +kernel

end Heap

end ViewBinding
