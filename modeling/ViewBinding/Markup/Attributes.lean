import ViewBinding.Association

/-!
The attributes of an element, in the order of their names.

Writing one attribute changes what no other name reads, and an attribute that is taken away reads as absent.
-/
namespace ViewBinding.Markup

/-- Names in increasing order, each once. -/
structure Attributes where
  entries : List (String × String)
  sorted : entries.Pairwise fun a b => a.1 < b.1
  deriving DecidableEq

namespace Attributes

def empty : Attributes := ⟨[], .nil⟩

instance : Repr Attributes := ⟨fun a => reprPrec a.entries⟩

def get? (a : Attributes) (name : String) : Option String := a.entries.lookup name

def contains (a : Attributes) (name : String) : Bool := (a.get? name).isSome

/-- Replaces the entry of a name, or puts it before the first greater name. -/
def insertEntry (name value : String) : List (String × String) → List (String × String)
  | [] => [(name, value)]
  | (n, v) :: rest =>
    if name = n then (name, value) :: rest
    else if name < n then (name, value) :: (n, v) :: rest
    else (n, v) :: insertEntry name value rest

theorem mem_names_insertEntry {name value : String} {es : List (String × String)} {n : String} :
    n ∈ (insertEntry name value es).map (·.1) ↔ n = name ∨ n ∈ es.map (·.1) := by
  induction es with
  | nil => simp [insertEntry]
  | cons e es ih =>
    simp only [insertEntry]
    split
    · next h => simp [h]
    · split
      · simp
      · rw [List.map_cons, List.mem_cons, ih, List.map_cons, List.mem_cons]
        exact or_left_comm

theorem sorted_insertEntry (name value : String) {es : List (String × String)}
    (h : es.Pairwise fun a b => a.1 < b.1) :
    (insertEntry name value es).Pairwise fun a b => a.1 < b.1 := by
  induction es with
  | nil => simp [insertEntry]
  | cons e es ih =>
    obtain ⟨below, rest⟩ := List.pairwise_cons.1 h
    simp only [insertEntry]
    split
    · next heq => exact List.pairwise_cons.2 ⟨fun b hb => heq ▸ below b hb, rest⟩
    · next hne =>
      split
      · next hlt =>
        refine List.pairwise_cons.2 ⟨fun b hb => ?_, h⟩
        rcases List.mem_cons.1 hb with rfl | hb
        · exact hlt
        · exact String.lt_trans hlt (below b hb)
      · next hlt =>
        refine List.pairwise_cons.2 ⟨fun b hb => ?_, ih rest⟩
        rcases mem_names_insertEntry.1 (List.mem_map_of_mem hb) with hn | hb
        · rw [hn]
          exact Decidable.byContradiction fun hge =>
            hne (String.le_antisymm (String.not_lt.1 hge) (String.not_lt.1 hlt))
        · obtain ⟨c, hc, hcb⟩ := List.mem_map.1 hb
          exact hcb ▸ below c hc

def insert (a : Attributes) (name value : String) : Attributes :=
  ⟨insertEntry name value a.entries, sorted_insertEntry name value a.sorted⟩

def erase (a : Attributes) (name : String) : Attributes :=
  ⟨a.entries.filter (·.1 != name), a.sorted.filter _⟩

/-- Of several entries of one name the first one counts. -/
def ofList (entries : List (String × String)) : Attributes :=
  entries.foldr (fun (name, value) a => a.insert name value) empty

theorem lookup_insertEntry_self (name value : String) (es : List (String × String)) :
    (insertEntry name value es).lookup name = some value := by
  induction es with
  | nil => simp [insertEntry]
  | cons e es ih =>
    obtain ⟨n, v⟩ := e
    by_cases h : name = n
    · simp [insertEntry, h]
    · by_cases hlt : name < n
      · simp [insertEntry, h, hlt]
      · simp [insertEntry, h, hlt, List.lookup_cons, ih, beq_eq_false_iff_ne.2 h]

theorem lookup_insertEntry_of_ne {name other : String} (h : other ≠ name) (value : String)
    (es : List (String × String)) : (insertEntry name value es).lookup other = es.lookup other := by
  have hb : (other == name) = false := beq_eq_false_iff_ne.2 h
  induction es with
  | nil => simp [insertEntry, List.lookup_cons, hb]
  | cons e es ih =>
    obtain ⟨n, v⟩ := e
    by_cases hn : name = n
    · subst hn
      simp [insertEntry, List.lookup_cons, hb]
    · by_cases hlt : name < n
      · simp [insertEntry, hn, hlt, List.lookup_cons, hb]
      · simp [insertEntry, hn, hlt, List.lookup_cons, ih]

@[simp] theorem get?_insert_self (a : Attributes) (name value : String) :
    (a.insert name value).get? name = some value :=
  lookup_insertEntry_self name value a.entries

theorem get?_insert_of_ne (a : Attributes) {name other : String} (h : other ≠ name) (value : String) :
    (a.insert name value).get? other = a.get? other :=
  lookup_insertEntry_of_ne h value a.entries

@[simp] theorem get?_erase_self (a : Attributes) (name : String) : (a.erase name).get? name = none :=
  (Association.lookup_filter (· != name) name a.entries).trans (if_neg (by simp))

theorem get?_erase_of_ne (a : Attributes) {name other : String} (h : other ≠ name) :
    (a.erase name).get? other = a.get? other :=
  (Association.lookup_filter (· != name) other a.entries).trans (if_pos (bne_iff_ne.2 h))

@[simp] theorem get?_empty (name : String) : empty.get? name = none := rfl

end Attributes

end ViewBinding.Markup
