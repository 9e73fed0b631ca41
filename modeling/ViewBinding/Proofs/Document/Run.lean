import ViewBinding.Document
import ViewBinding.Proofs.Tree.Amend

/-! What happens to a document: edits of its tree, and listeners that are installed and dropped. A run keeps the list of
these changes, so that what has become of a node or a listener can be said after any number of them. -/
namespace ViewBinding

namespace Document

inductive Change where
  /-- An edit of the tree, with the nodes that it takes away. -/
  | edit (gone : List NodeId)
  | install (id : NodeId) (listener : Listener)
  | purge (ids : List NodeId)

/-- A document and what one change makes of it. Listeners are installed on elements only. -/
inductive Makes : Document → Change → Document → Prop
  | edit {d : Document} {top : NodeId} {gone : List NodeId} {t : Tree} (h : d.tree.Edit top gone t) :
    Makes d (.edit gone) { d with tree := t }
  | install {d : Document} {id : NodeId} (h : d.tree.isElement id = true) (l : Listener) :
    Makes d (.install id l) { d with listeners := d.listeners.install id l }
  | purge (d : Document) (ids : List NodeId) : Makes d (.purge ids) { d with listeners := d.listeners.purge ids }

/-- A document, changes one after the other, and what they make of it. -/
inductive Run (d : Document) : List Change → Document → Prop
  | refl : Run d [] d
  | tail {changes : List Change} {c : Change} {d' d'' : Document} (h : Run d changes d') (hc : Makes d' c d'') :
    Run d (changes ++ [c]) d''

/-- The nodes that changes take away. -/
def taken (changes : List Change) : List NodeId :=
  changes.flatMap fun c => match c with
    | .edit gone => gone
    | _ => []

@[simp] theorem taken_nil : taken [] = [] := rfl

@[simp] theorem taken_append (changes more : List Change) : taken (changes ++ more) = taken changes ++ taken more :=
  List.flatMap_append

@[simp] theorem taken_edit (gone : List NodeId) : taken [.edit gone] = gone := by simp [taken]

@[simp] theorem taken_install (id : NodeId) (l : Listener) : taken [.install id l] = [] := rfl

@[simp] theorem taken_purge (ids : List NodeId) : taken [.purge ids] = [] := rfl

variable {d d' d'' : Document} {changes more : List Change} {c : Change} {x : NodeId}

namespace Run

theorem single (h : Makes d c d') : Run d [c] d' := .tail .refl h

theorem trans (h : Run d changes d') (h' : Run d' more d'') : Run d (changes ++ more) d'' := by
  induction h' with
  | refl => rwa [List.append_nil]
  | tail _ hc ih => exact List.append_assoc .. ▸ .tail ih hc

/-- Every change in a run is made of what the changes before it have left. -/
theorem split (h : Run d (changes ++ c :: more) d') :
    ∃ d₁ d₂, Run d changes d₁ ∧ Makes d₁ c d₂ ∧ Run d₂ more d' := by
  generalize hall : changes ++ c :: more = all at h
  induction h generalizing more with
  | refl => simp at hall
  | @tail front last d₁ d₂ h hc ih =>
    rcases List.eq_nil_or_concat more with rfl | ⟨more, last', rfl⟩
    · obtain ⟨rfl, hlast⟩ := List.append_inj' hall rfl
      obtain rfl : c = last := by simpa using hlast
      exact ⟨d₁, d₂, h, hc, .refl⟩
    · rw [List.concat_eq_append, ← List.cons_append, ← List.append_assoc] at hall
      obtain ⟨hfront, hlast⟩ := List.append_inj' hall rfl
      obtain rfl : last' = last := by simpa using hlast
      obtain ⟨d₃, d₄, hfirst, hmade, hrest⟩ := ih hfront
      exact ⟨d₃, d₄, hfirst, hmade, List.concat_eq_append ▸ .tail hrest hc⟩

end Run

theorem Makes.kept (h : Makes d c d') (hd : d.tree.Whole) : d.tree.Kept d'.tree (taken [c]) := by
  cases h with
  | edit h => exact taken_edit _ ▸ (h.edited hd).toKept
  | install _ _ => exact .refl hd
  | purge ids => exact .refl hd

/-- A run keeps the tree in one piece, and every node that it does not take away. -/
theorem Run.kept (h : Run d changes d') (hd : d.tree.Whole) : d.tree.Kept d'.tree (taken changes) := by
  induction h with
  | refl => exact .refl hd
  | tail _ hc ih => exact taken_append .. ▸ ih.trans (hc.kept ih.whole)

/-- No slot is given back more often than the tree has changed. -/
theorem Run.mutations_add_count_le (h : Run d changes d') (hd : d.tree.Whole) (i : Nat) :
    d.tree.mutations + ((taken changes).map (·.slot)).count i ≤ d'.tree.mutations := by
  induction h with
  | refl => simp
  | @tail changes c d' d'' h hc ih =>
    have hlast : d'.tree.mutations + ((taken [c]).map (·.slot)).count i ≤ d''.tree.mutations := by
      cases hc with
      | edit hedit => exact taken_edit _ ▸ hedit.mutations_add_count_le (h.kept hd).whole i
      | install _ _ => simp
      | purge ids => simp
    rw [taken_append, List.map_append, List.count_append]
    omega

/-- A node that is not taken away is still there. -/
theorem Run.inUse (h : Run d changes d') (hd : d.tree.Whole) (hx : d.tree.InUse x) (hmem : x ∉ taken changes) : d'.tree.InUse x :=
  ((h.kept hd).stays x hx hmem).1

theorem Run.isElement_eq (h : Run d changes d') (hd : d.tree.Whole) (hx : d.tree.InUse x) (hmem : x ∉ taken changes) :
    d'.tree.isElement x = d.tree.isElement x := by
  have htag := congrArg Option.isSome ((h.kept hd).stays x hx hmem).2.2
  rwa [Option.isSome_map, Option.isSome_map] at htag

/-- A node that is taken away is not there again, unless its slot has come to the same generation once more. -/
theorem Run.not_isLive (h : Run d changes d') (hd : d.tree.Whole) (hx : d.tree.InUse x) (hmem : x ∈ taken changes)
    (hfew : ((taken changes).map (·.slot)).count x.slot < 2 ^ 32) : d'.tree.isLive x ≠ true := fun hlive => by
  have hgen := (h.kept hd).generation x.slot
  rw [Tree.generation_of_isLive hlive, Tree.generation_of_isLive hx.1] at hgen
  have hzero := congrArg UInt32.toNat (UInt32.left_eq_add.1 hgen)
  rw [UInt32.toNat_ofNat', Nat.mod_eq_of_lt hfew, UInt32.toNat_zero] at hzero
  exact List.count_eq_zero.1 hzero (List.mem_map_of_mem hmem)

/-- A handle that names a node at some point of a run has not been taken away before. -/
theorem Run.exists_before {front rest : List Change} (h : Run d (front ++ c :: rest) d') (hd : d.tree.Whole) (hx : d.tree.InUse x)
    (hfew : ((taken (front ++ c :: rest)).map (·.slot)).count x.slot < 2 ^ 32) :
    ∃ d₁ d₂, Run d front d₁ ∧ Makes d₁ c d₂ ∧ Run d₂ rest d' ∧ (d₁.tree.isLive x = true → x ∉ taken front) := by
  obtain ⟨d₁, d₂, hfront, hc, hrest⟩ := h.split
  refine ⟨d₁, d₂, hfront, hc, hrest, fun hlive hmem => hfront.not_isLive hd hx hmem ?_ hlive⟩
  rw [taken_append, List.map_append, List.count_append] at hfew
  omega

theorem mem_taken : x ∈ taken changes ↔ ∃ gone, .edit gone ∈ changes ∧ x ∈ gone := by
  unfold taken
  rw [List.mem_flatMap]
  constructor
  · rintro ⟨c, hc, hx⟩
    cases c with
    | edit gone => exact ⟨gone, hc, hx⟩
    | install _ _ => cases hx
    | purge _ => cases hx
  · rintro ⟨gone, hc, hx⟩
    exact ⟨_, hc, hx⟩

/-- Where no listener is installed, there are no new ones. -/
theorem Run.on_subset (h : Run d changes d') (hno : ∀ l, .install x l ∉ changes) :
    ∀ l ∈ d'.listeners.on x, l ∈ d.listeners.on x := by
  induction h with
  | refl => exact fun l hl => hl
  | @tail changes c d' d'' h hc ih =>
    have hlast : ∀ l ∈ d''.listeners.on x, l ∈ d'.listeners.on x := by
      cases hc with
      | edit _ => exact fun l hl => hl
      | install hid l =>
        rw [ListenerStore.on_install_of_ne]
        · exact fun l hl => hl
        · rintro rfl
          exact hno l (by simp)
      | purge ids =>
        rw [ListenerStore.on_purge]
        split
        · exact fun l hl => absurd hl List.not_mem_nil
        · exact fun l hl => hl
    exact fun l hl => ih (fun l hl => hno l (List.mem_append_left _ hl)) l (hlast l hl)

/-- A node that is taken away was there until then, and nobody listens to it afterwards. -/
theorem Run.exists_removal (h : Run d changes d') (hd : d.tree.Whole) (hx : d.tree.isElement x = true) (hmem : x ∈ taken changes)
    (hfew : ((taken changes).map (·.slot)).count x.slot < 2 ^ 32) :
    ∃ before gone after d₁, changes = before ++ .edit gone :: after ∧ x ∈ gone ∧ x ∉ taken before ∧ x ∉ taken after ∧
      Run d before d₁ ∧ d₁.tree.isElement x = true ∧ (∀ l, .install x l ∉ after) ∧
      ∀ l ∈ d'.listeners.on x, l ∈ d₁.listeners.on x := by
  have hused := hd.wellFormed.inUse_of_isElement hx
  obtain ⟨gone, hc, hxg⟩ := mem_taken.1 hmem
  obtain ⟨before, after, rfl⟩ := List.append_of_mem hc
  obtain ⟨d₁, d₂, hbefore, hmade, hafter, hfirst⟩ := h.exists_before hd hused hfew
  obtain ⟨top, t, hedit, rfl⟩ : ∃ top t, d₁.tree.Edit top gone t ∧ d₂ = { d₁ with tree := t } := by
    cases hmade with
    | edit hedit => exact ⟨_, _, hedit, rfl⟩
  have hd₁ := (hbefore.kept hd).whole
  have hnot := hfirst ((hedit.edited hd₁).taken x hxg).1.1
  -- later changes find the handle taken away
  have hlater : ∀ {more : List Change} {c : Change} {rest : List Change}, after = more ++ c :: rest →
      ∃ d₃ d₄, Run d (before ++ .edit gone :: more) d₃ ∧ Makes d₃ c d₄ ∧ d₃.tree.isLive x ≠ true := by
    rintro more c rest rfl
    have hsplit : before ++ .edit gone :: (more ++ c :: rest) = (before ++ .edit gone :: more) ++ c :: rest := by simp
    rw [hsplit] at h hfew
    obtain ⟨d₃, d₄, hrun, hc, -, hlive⟩ := h.exists_before hd hused hfew
    exact ⟨d₃, d₄, hrun, hc, fun hl => hlive hl (mem_taken.2 ⟨gone, by simp, hxg⟩)⟩
  have hinstall : ∀ l, .install x l ∉ after := fun l hl => by
    obtain ⟨more, rest, he⟩ := List.append_of_mem hl
    obtain ⟨d₃, d₄, hrun, hc, hdead⟩ := hlater he
    cases hc with
    | install hid _ => exact hdead ((hrun.kept hd).whole.wellFormed.inUse_of_isElement hid).1
  refine ⟨before, gone, after, d₁, rfl, hxg, hnot, fun ha => ?_, hbefore, ?_, hinstall, hafter.on_subset hinstall⟩
  · obtain ⟨gone', hc, hxg'⟩ := mem_taken.1 ha
    obtain ⟨more, rest, he⟩ := List.append_of_mem hc
    obtain ⟨d₃, d₄, hrun, hc, hdead⟩ := hlater he
    cases hc with
    | edit hedit' => exact hdead ((hedit'.edited (hrun.kept hd).whole).taken x hxg').1.1
  · rw [hbefore.isElement_eq hd hused hnot, hx]

end Document

end ViewBinding

/-! What the history of a document says of its listeners: those that have been installed and whose installation has not
been undone are there, the one that was installed last at the end. -/
namespace ViewBinding.Document

variable {d d' : Document} {changes more : List Change} {id : NodeId} {l : Listener}

/-- Whether a change undoes the installation of a listener: another one takes its place, or all go with the node. -/
def Change.undoes (id : NodeId) (l : Listener) : Change → Bool
  | .edit _ => false
  | .install other new => other == id && ListenerStore.sameSlot l new
  | .purge ids => ids.contains id

/-- The listeners that changes install on a node and do not undo, in the order of their installation. -/
def lasting (id : NodeId) : List Change → List Listener
  | [] => []
  | .install other l :: rest =>
    if other = id ∧ rest.any (·.undoes id l) = false then l :: lasting id rest else lasting id rest
  | .edit _ :: rest => lasting id rest
  | .purge _ :: rest => lasting id rest

theorem install_mem_of_mem_lasting (h : l ∈ lasting id changes) : .install id l ∈ changes := by
  induction changes with
  | nil => cases h
  | cons c rest ih =>
    cases c with
    | edit gone => exact List.mem_cons_of_mem _ (ih h)
    | purge ids => exact List.mem_cons_of_mem _ (ih h)
    | install other new =>
      rw [lasting] at h
      split at h
      · next hlast =>
        rcases List.mem_cons.1 h with rfl | h
        · exact hlast.1 ▸ List.mem_cons_self
        · exact List.mem_cons_of_mem _ (ih h)
      · exact List.mem_cons_of_mem _ (ih h)

/-- Of the listeners of one owner for one purpose only one lasts. -/
theorem nodup_lasting (id : NodeId) (changes : List Change) : ((lasting id changes).map fun l => (l.owner, l.slot)).Nodup := by
  induction changes with
  | nil => exact List.nodup_nil
  | cons c rest ih =>
    cases c with
    | edit gone => exact ih
    | purge ids => exact ih
    | install other l =>
      rw [lasting]
      split
      · next hlast =>
        refine List.nodup_cons.2 ⟨fun hmem => ?_, ih⟩
        -- a second listener for the same purpose would have taken the place of this one
        obtain ⟨new, hnew, hsame⟩ := List.mem_map.1 hmem
        obtain ⟨howner, hslot⟩ := Prod.mk.inj hsame
        have hnone := List.any_eq_false.1 hlast.2 _ (install_mem_of_mem_lasting hnew)
        simp [Change.undoes, ListenerStore.sameSlot, howner, hslot] at hnone
      · exact ih

/-- One more change undoes what it undoes, and its own listener comes last. -/
theorem lasting_append (id : NodeId) (changes : List Change) (c : Change) :
    lasting id (changes ++ [c]) = (lasting id changes).filter (fun l => !c.undoes id l) ++ lasting id [c] := by
  induction changes with
  | nil => rfl
  | cons first rest ih =>
    cases first with
    | edit gone => exact ih
    | purge ids => exact ih
    | install other l =>
      rw [List.cons_append, lasting, lasting, List.any_append, List.any_cons, List.any_nil, Bool.or_false, ih]
      by_cases hold : other = id ∧ rest.any (·.undoes id l) = false
      · rw [if_pos hold]
        cases hc : c.undoes id l with
        | true => simp [hc]
        | false => simp [hc, hold]
      · rw [if_neg hold, if_neg fun h => hold ⟨h.1, (Bool.or_eq_false_iff.1 h.2).1⟩]

/-- From an empty store on, the listeners on a node are those that last. -/
theorem Run.on_eq (h : Run d changes d') (hd : d.listeners = .empty) (id : NodeId) : d'.listeners.on id = lasting id changes := by
  induction h with
  | refl => rw [hd, ListenerStore.on_empty, lasting]
  | tail h hc ih =>
    rw [lasting_append, ← ih]
    cases hc with
    | edit h => simp [Change.undoes, lasting]
    | @install other hother l =>
      by_cases he : other = id
      · subst he
        rw [ListenerStore.on_install_self]
        simp [ListenerStore.reinstalled, Change.undoes, lasting]
      · rw [ListenerStore.on_install_of_ne _ (Ne.symm he)]
        simp [Change.undoes, lasting, he, beq_eq_false_iff_ne.2 he]
    | purge ids =>
      rw [ListenerStore.on_purge]
      by_cases hin : id ∈ ids <;> simp [Change.undoes, lasting, hin]

/-- Those of them that one owner has for an event. -/
def lastingFor (owner event : String) (changes : List Change) (id : NodeId) : List Listener :=
  (lasting id changes).filter fun l => l.owner == owner && l.event == event

theorem nodup_lastingFor (owner event : String) (changes : List Change) (id : NodeId) :
    ((lastingFor owner event changes id).map (·.slot)).Nodup := by
  have hall := List.pairwise_map.1 (nodup_lasting id changes)
  refine List.pairwise_map.2 ((hall.sublist List.filter_sublist).imp_of_mem fun hl hm hne he => hne ?_)
  simp only [lastingFor, List.mem_filter, Bool.and_eq_true, beq_iff_eq] at hl hm
  exact Prod.ext (hl.2.1.trans hm.2.1.symm) he

/-- What lasts on different nodes is told apart by the nodes. -/
theorem nodup_flatMap_lastingFor (owner event : String) (changes : List Change) {way : List NodeId} (h : way.Nodup) :
    ((way.flatMap fun id => (lastingFor owner event changes id).map (id, ·)).map fun m => (m.1, m.2.slot)).Nodup := by
  rw [List.map_flatMap]
  refine List.nodup_flatMap.2 ⟨fun id _ => ?_, h.imp fun hne => List.disjoint_left.2 fun x hx hx' => ?_⟩
  · refine List.Nodup.of_map Prod.snd ?_
    simpa [Function.comp_def] using nodup_lastingFor owner event changes id
  · simp only [List.map_map, List.mem_map] at hx hx'
    obtain ⟨l, -, rfl⟩ := hx
    obtain ⟨l', -, he⟩ := hx'
    exact hne (Prod.mk.inj he).1.symm

end ViewBinding.Document
