import ViewBinding.Proofs.Document.Deeds
import ViewBinding.Proofs.Render.ListsOfPass
import ViewBinding.Proofs.Render.Moves

/-! What becomes of the attributes of an element in a pass. An element whose attribute entries keep clear of each other and
of its bindings is tended: whatever else the pass does, its bindings stay, and each attribute that it binds stays or shows
its entry. -/
namespace ViewBinding

open ViewBinding.Tree Document

namespace View

/-- What an entry shows of a value: what its pipe makes of the text, or the text itself; without a pipe nothing of `false`. -/
def ShownAs (v : View) (h : Heap) (pipe : Option String) (value : Value) (shown : Option String) : Prop :=
  match pipe with
  | some name => ∃ text, v.pipes.apply name (h.display value) = .ok text ∧ shown = some text
  | none => shown = if isFalse value then none else some (h.display value)

/-- Between two states of a pass an entry has been evaluated, and in the second one an attribute shows it. -/
def Shows (v : View) (b : Binding) (p q : Pass) (x : NodeId) (target : String) : Prop :=
  ∃ m : Pass, p.Moves m ∧ (m.evaluated b.expression v.scope).Moves q ∧
    v.ShownAs (evaluate b.expression v.scope m.heap).2 b.pipe
      ((evaluate b.expression v.scope m.heap).1.toOption.getD (.string "")) (q.tree.attr? x target)

/--
An element without live properties to write. No two of its attribute entries have the same target, and none of them writes
the mark of a selected option or a binding.
-/
structure Untangled (v : View) (t : Tree) (x : NodeId) : Prop where
  unwritten : t.attr? x (v.attributeName .value) = none
  apart : (v.entriesAt .attr t x).Pairwise fun b b' => b.target.map Text.asciiLower ≠ b'.target.map Text.asciiLower
  free : ∀ b ∈ v.entriesAt .attr t x, ∀ target ∈ b.target, Text.asciiLower target ≠ "selected" ∧
    ∀ kind, Text.asciiLower target ≠ Text.asciiLower (v.attributeName kind)

instance (property : BindingKind → Prop) [DecidablePred property] : Decidable (∀ kind, property kind) :=
  decidable_of_iff (∀ kind ∈ [BindingKind.attr, .content, .value, .event, .foreach], property kind)
    ⟨fun h kind => h kind (by cases kind <;> simp), fun h kind _ => h kind⟩

instance (v : View) (t : Tree) (x : NodeId) : Decidable (v.Untangled t x) :=
  decidable_of_iff (t.attr? x (v.attributeName .value) = none ∧
    ((v.entriesAt .attr t x).Pairwise fun b b' => b.target.map Text.asciiLower ≠ b'.target.map Text.asciiLower) ∧
    ∀ b ∈ v.entriesAt .attr t x, ∀ target ∈ b.target, Text.asciiLower target ≠ "selected" ∧
      ∀ kind, Text.asciiLower target ≠ Text.asciiLower (v.attributeName kind))
    ⟨fun h => ⟨h.1, h.2.1, h.2.2⟩, fun h => ⟨h.unwritten, h.apart, h.free⟩⟩

/-- An untangled element that is not a template. -/
structure Steady (v : View) (t : Tree) (x : NodeId) : Prop extends Untangled v t x where
  unlisted : t.attr? x (v.attributeName .foreach) = none

/-- The bindings of a node are the same in two trees. -/
def SameBindings (v : View) (t t' : Tree) (x : NodeId) : Prop :=
  ∀ kind, t'.attr? x (v.attributeName kind) = t.attr? x (v.attributeName kind)

/-- The bindings of a node are the same, and its bound attributes too unless they show their entries; those in `bound` do. -/
structure Tended (v : View) (bound : Binding → Prop) (p q : Pass) (x : NodeId) : Prop where
  bindings : v.SameBindings p.tree q.tree x
  targets : ∀ b ∈ v.entriesAt .attr p.tree x, ∀ target ∈ b.target,
    q.tree.attr? x target = p.tree.attr? x target ∨ v.Shows b p q x target
  shown : ∀ b ∈ v.entriesAt .attr p.tree x, bound b → ∀ target ∈ b.target, v.Shows b p q x target

/-- What a part of a pass does to the steady elements in `A` that it leaves in place. It has evaluated the entries in `bound`. -/
structure Tends (v : View) (A : NodeId → Prop) (bound : NodeId → Binding → Prop) (p q : Pass) : Prop where
  moves : p.Moves q
  run : ∃ changes, p.document.Run changes q.document ∧ ∀ x, A x → p.tree.InUse x → v.Steady p.tree x →
    x ∉ taken changes → v.Tended (bound x) p q x

/-- No entry at all. -/
def nothing : NodeId → Binding → Prop := fun _ _ => False

variable {v : View} {A A' : NodeId → Prop} {bound bound' : NodeId → Binding → Prop} {p q r : Pass} {x id : NodeId}
  {b : Binding} {target : String} {t t' : Tree}

theorem SameBindings.entriesAt (h : v.SameBindings t t' x) (kind : BindingKind) :
    v.entriesAt kind t' x = v.entriesAt kind t x := by
  rw [View.entriesAt, h kind, View.entriesAt]

theorem SameBindings.trans {t'' : Tree} (h : v.SameBindings t t' x) (h' : v.SameBindings t' t'' x) : v.SameBindings t t'' x :=
  fun kind => (h' kind).trans (h kind)

theorem SameBindings.steady (h : v.SameBindings t t' x) (hx : v.Steady t x) : v.Steady t' x where
  unwritten := (h .value).trans hx.unwritten
  apart := h.entriesAt .attr ▸ hx.apart
  free := h.entriesAt .attr ▸ hx.free
  unlisted := (h .foreach).trans hx.unlisted

/-- What has been shown before is shown if the attribute stays. -/
theorem Shows.after (h : v.Shows b p q x target) (hqr : q.Moves r) (hattr : r.tree.attr? x target = q.tree.attr? x target) :
    v.Shows b p r x target := by
  obtain ⟨m, hpm, hmq, hshown⟩ := h
  exact ⟨m, hpm, hmq.trans hqr, hattr ▸ hshown⟩

theorem Shows.before (hpq : p.Moves q) (h : v.Shows b q r x target) : v.Shows b p r x target := by
  obtain ⟨m, hqm, hmr, hshown⟩ := h
  exact ⟨m, hpq.trans hqm, hmr, hshown⟩

namespace Tended

/-- Nothing happens to a steady element whose attributes stay, apart from the mark of a selected option. -/
theorem of_attr? (hx : v.Steady p.tree x)
    (h : ∀ name, Text.asciiLower name ≠ "selected" → q.tree.attr? x name = p.tree.attr? x name) :
    v.Tended (fun _ => False) p q x where
  bindings kind := h _ (asciiLower_attributeName_ne v kind "selected" (by decide))
  targets b hb target htarget := .inl (h target (hx.free b hb target htarget).1)
  shown _ _ := False.elim

theorem trans {B B' : Binding → Prop} (h : v.Tended B p q x) (h' : v.Tended B' q r x) (hpq : p.Moves q) (hqr : q.Moves r) :
    v.Tended (fun b => B b ∨ B' b) p r x where
  bindings := h.bindings.trans h'.bindings
  targets b hb target htarget := by
    rcases h'.targets b (h.bindings.entriesAt .attr ▸ hb) target htarget with hstays | hshows
    · rcases h.targets b hb target htarget with hfirst | hshows
      · exact .inl (hstays.trans hfirst)
      · exact .inr (hshows.after hqr hstays)
    · exact .inr (hshows.before hpq)
  shown b hb hbound target htarget := by
    have hb' : b ∈ v.entriesAt .attr q.tree x := h.bindings.entriesAt .attr ▸ hb
    rcases h'.targets b hb' target htarget with hstays | hshows
    · rcases hbound with hbound | hbound
      · exact (h.shown b hb hbound target htarget).after hqr hstays
      · exact (h'.shown b hb' hbound target htarget).before hpq
    · exact hshows.before hpq

end Tended

namespace Tends

theorem whole (h : Tends v A bound p q) (hp : p.tree.Whole) : q.tree.Whole := by
  obtain ⟨changes, hrun, -⟩ := h.run
  exact (hrun.kept hp).whole

theorem mono (h : Tends v A bound p q) (hA : ∀ x, A' x → A x)
    (hbound : ∀ x b, A' x → b ∈ v.entriesAt .attr p.tree x → bound' x b → bound x b) : Tends v A' bound' p q := by
  obtain ⟨changes, hrun, hall⟩ := h.run
  refine ⟨h.moves, changes, hrun, fun x hx hused hsteady hstays => ?_⟩
  have htended := hall x (hA x hx) hused hsteady hstays
  exact ⟨htended.bindings, htended.targets, fun b hb hb' => htended.shown b hb (hbound x b hx hb hb')⟩

theorem mono_nothing (h : Tends v A bound p q) : Tends v A nothing p q := h.mono (fun _ => id) fun _ _ _ _ => False.elim

/-- Only the elements count that are in use and steady at the start. -/
theorem of_watched (h : Tends v (fun x => A x ∧ p.tree.InUse x ∧ v.Steady p.tree x) bound p q) : Tends v A bound p q := by
  obtain ⟨changes, hrun, hall⟩ := h.run
  exact ⟨h.moves, changes, hrun, fun x hx hused hsteady => hall x ⟨hx, hused, hsteady⟩ hused hsteady⟩

/-- What has the same bindings afterwards is tended further. -/
theorem trans (hp : p.tree.Whole) (h : Tends v A bound p q)
    (h' : Tends v (fun x => A x ∧ v.SameBindings p.tree q.tree x) bound' q r) :
    Tends v A (fun x b => bound x b ∨ bound' x b) p r := by
  obtain ⟨changes, hrun, hall⟩ := h.run
  obtain ⟨more, hmore, hall'⟩ := h'.run
  refine ⟨h.moves.trans h'.moves, changes ++ more, hrun.trans hmore, fun x hx hused hsteady hstays => ?_⟩
  rw [taken_append, List.mem_append, not_or] at hstays
  have hfirst := hall x hx hused hsteady hstays.1
  have hsecond := hall' x ⟨hx, hfirst.bindings⟩ (hrun.inUse hp hused hstays.1) (hfirst.bindings.steady hsteady) hstays.2
  exact hfirst.trans hsecond h.moves h'.moves

theorem trans_nothing (hp : p.tree.Whole) (h : Tends v A bound p q)
    (h' : Tends v (fun x => A x ∧ v.SameBindings p.tree q.tree x) nothing q r) : Tends v A bound p r :=
  (h.trans hp h').mono (fun _ => id) fun _ _ _ _ => .inl

/-- What leaves the tree alone tends every element. -/
theorem of_tree_eq (hmoves : p.Moves q) (hrun : ∃ changes, p.document.Run changes q.document) (h : q.tree = p.tree) :
    Tends v A nothing p q := by
  obtain ⟨changes, hrun⟩ := hrun
  exact ⟨hmoves, changes, hrun, fun x _ _ hsteady _ => .of_attr? hsteady fun name _ => by rw [h]⟩

theorem refl (v : View) (A : NodeId → Prop) (p : Pass) : Tends v A nothing p p := .of_tree_eq .refl ⟨[], .refl⟩ rfl

theorem evaluated (v : View) (A : NodeId → Prop) (p : Pass) (source : String) (scope : Scope) :
    Tends v A nothing p (p.evaluated source scope) :=
  .of_tree_eq (.single (.evaluate p source scope)) ⟨[], .refl⟩ rfl

/-- An edit tends what it tends among the elements that stay. -/
theorem of_edit (hp : p.tree.Whole) {top : NodeId} {gone : List NodeId} (hedit : p.tree.Edit top gone t)
    (h : ∀ x, A x → p.tree.InUse x → v.Steady p.tree x → t.InUse x → v.Tended (bound x) p (p.withTree t) x) :
    Tends v A bound p (p.withTree t) := by
  refine ⟨.single (.change p _ p.copies), [.edit gone], .single (.edit hedit), fun x hx hused hsteady hstays => ?_⟩
  rw [taken_edit] at hstays
  exact h x hx hused hsteady ((hedit.edited hp).stays x hused hstays).1

/-- Writing an element, or what is in it, tends the others. -/
theorem rewrite (hp : p.tree.Whole) (h : p.tree.Rewrite id t) (hid : ¬ A id) : Tends v A nothing p (p.withTree t) := by
  obtain ⟨gone, hedit⟩ := h.edit hp.wellFormed
  refine .of_edit hp hedit fun x hx hused hsteady hused' => .of_attr? hsteady fun name hname => ?_
  exact h.attr? hp hused hused' (fun he => hid (he ▸ hx)) hname

/-- New siblings and removals tend what stays. -/
theorem relist {up : NodeId} (hp : p.tree.Whole) (h : p.tree.Relist up t) : Tends v A nothing p (p.withTree t) := by
  obtain ⟨gone, hedit⟩ := h.edit hp.wellFormed
  refine .of_edit hp hedit fun x _ hused hsteady hused' => .of_attr? hsteady fun name _ => ?_
  rw [attr?, attr?, Pass.tree_withTree, (h.kept hp hused hused').2]

end Tends

/-! The parts of a pass that bring elements up to date. -/

open Render

variable {scope : Scope}

/-- Parts one after the other. Each of them finds the bindings of what is tended as they were at the start. -/
theorem tends_forM {α : Type} {ys : List α} {f : α → Render Unit} {B : α → NodeId → Binding → Prop} (hp : p.tree.Whole)
    (h : ∀ y ∈ ys, ∀ (q r : Pass) (A' : NodeId → Prop), q.tree.Whole → (∀ x, A' x → A x ∧ v.SameBindings p.tree q.tree x) →
      (f y).exec q = (.ok (), r) → Tends v A' (B y) q r)
    (hq : (ys.forM f).exec p = (.ok (), q)) : Tends v A (fun x b => ∃ y ∈ ys, B y x b) p q := by
  suffices hall : ∀ (s : Pass) (A' : NodeId → Prop), s.tree.Whole → (∀ x, A' x → A x ∧ v.SameBindings p.tree s.tree x) →
      (ys.forM f).exec s = (.ok (), q) → Tends v A' (fun x b => ∃ y ∈ ys, B y x b) s q from
    hall p A hp (fun x hx => ⟨hx, fun _ => rfl⟩) hq
  clear hq
  induction ys with
  | nil =>
    intro s A' _ _ hs
    cases hs
    exact (Tends.refl v A' q).mono (fun _ => id) (by simp [nothing])
  | cons y ys ih =>
    intro s A' hs hA hq
    obtain ⟨_, r, hy, hys⟩ := exists_of_exec_bind hq
    have hfirst := h y (by simp) s r A' hs hA hy
    have hrest := ih (fun z hz => h z (by simp [hz])) r (fun x => A' x ∧ v.SameBindings s.tree r.tree x) (hfirst.whole hs)
      (fun x hx => ⟨(hA x hx.1).1, (hA x hx.1).2.trans hx.2⟩) hys
    refine (hfirst.trans hs hrest).mono (fun _ => id) fun x b _ _ hb => ?_
    simpa using hb

theorem tends_forM_nothing {α : Type} {ys : List α} {f : α → Render Unit} (hp : p.tree.Whole)
    (h : ∀ y ∈ ys, ∀ (q r : Pass) (A' : NodeId → Prop), q.tree.Whole → (∀ x, A' x → A x ∧ v.SameBindings p.tree q.tree x) →
      (f y).exec q = (.ok (), r) → Tends v A' nothing q r)
    (hq : (ys.forM f).exec p = (.ok (), q)) : Tends v A nothing p q :=
  (tends_forM hp h hq).mono_nothing

theorem exec_piped_ok {pipe : Option String} {value : Value} {shown : Option String}
    (h : (v.piped pipe value).exec p = (.ok shown, q)) :
    q = p ∧ ((pipe = none ∧ shown = none) ∨
      ∃ name text, pipe = some name ∧ v.pipes.apply name (p.heap.display value) = .ok text ∧ shown = some text) := by
  rw [exec_piped] at h
  cases pipe with
  | none =>
    cases h
    exact ⟨rfl, .inl ⟨rfl, rfl⟩⟩
  | some name =>
    cases happly : v.pipes.apply name (p.heap.display value) with
    | error e =>
      simp only [pipedText, happly] at h
      cases h
    | ok text =>
      simp only [pipedText, happly] at h
      cases h
      exact ⟨rfl, .inr ⟨name, text, rfl, happly, rfl⟩⟩

/-- An attribute entry that is bound has been evaluated, and one attribute is written as it says. -/
theorem exec_bindAttribute_ok {target : String} (htarget : b.target = some target)
    (h : (v.bindAttribute scope id b).exec p = (.ok (), q)) :
    ∃ t, q = (p.evaluated b.expression scope).withTree t ∧
      (p.tree.WellFormed → v.ShownAs (evaluate b.expression scope p.heap).2 b.pipe
        ((evaluate b.expression scope p.heap).1.toOption.getD (.string "")) (t.attr? id target)) ∧
      ((∃ text, p.tree.setAttr id target text = .ok t) ∨ p.tree.removeAttr id target = .ok t) := by
  unfold bindAttribute at h
  rw [htarget] at h
  simp only at h
  obtain ⟨value, m, hvalue, h⟩ := exists_of_exec_bind h
  rw [exec_evaluateOrBlank] at hvalue
  obtain ⟨rfl, rfl⟩ : (evaluate b.expression scope p.heap).1.toOption.getD (.string "") = value ∧
      p.evaluated b.expression scope = m := by simpa using hvalue
  obtain ⟨shown, m', hshown, h⟩ := exists_of_exec_bind h
  obtain ⟨rfl, ⟨hpipe, rfl⟩ | ⟨name, text, hpipe, happly, rfl⟩⟩ := exec_piped_ok hshown
  · simp only at h
    split at h
    · next hfalse =>
      obtain ⟨t, ht, rfl⟩ := View.exec_edit_ok h
      refine ⟨t, rfl, fun hw => ?_, .inr ht⟩
      simpa [ShownAs, hpipe, hfalse] using attr?_removeAttr_self hw ht
    · next hfalse =>
      rw [exec_bind, exec_view] at h
      obtain ⟨t, ht, rfl⟩ := View.exec_edit_ok h
      refine ⟨t, rfl, fun hw => ?_, .inl ⟨_, ht⟩⟩
      simpa [ShownAs, hpipe, hfalse, Pass.evaluated] using attr?_setAttr_self hw ht
  · obtain ⟨t, ht, rfl⟩ := View.exec_edit_ok h
    refine ⟨t, rfl, fun hw => ?_, .inl ⟨text, ht⟩⟩
    simpa [ShownAs, hpipe] using ⟨text, happly, attr?_setAttr_self hw ht⟩

/-- A content entry that is bound has been evaluated, and what is in the element is replaced. -/
theorem exec_bindContentEntry_ok (h : (v.bindContentEntry scope id b).exec p = (.ok (), q)) :
    ∃ t markup, p.tree.setInnerMarkup id markup = .ok t ∧ q = (p.evaluated b.expression scope).withTree t := by
  unfold bindContentEntry at h
  obtain ⟨value, m, hvalue, h⟩ := exists_of_exec_bind h
  rw [exec_evaluateOrBlank] at hvalue
  obtain rfl : p.evaluated b.expression scope = m := congrArg Prod.snd hvalue
  obtain ⟨shown, m', hshown, h⟩ := exists_of_exec_bind h
  obtain ⟨rfl, -⟩ := exec_piped_ok hshown
  rw [exec_bind, exec_view] at h
  obtain ⟨t, ht, rfl⟩ := View.exec_edit_ok h
  exact ⟨t, _, ht, rfl⟩

/-- An entry of a live property that is bound has been evaluated, and the property is written if it is known. -/
theorem exec_bindProperty_ok (h : (bindProperty scope id b).exec p = (.ok (), q)) :
    q = p ∨ ∃ (property : Property) (t : Tree),
      property.write (evaluate b.expression scope p.heap).2 p.tree id
        ((evaluate b.expression scope p.heap).1.toOption.getD (.string "")) = .ok t ∧
      q = (p.evaluated b.expression scope).withTree t := by
  unfold bindProperty at h
  split at h
  · cases h
    exact .inl rfl
  · obtain ⟨value, m, hvalue, h⟩ := exists_of_exec_bind h
    rw [exec_evaluateOrBlank] at hvalue
    obtain ⟨rfl, rfl⟩ : (evaluate b.expression scope p.heap).1.toOption.getD (.string "") = value ∧
        p.evaluated b.expression scope = m := by simpa using hvalue
    rw [exec_bind, exec_view] at h
    obtain ⟨t, ht, rfl⟩ := View.exec_edit_ok h
    exact .inr ⟨_, t, ht, rfl⟩

/-- Of the attribute entries of an untangled element only one has a given target. -/
theorem Untangled.eq_of_target {b' : Binding} {target' : String} (h : v.Untangled t x) (hb : b ∈ v.entriesAt .attr t x)
    (hb' : b' ∈ v.entriesAt .attr t x) (htarget : b.target = some target) (htarget' : b'.target = some target')
    (heq : Text.asciiLower target = Text.asciiLower target') : b = b' := by
  by_contra hne
  have hkey : b.target.map Text.asciiLower = b'.target.map Text.asciiLower := by
    rw [htarget, htarget', Option.map_some, Option.map_some, heq]
  obtain ⟨i, hi, rfl⟩ := List.getElem_of_mem hb
  obtain ⟨j, hj, rfl⟩ := List.getElem_of_mem hb'
  have hapart := List.pairwise_iff_getElem.1 h.apart
  rcases lt_trichotomy i j with hij | rfl | hij
  · exact hapart i j hi hj hij hkey
  · exact hne rfl
  · exact hapart j i hj hi hij hkey.symm

/-- Only the attribute of one entry is written, as the entry says. -/
theorem Tended.of_writes (hx : v.Steady p.tree x) (hb : b ∈ v.entriesAt .attr p.tree x) (htarget : b.target = some target)
    (hwrites : Writes p.tree q.tree fun y n => y = x ∧ n = Text.asciiLower target) (hshows : v.Shows b p q x target) :
    v.Tended (· = b) p q x where
  bindings kind := hwrites.attr? fun hw => (hx.free b hb target htarget).2 kind hw.2.symm
  targets b' hb' target' htarget' := by
    by_cases heq : Text.asciiLower target' = Text.asciiLower target
    · obtain rfl := hx.toUntangled.eq_of_target hb' hb htarget' htarget heq
      obtain rfl : target' = target := Option.some.inj (htarget'.symm.trans htarget)
      exact .inr hshows
    · exact .inl (hwrites.attr? fun hw => heq hw.2)
  shown b' _ he target' htarget' := by
    subst he
    obtain rfl : target' = target := Option.some.inj (htarget'.symm.trans htarget)
    exact hshows

/-- Writing a bound attribute of an element shows its entry and tends the element. -/
theorem tends_bindAttribute (hp : p.tree.Whole) (hown : A id → scope = v.scope ∧ b ∈ v.entriesAt .attr p.tree id)
    (h : (v.bindAttribute scope id b).exec p = (.ok (), q)) : Tends v A (fun x b' => x = id ∧ b' = b) p q := by
  cases htarget : b.target with
  | none =>
    obtain rfl : p = q := by
      unfold bindAttribute at h
      rw [htarget] at h
      cases h
      rfl
    obtain ⟨moves, changes, hrun, hall⟩ := Tends.refl v A p
    refine ⟨moves, changes, hrun, fun x hx hused hsteady hstays => ?_⟩
    have htended := hall x hx hused hsteady hstays
    refine ⟨htended.bindings, htended.targets, ?_⟩
    rintro _ _ ⟨-, rfl⟩ target ht
    rw [htarget] at ht
    cases ht
  | some target =>
    obtain ⟨t, rfl, hshown, hwritten⟩ := exec_bindAttribute_ok htarget h
    have hw := hp.wellFormed
    have hwrites : Writes p.tree t fun x n => x = id ∧ n = Text.asciiLower target := by
      rcases hwritten with ⟨text, ht⟩ | ht
      · exact writes_setAttr hw ht
      · exact writes_removeAttr hw ht
    have hmove : (p.evaluated b.expression scope).Moves ((p.evaluated b.expression scope).withTree t) :=
      .single (.change _ _ _)
    have hedit : p.tree.Edit id [] t := .write hwrites
    refine ⟨.head (.evaluate p b.expression scope) hmove, [.edit []], .single (.edit hedit), ?_⟩
    intro x hx hused hsteady _
    by_cases he : x = id
    · subst he
      obtain ⟨rfl, hb⟩ := hown hx
      have htended := Tended.of_writes (q := (p.evaluated b.expression v.scope).withTree t) hsteady hb htarget hwrites
        ⟨p, .refl, hmove, hshown hw⟩
      exact ⟨htended.bindings, htended.targets, fun b' hb' he => htended.shown b' hb' he.2⟩
    · have htended : v.Tended (fun _ => False) p ((p.evaluated b.expression scope).withTree t) x :=
        .of_attr? hsteady fun name _ => hwrites.attr? fun hw => he hw.1
      exact ⟨htended.bindings, htended.targets, fun b' hb' hbound => absurd hbound.1 he⟩

theorem tends_bindAttributes (hp : p.tree.Whole) (hown : A id → scope = v.scope)
    (h : (v.bindAttributes scope id).exec p = (.ok (), q)) : Tends v A (fun x _ => x = id) p q := by
  unfold bindAttributes at h
  rw [exec_bind_ok (exec_tree p)] at h
  have hall := tends_forM (A := A) (B := fun b x b' => x = id ∧ b' = b) hp (fun b hb r s A' hr hA hs => by
    refine tends_bindAttribute hr (fun hid => ?_) hs
    exact ⟨hown (hA id hid).1, (hA id hid).2.entriesAt .attr ▸ hb⟩) h
  refine hall.mono (fun _ hx => hx) ?_
  rintro x b _ hb rfl
  exact ⟨b, hb, rfl, rfl⟩

theorem tends_bindContentEntry (hp : p.tree.Whole) (h : (v.bindContentEntry scope id b).exec p = (.ok (), q)) :
    Tends v A nothing p q := by
  obtain ⟨t, markup, ht, rfl⟩ := exec_bindContentEntry_ok h
  refine .trans_nothing hp (.evaluated v A p b.expression scope) ?_
  rcases Rewrite.of_setInnerMarkup ht with rfl | hrewrite
  · exact .of_tree_eq (.single (.change _ _ _)) ⟨[], .refl⟩ rfl
  · obtain ⟨gone, hedit⟩ := hrewrite.edit hp.wellFormed
    refine .of_edit hp hedit fun x _ hused hsteady hused' => .of_attr? hsteady fun name _ => ?_
    have hsame : t.element? x = p.tree.element? x := element?_setInnerMarkup hp ht hused hused'
    rw [Pass.tree_withTree, Pass.tree_evaluated, attr?, hsame, attr?]

theorem tends_bindContent (hp : p.tree.Whole) (h : (v.bindContent scope id).exec p = (.ok (), q)) :
    Tends v A nothing p q := by
  unfold bindContent at h
  rw [exec_bind_ok (exec_tree p)] at h
  exact tends_forM_nothing hp (fun b _ r s A' hr _ hb => tends_bindContentEntry hr hb) h

theorem tends_bindProperty (hp : p.tree.Whole) (hid : ¬ A id) (h : (bindProperty scope id b).exec p = (.ok (), q)) :
    Tends v A nothing p q := by
  rcases exec_bindProperty_ok h with rfl | ⟨property, t, ht, rfl⟩
  · exact .refl v A q
  · refine .trans_nothing hp (.evaluated v A p b.expression scope) ?_
    rcases Rewrite.of_write _ ht with rfl | hrewrite
    · exact .of_tree_eq (.single (.change _ _ _)) ⟨[], .refl⟩ rfl
    · exact .rewrite hp hrewrite fun hx => hid hx.1

/-- An element that is tended has no live properties to write. -/
theorem tends_bindProperties (hp : p.tree.Whole) (h : (v.bindProperties scope id).exec p = (.ok (), q)) :
    Tends v A nothing p q := by
  unfold bindProperties at h
  rw [exec_bind_ok (exec_tree p)] at h
  refine .of_watched ?_
  by_cases hid : A id ∧ p.tree.InUse id ∧ v.Steady p.tree id
  · have hnone : v.entriesAt .value p.tree id = [] := by
      rw [entriesAt, hid.2.2.unwritten]
      rfl
    rw [hnone] at h
    cases h
    exact .refl v _ p
  · exact tends_forM_nothing hp (fun b _ r s A' hr hA hb => tends_bindProperty hr (fun hx => hid (hA id hx).1) hb) h

/-- Bringing elements up to date shows the attribute entries of those that are tended. -/
theorem tends_sync {ids : List NodeId} (hp : p.tree.Whole) (hown : ∀ id ∈ ids, A id → scope = v.scope)
    (h : (v.sync scope ids).exec p = (.ok (), q)) : Tends v A (fun x _ => x ∈ ids) p q := by
  unfold sync at h
  obtain ⟨_, m, hattrs, h⟩ := exists_of_exec_bind h
  obtain ⟨_, m', hcontent, h⟩ := exists_of_exec_bind h
  have hfirst : Tends v A (fun x _ => x ∈ ids) p m := by
    have hall := tends_forM (A := A) (B := fun id x _ => x = id) hp (fun id hid r s A' hr hA hs =>
      tends_bindAttributes hr (fun hx => hown id hid (hA id hx).1) hs) hattrs
    exact hall.mono (fun _ hx => hx) fun x _ _ _ hx => ⟨x, hx, rfl⟩
  have hm := hfirst.whole hp
  have hsecond : Tends v (fun x => A x ∧ v.SameBindings p.tree m.tree x) nothing m m' :=
    tends_forM_nothing hm (fun id _ r s A' hr _ hs => tends_bindContent hr hs) hcontent
  refine .trans_nothing hp (.trans_nothing hp hfirst hsecond) ?_
  exact tends_forM_nothing (hsecond.whole hm) (fun id _ r s A' hr _ hs => tends_bindProperties hr hs) h

end View

end ViewBinding
