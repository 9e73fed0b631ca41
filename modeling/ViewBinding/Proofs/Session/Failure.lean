import ViewBinding.Proofs.Render.FailedPass
import ViewBinding.Proofs.Session.Lists

/-! Sessions after a pass that has failed. The copy that it was binding stays in the page, and no later pass gets
beyond it. -/
namespace ViewBinding

open Render View

namespace Tree

/-- The handles of all slots that hold a node or have held one. -/
def handles (t : Tree) : List NodeId :=
  (List.range t.slots.size).filterMap fun i => t.slots[i]?.map fun s => ⟨i, s.generation⟩

theorem mem_handles_of_isLive {t : Tree} {x : NodeId} (h : t.isLive x = true) : x ∈ t.handles := by
  obtain ⟨s, hs⟩ := Option.isSome_iff_exists.1 h
  obtain ⟨hslot, hgen⟩ := Option.filter_eq_some_iff.1 hs
  obtain ⟨hi, -⟩ := Array.getElem?_eq_some_iff.1 hslot
  refine List.mem_filterMap.2 ⟨x.slot, List.mem_range.2 hi, ?_⟩
  rw [hslot, Option.map_some, beq_iff_eq.1 hgen]

end Tree

namespace View

instance (v : View) (t : Tree) (x : NodeId) : Decidable (Tidy v t x) :=
  decidable_of_iff
    ((∀ b ∈ v.entriesAt .attr t x, b.target.all fun target => !v.marks.contains (Text.asciiLower target)) ∧
      ∀ b ∈ v.entriesAt .content t x, b.pipe.all fun name => (v.pipes.get? name).isSome)
    ⟨fun h => ⟨fun b hb target ht => by simpa [Option.mem_def.1 ht] using h.1 b hb,
        fun b hb name hn => by simpa [Option.mem_def.1 hn, Option.isSome_iff_ne_none] using h.2 b hb⟩,
      fun h => ⟨fun b hb => by
          cases ht : b.target with
          | none => rfl
          | some target => simpa using h.tame b hb target ht, fun b hb => by
          cases hn : b.pipe with
          | none => rfl
          | some name => simpa [Option.isSome_iff_ne_none] using h.known b hb name hn⟩⟩

end View

namespace Session

variable {σ : Type} {s s' s'' : Session σ} {name : String}

theorem Reached.orderly (h : s.Reached) (hneat : Neat s.model.view s.tree) (hm : s.tree.mutations < 2 ^ 32) :
    Orderly s.model.view s.pass :=
  { hneat with
    wellFormed := h.sound.wellFormed
    known := h.sound.copies hm
    nodup := h.sound.nodup
    roots := fun a ha => ⟨h.sound.roots hm a ha, h.sound.connected hm a ha⟩
    clear := h.sound.clear hm }

theorem Reached.mutations_le (h : s.Reached) (hsteps : Relation.ReflTransGen Step s s') :
    s.tree.mutations ≤ s'.tree.mutations := by
  have hlead : Pass.Leads 0 .all s.pass s'.pass := leads_of_steps hsteps h.sound.wellFormed (Nat.zero_le _)
  exact hlead.mutations_le

/-- A step of a session leaves a page spoiled. -/
theorem Step.spoiled {base e : NodeId} {K : NodeId → Prop} (hstep : Step s s')
    (h : Spoiled s.model.view base e K s.pass) (hbase : base ∈ s.model.view.roots)
    (hm : s'.tree.mutations < 2 ^ 32) : Spoiled s'.model.view base e K s'.pass := by
  cases hstep with
  | compute heap user cache =>
    have hlead : Pass.Leads (2 ^ 32) (sparing s.model.view K) s.pass
        { s.pass with heap := heap, cache := cache } := .of_eq h.wellFormed rfl rfl fun _ _ => rfl
    exact h.later (hlead.later hm) hm
  | @control t ht =>
    have hl : Tree.Later (sparing s.model.view K) s.tree t := by
      rcases ht with ⟨id, value, ht⟩ | ⟨id, flag, on, ht⟩
      · refine ((Tree.writes_setValue h.wellFormed ht).mono fun x n hx _ hn => ?_).later h.wellFormed
        exact ne_of_mem_marks hn (by decide) hx
      · refine ((Tree.writes_setFlag h.wellFormed ht).mono fun x n hx _ hn => ?_).later h.wellFormed
        exact ne_of_mem_marks hn (by cases flag <;> decide) hx.2
    have hlead : Pass.Leads (2 ^ 32) (sparing s.model.view K) s.pass (s.pass.withTree t) := .withTree hl
    exact h.later (hlead.later hm) hm
  | render => exact (h.render hbase hm).2

/-- A spoiled page stays spoiled, whatever a session does. -/
theorem spoiled_of_steps {base e : NodeId} {K : NodeId → Prop} (hs : s.Reached)
    (h : Spoiled s.model.view base e K s.pass) (hbase : base ∈ s.model.view.roots)
    (hsteps : Relation.ReflTransGen Step s s') (hm : s'.tree.mutations < 2 ^ 32) :
    Spoiled s'.model.view base e K s'.pass ∧ base ∈ s'.model.view.roots := by
  induction hsteps with
  | refl => exact ⟨h, hbase⟩
  | tail hsteps hstep ih =>
    obtain ⟨hspoiled, hmem⟩ := ih (((hs.steps hsteps).mutations_le (.single hstep)).trans_lt hm)
    exact ⟨hstep.spoiled hspoiled hmem hm, hstep.view_eq ▸ hmem⟩

/-- Once a pass over a neat page has failed for want of a pipe, no later pass succeeds. -/
theorem Reached.render_ne_ok (hs : s.Reached) (hneat : Neat s.model.view s.tree)
    (h : s.render = (.error (.unknownPipe name), s')) (hsteps : Relation.ReflTransGen Step s' s'')
    (hm : s''.render.2.tree.mutations < 2 ^ 32) : s''.render.1 ≠ .ok () := by
  have hstep : Step s s' := by
    have hr := Step.render s
    rwa [h] at hr
  have hs' := hs.step hstep
  have hle := (hs'.steps hsteps).mutations_le (.single (.render s''))
  have hm' := (hs'.mutations_le hsteps).trans_lt (hle.trans_lt hm)
  have hm₀ := (hs.mutations_le (.single hstep)).trans_lt hm'
  rcases hq : s.model.view.render.exec s.pass with ⟨result, q⟩
  rw [render_eq, hq] at h
  cases h
  obtain ⟨base, hbase, e, hspoiled⟩ := (hs.orderly hneat hm₀).spoiled_of_render hq hm'
  obtain ⟨hlast, hmem⟩ := spoiled_of_steps hs' hspoiled hbase hsteps (hle.trans_lt hm)
  exact (hlast.render hmem hm).1

theorem model_setModel (s : Session σ) (model : Value) : (s.setModel model).2.model = s.model := by
  obtain ⟨heap, h⟩ := s.exists_setModel model
  rw [h]
  rfl

theorem tree_setModel (s : Session σ) (model : Value) : (s.setModel model).2.tree = s.tree := by
  obtain ⟨heap, h⟩ := s.exists_setModel model
  rw [h]
  rfl

/-- After setting the model, a pass succeeds and shows the page that `page` says. -/
def Shows (s : Session σ) (model : Value) (page : String) : Prop :=
  ∃ s', (s.setModel model).2.render = (.ok (), s') ∧ s'.page.document.dump = page

/--
A pass that fails for want of a pipe spoils the passes after it. A later model is shown as it would have been before
only if it could not have been shown before.
-/
theorem Reached.failed_render_lasts (hs : s.Reached) (hneat : Neat s.model.view s.tree) {model : Value}
    (h : (s.setModel model).2.render = (.error (.unknownPipe name), s')) :
    (∀ s'', Relation.ReflTransGen Step s' s'' → s''.render.2.tree.mutations < 2 ^ 32 → s''.render.1 ≠ .ok ()) ∧
      ∀ next, (s'.setModel next).2.render.2.tree.mutations < 2 ^ 32 →
        ((∀ page, s.Shows next page → s'.Shows next page) ↔ ∀ page, ¬ s.Shows next page) := by
  have hneat' : Neat (s.setModel model).2.model.view (s.setModel model).2.tree := by
    rwa [model_setModel, tree_setModel]
  have hnever : ∀ s'', Relation.ReflTransGen Step s' s'' → s''.render.2.tree.mutations < 2 ^ 32 →
      s''.render.1 ≠ .ok () := fun s'' => (hs.steps (Steps.setModel .refl model)).render_ne_ok hneat' h
  refine ⟨hnever, fun next hm => ⟨fun himp page hshows => ?_, fun hnot page hshows => absurd hshows (hnot page)⟩⟩
  obtain ⟨t, ht, -⟩ := himp page hshows
  exact hnever _ (Steps.setModel .refl next) hm (by rw [ht])

/-- Two models: one with a list of two texts, and one with an empty list. -/
def twoModels : Value × Value × Heap :=
  let (items, h) := Heap.empty.newArray [.string "a", .string "b"]
  let (model, h) := h.newObject [("items", items)]
  let (empty, h) := h.newArray []
  let (next, h) := h.newObject [("items", empty)]
  (model, next, h)

/-- Whether a page has one root, and is neat. -/
def neat (v : View) (t : Tree) : Bool :=
  v.roots.length == 1 && v.roots.all (!t.hasAttr · (v.attributeName .foreach)) &&
    t.handles.all (fun x => decide (Tidy v t x)) && !v.marks.contains (Text.asciiLower v.options.hiddenAttribute)

theorem neat_of_check {v : View} {t : Tree} (h : neat v t = true) : Neat v t := by
  simp only [neat, Bool.and_eq_true, beq_iff_eq, List.all_eq_true, Bool.not_eq_true', decide_eq_true_eq] at h
  obtain ⟨⟨⟨hroots, hplain⟩, htidy⟩, hhidden⟩ := h
  obtain ⟨root, hroot⟩ := List.length_eq_one_iff.1 hroots
  refine ⟨fun a ha b hb hne => ?_, hplain, fun x hx => htidy x (Tree.mem_handles_of_isLive hx.1), ?_⟩
  · rw [hroot, List.mem_singleton] at ha hb
    exact absurd (ha.trans hb.symm) hne
  · simpa using hhidden

/-- Whether a pass fails for want of a pipe over a neat page that could have been shown with an empty list. -/
def spoilsEmpty (s : Session Unit) : Bool :=
  match (s.setModel twoModels.1).2.render with
  | (.error (.unknownPipe _), s') =>
    neat s.model.view s.tree && (s.setModel twoModels.2.1).2.render.1.toBool &&
      decide ((s'.setModel twoModels.2.1).2.render.2.tree.mutations < 2 ^ 32)
  | _ => false

set_option maxRecDepth 10000 in
/-- A list with an attribute binding whose pipe is not registered: an empty list would have been shown before. -/
theorem failed_render_lasts_empty : ∃ (s s' : Session Unit) (name : String), s.Reached ∧
    (s.setModel twoModels.1).2.render = (.error (.unknownPipe name), s') ∧
      (∃ page, s.Shows twoModels.2.1 page) ∧ ∀ page, ¬ s'.Shows twoModels.2.1 page := by
  have h : (ofHtml ("<ul ft-view-model='vm'><li vm-foreach='$vm.model.items' " ++
      "vm-attr-bind='title::$item::nope'>x</li></ul>") (twoModels.1, twoModels.2.2)).toOption.any
      spoilsEmpty = true := by
    decide +kernel
  obtain ⟨s, hs, hcheck⟩ := exists_of_toOption_any h
  have hreached := reached_ofHtml hs
  unfold spoilsEmpty at hcheck
  split at hcheck
  · next name s' hfail =>
    simp only [Bool.and_eq_true, decide_eq_true_eq] at hcheck
    obtain ⟨⟨hneat, hok⟩, hm⟩ := hcheck
    obtain ⟨hnever, -⟩ := hreached.failed_render_lasts (neat_of_check hneat) hfail
    refine ⟨s, s', name, hreached, hfail, ⟨_, _, render_of_toBool hok, rfl⟩, ?_⟩
    rintro page ⟨t, ht, -⟩
    exact hnever _ (Steps.setModel .refl _) hm (by rw [ht])
  · cases hcheck

end Session

end ViewBinding
