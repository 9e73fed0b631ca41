import ViewBinding.Proofs.Render.FailedPass
import ViewBinding.Proofs.Render.OwnAttributes
import ViewBinding.Proofs.Render.Survival
import ViewBinding.Proofs.Tree.Possible

/-! Bringing elements up to date succeeds, if the pipes that their bindings name are registered. A binding that has gone with its
element is passed over. -/
namespace ViewBinding

open Render

namespace Render

variable {α β : Type} {p : Pass}

/-- A step succeeds. -/
def Succeeds (x : Render α) (p : Pass) : Prop := ∃ a q, x.exec p = (.ok a, q)

theorem succeeds_bind {x : Render α} {f : α → Render β} (hx : x.Succeeds p)
    (hf : ∀ a q, x.exec p = (.ok a, q) → (f a).Succeeds q) : (x >>= f).Succeeds p := by
  obtain ⟨a, q, h⟩ := hx
  obtain ⟨b, r, h'⟩ := hf a q h
  exact ⟨b, r, (exec_bind_ok h f).trans h'⟩

/-- A sequence succeeds if each of its steps does, wherever those before it lead. -/
theorem succeeds_forM {xs : List α} {f : α → Render Unit} (I : Pass → Prop) (hp : I p)
    (h : ∀ x ∈ xs, ∀ q, I q → (f x).Succeeds q ∧ I ((f x).exec q).2) : (xs.forM f).Succeeds p := by
  induction xs generalizing p with
  | nil => exact ⟨(), p, rfl⟩
  | cons x xs ih =>
    obtain ⟨hx, hkept⟩ := h x (by simp) p hp
    refine succeeds_bind (f := fun _ => xs.forM f) hx fun _ q hq => ih ?_ fun y hy => h y (by simp [hy])
    rwa [hq] at hkept

/-- A step succeeds and has some result, unless it leads beyond a limit on the number of changes. -/
def Reaches (limit : Nat) (x : Render α) (p : Pass) (Q : α → Pass → Prop) : Prop :=
  (x.exec p).2.tree.mutations < limit → ∃ a q, x.exec p = (.ok a, q) ∧ Q a q

theorem reaches_bind {limit : Nat} {x : Render α} {f : α → Render β} {Q : α → Pass → Prop} {R : β → Pass → Prop}
    (hx : x.Reaches limit p Q)
    (hle : ∀ a q, x.exec p = (.ok a, q) → q.tree.mutations ≤ ((f a).exec q).2.tree.mutations)
    (hf : ∀ a q, x.exec p = (.ok a, q) → Q a q → (f a).Reaches limit q R) : (x >>= f).Reaches limit p R := by
  intro hm
  rcases h : x.exec p with ⟨e | a, q⟩
  · rw [exec_bind, h] at hm
    obtain ⟨a, q', hok, -⟩ := hx (by rwa [h])
    rw [h] at hok
    cases hok
  · rw [exec_bind_ok h] at hm ⊢
    obtain ⟨a', q', hok, hq⟩ := hx (by rw [h]; exact (hle a q h).trans_lt hm)
    obtain ⟨rfl, rfl⟩ : a = a' ∧ q = q' := by simpa using h.symm.trans hok
    exact hf a q h hq hm

theorem reaches_bind_ok {limit : Nat} {x : Render α} {f : α → Render β} {R : β → Pass → Prop} {a : α} {q : Pass}
    (h : x.exec p = (.ok a, q)) (hf : (f a).Reaches limit q R) : (x >>= f).Reaches limit p R := by
  rwa [Reaches, exec_bind_ok h]

/-- What each step of a loop keeps is kept by the loop, whether it fails or not. -/
theorem exec_forM_keeps {xs : List α} {f : α → Render Unit} (I : Pass → Prop) (h : ∀ x ∈ xs, ∀ q, I q → I ((f x).exec q).2)
    (hp : I p) : I ((xs.forM f).exec p).2 := by
  induction xs generalizing p with
  | nil => exact hp
  | cons x xs ih =>
    have hx := h x (by simp) p hp
    show I ((f x >>= fun _ => xs.forM f).exec p).2
    rw [exec_bind]
    rcases hq : (f x).exec p with ⟨e | u, q⟩ <;> rw [hq] at hx
    · exact hx
    · exact ih (fun y hy => h y (by simp [hy])) hx

/-- A loop succeeds if its steps do, wherever those before them lead. -/
theorem reaches_forM {limit : Nat} {xs : List α} {f : α → Render Unit} (I : Pass → Prop)
    (hkept : ∀ x ∈ xs, ∀ q, I q → I ((f x).exec q).2)
    (h : ∀ x ∈ xs, ∀ q, I q → (f x).Reaches limit q fun _ _ => True) (hp : I p) :
    (xs.forM f).Reaches limit p fun _ q => I q := by
  intro hm
  have hall := exec_forM_keeps I hkept hp
  rcases hq : (xs.forM f).exec p with ⟨e | ⟨⟩, q⟩ <;> rw [hq] at hm hall
  · obtain ⟨front, x, behind, s, rfl, hfront, hx⟩ := exec_forM_error hq
    have hs : I ((front.forM f).exec p).2 := exec_forM_keeps I (fun y hy => hkept y (by simp [hy])) hp
    rw [hfront] at hs
    have hstep := h x (by simp) s hs
    rw [Reaches, hx] at hstep
    obtain ⟨_, _, hok, -⟩ := hstep hm
    cases hok
  · exact ⟨(), q, rfl, hall⟩

theorem Succeeds.reaches {x : Render α} (h : x.Succeeds p) (limit : Nat) : x.Reaches limit p fun _ _ => True := fun _ =>
  let ⟨a, q, hq⟩ := h
  ⟨a, q, hq, trivial⟩

theorem succeeds_edit {f : Tree → Except Tree.Error Tree} (h : ∃ t, f p.tree = .ok t) : (edit f).Succeeds p := by
  obtain ⟨t, ht⟩ := h
  exact ⟨(), p.withTree t, exec_edit_ok ht⟩

theorem succeeds_evaluateOrBlank (source : String) (scope : Scope) (p : Pass) : (evaluateOrBlank source scope).Succeeds p :=
  ⟨_, _, exec_evaluateOrBlank source scope p⟩

end Render

namespace View

open ViewBinding.Tree

variable {v : View} {F : Footprint} {p q r : Pass} {t t' : Tree} {x id : NodeId} {scope : Scope} {b : Binding}

theorem succeeds_piped {pipe : Option String} (h : ∀ name ∈ pipe, v.pipes.get? name ≠ none) (value : Value) (p : Pass) :
    (v.piped pipe value).Succeeds p := by
  unfold Succeeds
  rw [exec_piped]
  cases pipe with
  | none => exact ⟨none, p, rfl⟩
  | some name =>
    obtain ⟨pipe, hpipe⟩ := Option.ne_none_iff_exists'.1 (h name rfl)
    simp only [pipedText, PipeRegistry.apply, hpipe]
    exact ⟨_, p, rfl⟩

/-! One binding of an element. -/

theorem succeeds_bindAttribute (h : p.tree.isElement id = true) (hpipe : ∀ name ∈ b.pipe, v.pipes.get? name ≠ none) :
    (v.bindAttribute scope id b).Succeeds p := by
  unfold bindAttribute
  split
  · exact ⟨(), p, rfl⟩
  next target _ =>
  refine succeeds_bind (succeeds_evaluateOrBlank ..) fun value q hq => succeeds_bind (succeeds_piped hpipe value q) fun shown r hr => ?_
  obtain ⟨rfl, -⟩ := exec_piped_ok hr
  rw [exec_evaluateOrBlank] at hq
  obtain rfl := congrArg Prod.snd hq
  cases shown with
  | some text => exact succeeds_edit (exists_setAttr_of_isElement h target text)
  | none =>
    simp only
    split
    · exact succeeds_edit (exists_removeAttr_of_isElement h target)
    · exact succeeds_bind ⟨_, _, exec_view _ _⟩ fun text s hs => by
        obtain rfl := congrArg Prod.snd hs
        exact succeeds_edit (exists_setAttr_of_isElement h target text)

theorem succeeds_bindContentEntry (h : p.tree.isElement id = true) (hpipe : ∀ name ∈ b.pipe, v.pipes.get? name ≠ none) :
    (v.bindContentEntry scope id b).Succeeds p := by
  unfold bindContentEntry
  refine succeeds_bind (succeeds_evaluateOrBlank ..) fun value q hq => succeeds_bind (succeeds_piped hpipe value q) fun shown r hr => ?_
  obtain ⟨rfl, -⟩ := exec_piped_ok hr
  rw [exec_evaluateOrBlank] at hq
  obtain rfl := congrArg Prod.snd hq
  refine succeeds_bind ⟨_, _, exec_view _ _⟩ fun text s hs => ?_
  obtain rfl := congrArg Prod.snd hs
  exact succeeds_edit (exists_setInnerMarkup_of_isElement h _)

theorem succeeds_bindProperty (hp : p.tree.WellFormed) (h : p.tree.isElement id = true) : (bindProperty scope id b).Succeeds p := by
  unfold bindProperty
  split
  · exact ⟨(), p, rfl⟩
  next property _ =>
  refine succeeds_bind (succeeds_evaluateOrBlank ..) fun value q hq => ?_
  rw [exec_evaluateOrBlank] at hq
  obtain rfl := congrArg Prod.snd hq
  refine succeeds_bind ⟨_, _, exec_view _ _⟩ fun heap s hs => ?_
  obtain rfl := congrArg Prod.snd hs
  exact succeeds_edit (property.exists_write hp h heap value)

/-! The bindings of an element, one kind after the other. -/

/-- Entries are on elements only, and an element stays one while its entries are bound. -/
theorem succeeds_entries (hp : p.tree.Whole) {kind : BindingKind} {f : Binding → Render Unit}
    (hworks : ∀ b (q : Pass), q.tree.Whole → Pass.Works .nowhere id q ((f b).exec q).2)
    (h : ∀ b ∈ v.entriesAt kind p.tree id, ∀ q : Pass, q.tree.Whole → q.tree.isElement id = true → (f b).Succeeds q) :
    ((v.entriesAt kind p.tree id).forM f).Succeeds p := by
  have helement : ∀ b ∈ v.entriesAt kind p.tree id, p.tree.isElement id = true := fun b hb => by
    have hattr : p.tree.hasAttr id (v.attributeName kind) = true := by
      cases hattr : p.tree.attr? id (v.attributeName kind) with
      | none => simp [entriesAt, hattr] at hb
      | some raw => simp [hasAttr, hattr]
    exact isElement_of_hasAttr hattr
  refine succeeds_forM (Pass.Works .nowhere id p) (.refl _ id p) fun b hb q hq => ?_
  have hwhole := (hq.stands (Fence.stands_nowhere hp)).whole
  have hid := hp.wellFormed.inUse_of_isElement (helement b hb)
  refine ⟨h b hb q hwhole ?_, hq.trans (hworks b q hwhole)⟩
  exact (hq.confined.isElement id (outside_self hid)).trans (helement b hb)

theorem succeeds_bindAttributes (hp : p.tree.Whole)
    (hpipes : ∀ b ∈ v.entriesAt .attr p.tree id, ∀ name ∈ b.pipe, v.pipes.get? name ≠ none) :
    (v.bindAttributes scope id).Succeeds p := by
  unfold bindAttributes
  refine succeeds_bind ⟨_, _, exec_tree p⟩ fun t q hq => ?_
  cases hq
  refine succeeds_entries hp (fun b q hq => ?_) fun b hb q _ h => succeeds_bindAttribute h (hpipes b hb)
  exact works_bindAttribute (Fence.stands_nowhere hq) (fun _ => .refl _ id) not_false b

theorem succeeds_bindContent (hp : p.tree.Whole)
    (hpipes : ∀ b ∈ v.entriesAt .content p.tree id, ∀ name ∈ b.pipe, v.pipes.get? name ≠ none) :
    (v.bindContent scope id).Succeeds p := by
  unfold bindContent
  refine succeeds_bind ⟨_, _, exec_tree p⟩ fun t q hq => ?_
  cases hq
  refine succeeds_entries hp (fun b q hq => ?_) fun b hb q _ h => succeeds_bindContentEntry h (hpipes b hb)
  exact works_bindContentEntry (Fence.stands_nowhere hq) (fun _ => .refl _ id) not_false b

theorem succeeds_bindProperties (hp : p.tree.Whole) : (v.bindProperties scope id).Succeeds p := by
  unfold bindProperties
  refine succeeds_bind ⟨_, _, exec_tree p⟩ fun t q hq => ?_
  cases hq
  refine succeeds_entries hp (fun b q hq => ?_) fun b hb q hq h => succeeds_bindProperty hq.wellFormed h
  exact works_bindProperty (Fence.stands_nowhere hq) (fun _ => .refl _ id) not_false b

/-! The elements of a scan. -/

/-- The bindings of a node write no bindings, and the pipes that they name are registered. -/
structure Settled (v : View) (t : Tree) (x : NodeId) : Prop where
  unwritten : v.Unwritten t x
  known : ∀ kind ∈ [BindingKind.attr, .content], ∀ b ∈ v.entriesAt kind t x, ∀ name ∈ b.pipe, v.pipes.get? name ≠ none

theorem Settled.tidy (h : v.Settled t x) : Tidy v t x where
  tame b hb target htarget hmark := by
    obtain ⟨kind, -, he⟩ := List.mem_map.1 hmark
    exact h.unwritten b hb target htarget kind he
  known := h.known .content (by simp)

theorem ofBindings_settled (v : View) : v.OfBindings v.Settled where
  congr h hy := by
    refine ⟨fun b hb => h.unwritten b ?_, fun kind hk b hb => h.known kind hk b ?_⟩
    · rwa [hy _ (by simp)] at hb
    · rwa [hy kind hk] at hb
  blank hx := by
    refine ⟨fun b hb => ?_, fun kind hk b hb => ?_⟩
    · rw [hx _ (by simp)] at hb
      cases hb
    · rw [hx kind hk] at hb
      cases hb

/-- A pass that is on its way from `p` through elements without bindings that write bindings. -/
structure Under (v : View) (p q : Pass) : Prop where
  whole : q.tree.Whole
  leads : Pass.Leads (2 ^ 32) (binding v fun _ => True) p q

namespace Under

theorem refl (hp : p.tree.Whole) : v.Under p p := ⟨hp, .refl hp.wellFormed⟩

theorem step (h : v.Under p q) (hworks : Pass.Works .nowhere root q r) (hlead : Pass.Leads (2 ^ 32) (binding v fun _ => True) q r) :
    v.Under p r :=
  ⟨(hworks.stands (Fence.stands_nowhere h.whole)).whole, h.leads.trans hlead⟩

theorem settled (h : v.Under p q) (hm : q.tree.mutations < 2 ^ 32) (hid : p.tree.InUse id ∧ v.Settled p.tree id) :
    v.Settled q.tree id :=
  (ofBindings_settled v).later hid.2 (h.leads.later hm).tree (lt_limit _ hm) hid.1 fun _ hn hw => hw hn

/-! What is done with an element that was settled in the beginning. -/

theorem bindAttributes (h : v.Under p q) (hid : p.tree.InUse id ∧ v.Settled p.tree id) :
    v.Under p ((v.bindAttributes scope id).exec q).2 := by
  refine h.step (works_bindAttributes (Fence.stands_nowhere h.whole) (fun hx => h.whole.inside_root hx) not_false) ?_
  have htidy : ∀ x ∈ [id], p.tree.InUse x ∧ Tidy v p.tree x := by simpa using hid.imp_right Settled.tidy
  exact leads_bindAttributes_tidy htidy (by simp) h.leads

theorem bindContent (h : v.Under p q) (id : NodeId) : v.Under p ((v.bindContent scope id).exec q).2 :=
  h.step (works_bindContent (Fence.stands_nowhere h.whole) (fun hx => h.whole.inside_root hx) not_false)
    (leads_bindContent h.whole.wellFormed trivial)

theorem bindProperties (h : v.Under p q) (id : NodeId) : v.Under p ((v.bindProperties scope id).exec q).2 := by
  refine h.step (works_bindProperties (Fence.stands_nowhere h.whole) (fun hx => h.whole.inside_root hx) not_false) ?_
  exact leads_bindProperties h.whole.wellFormed (fun _ hn => ne_of_mem_marks hn (by decide) rfl) trivial
    fun property _ hn => attribute?_not_mem_marks property hn

end Under

/-- Bringing settled elements up to date succeeds. -/
theorem reaches_sync {ids : List NodeId} (hp : p.tree.Whole) (hsettled : ∀ id ∈ ids, p.tree.InUse id ∧ v.Settled p.tree id) :
    (v.sync scope ids).Reaches (2 ^ 32) p fun _ q => v.Under p q := by
  have hattributes : ∀ id ∈ ids, ∀ q, v.Under p q → (v.bindAttributes scope id).Reaches (2 ^ 32) q fun _ _ => True :=
    fun id hid q hq hm => by
      have hlead : Pass.Leads 0 .all q ((v.bindAttributes scope id).exec q).2 :=
        leads_bindAttributes hq.whole.wellFormed fun _ _ _ _ => trivial
      have hmq := hlead.mutations_le.trans_lt hm
      exact (succeeds_bindAttributes hq.whole ((hq.settled hmq (hsettled id hid)).known .attr (by simp))).reaches _ hm
  have hcontents : ∀ id ∈ ids, ∀ q, v.Under p q → (v.bindContent scope id).Reaches (2 ^ 32) q fun _ _ => True :=
    fun id hid q hq hm => by
      have hlead : Pass.Leads 0 .all q ((v.bindContent scope id).exec q).2 := leads_bindContent hq.whole.wellFormed trivial
      have hmq := hlead.mutations_le.trans_lt hm
      exact (succeeds_bindContent hq.whole ((hq.settled hmq (hsettled id hid)).known .content (by simp))).reaches _ hm
  have hle₁ : ∀ u q, (ids.forM (v.bindAttributes scope)).exec p = (.ok u, q) → q.tree.mutations ≤ ((do
      ids.forM (v.bindContent scope)
      ids.forM (v.bindProperties scope) : Render Unit).exec q).2.tree.mutations := fun u q hq => by
    have hkept : v.Under p ((ids.forM (v.bindAttributes scope)).exec p).2 :=
      exec_forM_keeps (v.Under p) (fun id hid q hq => hq.bindAttributes (hsettled id hid)) (.refl hp)
    rw [hq] at hkept
    have hlead : Pass.Leads 0 .all q ((do
        ids.forM (v.bindContent scope)
        ids.forM (v.bindProperties scope) : Render Unit).exec q).2 :=
      leads_contents hkept.whole.wellFormed (fun _ => trivial) (fun _ _ => trivial) fun _ _ _ => trivial
    exact hlead.mutations_le
  have hle₂ : ∀ q, v.Under p q → ∀ u r, (ids.forM (v.bindContent scope)).exec q = (.ok u, r) →
      r.tree.mutations ≤ ((ids.forM (v.bindProperties scope)).exec r).2.tree.mutations := fun q hq u r hr => by
    have hkept : v.Under p ((ids.forM (v.bindContent scope)).exec q).2 :=
      exec_forM_keeps (v.Under p) (fun id _ q hq => hq.bindContent id) hq
    rw [hr] at hkept
    have hlead : Pass.Leads 0 .all r ((ids.forM (v.bindProperties scope)).exec r).2 :=
      leads_forM hkept.whole.wellFormed fun id _ s hs => leads_bindProperties hs.wellFormed (fun _ => trivial) trivial
        fun _ _ _ => trivial
    exact hlead.mutations_le
  unfold sync
  refine reaches_bind (reaches_forM (v.Under p) (fun id hid q hq => hq.bindAttributes (hsettled id hid)) hattributes (.refl hp)) hle₁
    fun _ q _ hq => reaches_bind (reaches_forM (v.Under p) (fun id _ q hq => hq.bindContent id) hcontents hq) (hle₂ q hq)
      fun _ r _ hr => ?_
  exact reaches_forM (v.Under p) (fun id _ q hq => hq.bindProperties id)
    (fun id _ q hq => (succeeds_bindProperties hq.whole).reaches _) hr

end View

end ViewBinding
