import ViewBinding.Proofs.Render.Basic
import ViewBinding.Proofs.Tree.Later

/-! Where a pass may lead from a state. Generations of slots are counted in 32 bits, so what is said of nodes
that stay is said up to a limit on the number of changes. -/
namespace ViewBinding

open ViewBinding.Tree (Footprint Expired)

namespace Tree

/-- Leaves open what happens to nodes that are not in use. -/
def Footprint.freshen (F : Footprint) (t : Tree) : Footprint where
  followed x := F.followed x ∨ ¬ t.InUse x
  removed x := F.removed x ∨ ¬ t.InUse x
  filled x := F.filled x ∨ ¬ t.InUse x
  recorded x := F.recorded x ∨ ¬ t.InUse x
  heard x := F.heard x ∨ ¬ t.InUse x
  written x name := F.written x name ∨ ¬ t.InUse x

/-- Nodes that were not in use do not count. -/
theorem Later.of_freshen {F : Footprint} {t t' : Tree} (ht : t.WellFormed) (h : Later (F.freshen t) t t') :
    Later F t t' :=
  { h with
    parent? := fun x hx => (h.parent? x hx).imp_right fun hp =>
      hp.imp_left fun hn => ⟨hn.1, hn.2.resolve_right (not_not_intro hx)⟩
    siblings := fun p l hf hr hin => by
      have hused : ∀ y ∈ l, t.InUse y := fun y hy =>
        ht.inUse_of_parent? (ht.mem_children_iff.1 (hin.subset hy))
      refine h.siblings p l (fun y hy hs => ?_) (fun y hy hs => ?_) hin
      · exact hs.elim (hf y hy) fun hn => hn (hused y (List.dropLast_subset l hy))
      · exact hs.elim (hr y hy) fun hn => hn (hused y hy)
    attrs := fun x name hx hw => h.attrs x name hx fun hs => hs.elim hw fun hn => hn hx
    children := fun x hx hf hc => h.children x hx (fun hs => hs.elim hf fun hn => hn hx) fun y hy => by
      have hused := ht.inUse_of_parent? (ht.mem_children_iff.1 hy)
      exact ⟨fun hs => hs.elim (hc y hy).1 fun hn => hn hused, fun hs => hs.elim (hc y hy).2 fun hn => hn hused⟩
    stays := fun x p hp hr hf =>
      h.stays x p hp (fun hs => hs.elim hr fun hn => hn (ht.inUse_of_parent? hp))
        fun hs => hs.elim hf fun hn => hn (ht.inUse_parent hp) }

end Tree

namespace Pass

/--
A later state of a pass. Copies stay on record, and only trees in the footprint are put on record; only there are
listeners installed, and a node keeps its listeners as long as it is there.
-/
structure Later (F : Footprint) (p q : Pass) : Prop where
  tree : Tree.Later F p.tree q.tree
  kept : ∀ x, p.tree.InUse x → x ∈ p.copies → x ∈ q.copies ∨ q.tree.Expired p.tree.mutations x
  recorded : ∀ x, p.tree.InUse x → x ∈ q.copies →
    x ∈ p.copies ∨ F.recorded x ∨ q.tree.Expired p.tree.mutations x
  listeners : ∀ x, p.tree.InUse x → ¬ F.heard x →
    q.document.listeners.on x = p.document.listeners.on x ∨ q.tree.Expired p.tree.mutations x
  known : (∀ x ∈ p.copies, p.tree.Known x) → ∀ x ∈ q.copies, q.tree.Known x

/-- A state that a pass leads to; what nodes stay is known as long as there are few changes. -/
structure Leads (limit : Nat) (F : Footprint) (p q : Pass) : Prop where
  wellFormed : q.tree.WellFormed
  mutations_le : p.tree.mutations ≤ q.tree.mutations
  later : q.tree.mutations < limit → Later F p q

variable {limit : Nat} {F G : Footprint} {p q r : Pass}

theorem Later.refl (h : p.tree.WellFormed) : Later F p p :=
  ⟨.refl h, fun _ _ => .inl, fun _ _ => .inl, fun _ _ _ => .inl rfl, id⟩

theorem Later.trans (h : Later F p q) (h' : Later F q r) : Later F p r where
  tree := h.tree.trans h'.tree
  kept x hx hc := by
    rcases h.tree.nodes x hx with hq | hex
    · rcases h.kept x hx hc with hc | hex
      · exact (h'.kept x hq hc).imp_right fun he => he.since_le h.tree.mutations_le
      · exact .inr (h'.tree.expired hex)
    · exact .inr (h'.tree.expired hex)
  recorded x hx hc := by
    rcases h.tree.nodes x hx with hq | hex
    · rcases h'.recorded x hq hc with hc | hf | hex
      · exact (h.recorded x hx hc).imp_right fun ho => ho.imp_right h'.tree.expired
      · exact .inr (.inl hf)
      · exact .inr (.inr (hex.since_le h.tree.mutations_le))
    · exact .inr (.inr (h'.tree.expired hex))
  listeners x hx hn := by
    rcases h.tree.nodes x hx with hq | hex
    · rcases h.listeners x hx hn with hsame | hex
      · exact (h'.listeners x hq hn).imp (·.trans hsame) fun he => he.since_le h.tree.mutations_le
      · exact .inr (h'.tree.expired hex)
    · exact .inr (h'.tree.expired hex)
  known hx := h'.known (h.known hx)

theorem Later.mono (h : Later F p q) (hle : F ≤ G) : Later G p q :=
  ⟨h.tree.mono hle, h.kept, fun x hx hc =>
    (h.recorded x hx hc).imp_right fun ho => ho.imp_left (hle.recorded x),
    fun x hx hn => h.listeners x hx fun hh => hn (hle.heard x hh), h.known⟩

theorem Later.of_freshen (hp : p.tree.WellFormed) (h : Later (F.freshen p.tree) p q) : Later F p q :=
  ⟨h.tree.of_freshen hp, h.kept, fun x hx hc => (h.recorded x hx hc).imp_right fun ho =>
    ho.imp_left fun hs => hs.resolve_right (not_not_intro hx),
    fun x hx hn => h.listeners x hx fun hh => hh.elim hn fun hx' => hx' hx, h.known⟩

namespace Leads

theorem refl (h : p.tree.WellFormed) : Leads limit F p p := ⟨h, le_rfl, fun _ => .refl h⟩

theorem trans (h : Leads limit F p q) (h' : Leads limit F q r) : Leads limit F p r :=
  ⟨h'.wellFormed, h.mutations_le.trans h'.mutations_le, fun hl =>
    (h.later (h'.mutations_le.trans_lt hl)).trans (h'.later hl)⟩

theorem mono (h : Leads limit F p q) (hle : F ≤ G) : Leads limit G p q :=
  ⟨h.wellFormed, h.mutations_le, fun hl => (h.later hl).mono hle⟩

/-- Beyond the limit nothing is said of the nodes that stay. -/
theorem of_limit_le (h : Leads limit G p q) (hl : limit ≤ p.tree.mutations) : Leads limit F p q :=
  ⟨h.wellFormed, h.mutations_le, fun hq => absurd (hl.trans h.mutations_le) (Nat.not_le.2 hq)⟩

theorem freshen (h : Leads limit F p q) (t : Tree) : Leads limit (F.freshen t) p q :=
  h.mono ⟨fun _ => .inl, fun _ => .inl, fun _ => .inl, fun _ => .inl, fun _ => .inl, fun _ _ => .inl⟩

theorem of_freshen (hp : p.tree.WellFormed) (h : Leads limit (F.freshen p.tree) p q) : Leads limit F p q :=
  ⟨h.wellFormed, h.mutations_le, fun hl => (h.later hl).of_freshen hp⟩

/-- The heap does not matter. -/
theorem of_eq (hp : p.tree.WellFormed) (ht : q.tree = p.tree) (hc : q.copies = p.copies)
    (hl : ∀ x, ¬ F.heard x → q.document.listeners.on x = p.document.listeners.on x) : Leads limit F p q :=
  ⟨ht ▸ hp, by rw [ht], fun _ => ⟨by rw [ht]; exact .refl hp, fun _ _ h => .inl (hc ▸ h),
    fun _ _ h => .inl (hc ▸ h), fun x _ hn => .inl (hl x hn), by rw [ht, hc]; exact id⟩⟩

theorem withTree {t : Tree} (h : Tree.Later F p.tree t) : Leads limit F p (p.withTree t) :=
  ⟨h.wellFormed, h.mutations_le, fun _ =>
    ⟨h, fun _ _ => .inl, fun _ _ => .inl, fun _ _ _ => .inl rfl, fun hk x hx => h.known (hk x hx)⟩⟩

/-- A node goes on record if it may, and if it has been in use. -/
theorem record {c : NodeId} (hp : p.tree.WellFormed) (hc : F.recorded c) (hk : p.tree.mutations < limit → p.tree.Known c) :
    Leads limit F p { p with copies := c :: p.copies } := by
  refine ⟨hp, le_rfl, fun hl => ⟨.refl hp, fun x _ hx => ?_, fun x _ hx => ?_, fun _ _ _ => .inl rfl, fun hknown => ?_⟩⟩
  · exact .inl (List.mem_cons_of_mem _ hx)
  · rcases List.mem_cons.1 hx with rfl | hx
    · exact .inr (.inl hc)
    · exact .inl hx
  · exact List.forall_mem_cons.2 ⟨hk hl, hknown⟩

end Leads

end Pass

namespace Render

open Pass

variable {α β : Type} {limit : Nat} {F : Footprint} {p : Pass}

/-- A sequence leads where its second step leads from where its first step leads. -/
theorem leads_bind {x : Render α} {f : α → Render β} (hx : Leads limit F p (x.exec p).2)
    (hf : ∀ a q, x.exec p = (.ok a, q) → Leads limit F p q → Leads limit F q ((f a).exec q).2) :
    Leads limit F p ((x >>= f).exec p).2 := by
  rw [exec_bind]
  rcases h : x.exec p with ⟨e | a, q⟩
  · rwa [h] at hx
  · rw [h] at hx
    exact hx.trans (hf a q h hx)

theorem leads_of_exec {x : Render α} {r : Except Error α} {q : Pass} (h : x.exec p = (r, q))
    (hx : Leads limit F p (x.exec p).2) : Leads limit F p q := by
  rwa [h] at hx

theorem leads_forM {xs : List α} {f : α → Render Unit} (hp : p.tree.WellFormed)
    (h : ∀ x ∈ xs, ∀ q, Leads limit F p q → Leads limit F q ((f x).exec q).2) :
    Leads limit F p ((xs.forM f).exec p).2 := by
  suffices hall : ∀ q, Leads limit F p q → Leads limit F q ((xs.forM f).exec q).2 from
    hall p (.refl hp)
  induction xs with
  | nil => exact fun q hq => .refl hq.wellFormed
  | cons x xs ih =>
    intro q hq
    refine leads_bind (h x (by simp) q hq) fun _ r _ hr => ?_
    exact ih (fun y hy => h y (by simp [hy])) r (hq.trans hr)

/-- A sequence that fails does so in one of its steps, after those before it have succeeded. -/
theorem exec_forM_error {xs : List α} {f : α → Render Unit} {e : Error} {q : Pass}
    (hq : (xs.forM f).exec p = (.error e, q)) :
    ∃ front x behind s, xs = front ++ x :: behind ∧ (front.forM f).exec p = (.ok (), s) ∧
      (f x).exec s = (.error e, q) := by
  induction xs generalizing p with
  | nil => cases hq
  | cons x xs ih =>
    replace hq : (f x >>= fun _ => xs.forM f).exec p = (.error e, q) := hq
    rw [exec_bind] at hq
    rcases hs : (f x).exec p with ⟨_ | u, s⟩ <;> rw [hs] at hq
    · cases hq
      exact ⟨[], x, xs, p, rfl, rfl, hs⟩
    · obtain ⟨front, y, behind, r, rfl, hfront, hy⟩ := ih hq
      refine ⟨x :: front, y, behind, r, rfl, ?_, hy⟩
      show (f x >>= fun _ => front.forM f).exec p = _
      rw [exec_bind, hs]
      exact hfront

/-- A sequence that succeeds does so in each of its steps. -/
theorem exec_forM_ok {xs : List α} {f : α → Render Unit} (hp : p.tree.WellFormed)
    (h : ∀ x ∈ xs, ∀ q, Leads limit F p q → Leads limit F q ((f x).exec q).2) {q : Pass}
    (hq : (xs.forM f).exec p = (.ok (), q)) :
    ∀ x ∈ xs, ∃ s s', Leads limit F p s ∧ (f x).exec s = (.ok (), s') ∧ Leads limit F s' q := by
  suffices hall : ∀ r, Leads limit F p r → (xs.forM f).exec r = (.ok (), q) →
      ∀ x ∈ xs, ∃ s s', Leads limit F p s ∧ (f x).exec s = (.ok (), s') ∧ Leads limit F s' q from
    hall p (.refl hp) hq
  clear hq
  induction xs with
  | nil => simp
  | cons x xs ih =>
    intro r hr hq
    replace hq : (f x >>= fun _ => xs.forM f).exec r = (.ok (), q) := hq
    have hx := h x (by simp) r hr
    rw [exec_bind] at hq
    rcases hs : (f x).exec r with ⟨_ | u, s⟩ <;> rw [hs] at hq hx
    · cases hq
    · have hxs : ∀ y ∈ xs, ∀ q, Leads limit F p q → Leads limit F q ((f y).exec q).2 := fun y hy => h y (by simp [hy])
      intro y hy
      rcases List.mem_cons.1 hy with rfl | hy
      · refine ⟨r, s, hr, hs, leads_of_exec hq (leads_forM hx.wellFormed fun y hy q hl => ?_)⟩
        exact hxs y hy q ((hr.trans hx).trans hl)
      · exact ih hxs s (hr.trans hx) hq y hy

theorem leads_edit {f : Tree → Except Tree.Error Tree} (hp : p.tree.WellFormed)
    (h : ∀ t, f p.tree = .ok t → Tree.Later F p.tree t) : Leads limit F p ((edit f).exec p).2 := by
  rw [exec_edit]
  split
  · next t ht => exact .withTree (h t ht)
  · exact .refl hp

theorem leads_evaluated (source : String) (scope : Scope) (hp : p.tree.WellFormed) :
    Leads limit F p (p.evaluated source scope) :=
  .of_eq hp rfl rfl fun _ _ => rfl

theorem leads_evaluateOrBlank (source : String) (scope : Scope) (hp : p.tree.WellFormed) :
    Leads limit F p ((evaluateOrBlank source scope).exec p).2 := by
  rw [exec_evaluateOrBlank]
  exact leads_evaluated source scope hp

end Render

end ViewBinding
