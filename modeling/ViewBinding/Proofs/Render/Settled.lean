import ViewBinding.Proofs.Render.Survival
import ViewBinding.Proofs.Render.Tends
import ViewBinding.Proofs.Tree.Facet

/-! Entries that have been bound for good. Where the bindings of a page keep out of each other's way, whatever an entry has
written stays as it is for the rest of the pass, and binding the entry once more changes nothing at all. -/
namespace ViewBinding

open ViewBinding.Tree

namespace ExprCache

variable {c : ExprCache} {source : String}

/-- A source that need not be kept any more: it has been read before, or it cannot be read. -/
def Knows (c : ExprCache) (source : String) : Prop := (c.parse source).2 = c

theorem knows_iff : c.Knows source ↔ (c.parsed.lookup source).isSome = true ∨ (Expr.parse source).toBool = false := by
  unfold Knows parse
  cases hlookup : c.parsed.lookup source with
  | some expr => simp
  | none =>
    simp only
    split
    · next expr h =>
      simp only [h, Except.toBool, Option.isSome_none, Bool.false_eq_true, Bool.true_eq_false, or_self, iff_false]
      exact fun he => by simpa [insert] using congrArg (·.parsed.length) he
    · next h => simp [h, Except.toBool]

theorem Knows.parse (h : c.Knows source) (other : String) : (c.parse other).2.Knows source := by
  rw [knows_iff] at h ⊢
  refine h.imp_left fun hsome => ?_
  unfold ExprCache.parse
  split
  · exact hsome
  · split
    · simp only [insert, List.lookup_cons]
      split <;> simp_all
    · exact hsome

theorem knows_parse (c : ExprCache) (source : String) : (c.parse source).2.Knows source := by
  rw [knows_iff]
  unfold ExprCache.parse
  split
  · next h => simp [h]
  · split
    · simp [insert]
    · next h => exact .inr (by simp [h, Except.toBool])

end ExprCache

namespace Tree

variable {t : Tree} {x y : NodeId}

theorem WellFormed.mem_elementsBelow (ht : t.WellFormed) (hx : t.isElement x = true) (hin : t.Inside x y) (hne : x ≠ y) :
    x ∈ t.elementsBelow y := by
  have hused := ht.inUse_of_inside (ht.inUse_of_isElement hx) hin
  have hmem := (ht.mem_preorder_iff_inside hused).2 hin
  rw [ht.preorder_eq_cons hused] at hmem
  exact List.mem_filter.2 ⟨(List.mem_cons.1 hmem).resolve_left hne, hx⟩

end Tree

namespace View

open Render

variable {v : View} {s p q : Pass} {kind : BindingKind} {b : Binding} {x id : NodeId} {w : Write} {t : Tree}

/-- The kinds of entries that bring an element up to date, in the order in which they are bound. -/
def syncKinds : List BindingKind := [.attr, .content, .value]

def bindEntry (v : View) : BindingKind → NodeId → Binding → Render Unit
  | .attr => v.bindAttribute v.scope
  | .content => v.bindContentEntry v.scope
  | .value => bindProperty v.scope
  | _ => fun _ _ => pure ()

/-- The value of an entry outside of lists; one that fails counts as the empty text. -/
def entryValue (v : View) (h : Heap) (b : Binding) : Value := (evaluate b.expression v.scope h).1.toOption.getD (.string "")

/-- What an entry writes, unless it has no target. -/
def write? (v : View) (h : Heap) (b : Binding) : BindingKind → Except Error (Option Write)
  | .attr =>
    match b.target with
    | none => .ok none
    | some target => (v.pipedText h b.pipe (v.entryValue h b)).map fun shown => some <|
      match shown with
      | some text => .setAttr target text
      | none =>
        if isFalse (v.entryValue h b) then .removeAttr target else .setAttr target (h.display (v.entryValue h b))
  | .content => (v.pipedText h b.pipe (v.entryValue h b)).map fun shown =>
      some (.setMarkup (shown.getD (h.display (v.entryValue h b))))
  | .value => .ok ((property? b).map (·.toWrite h (v.entryValue h b)))
  | _ => .ok none

/-- Binding an entry whose expression leaves all values as they are writes what the entry says. -/
theorem exec_bindEntry (hreads : (evaluate b.expression v.scope p.heap).2 = p.heap) (kind : BindingKind) (id : NodeId) :
    (v.bindEntry kind id b).exec p =
      match v.write? p.heap b kind with
      | .ok none => (.ok (), p)
      | .ok (some w) => (Render.edit (w.apply · id)).exec (p.evaluated b.expression v.scope)
      | .error e => (.error e, p.evaluated b.expression v.scope) := by
  have hheap : (p.evaluated b.expression v.scope).heap = p.heap := hreads
  cases kind with
  | attr =>
    simp only [bindEntry, bindAttribute, write?]
    cases b.target with
    | none => rfl
    | some target =>
      simp only [exec_bind, exec_evaluateOrBlank, exec_piped, hheap, ← entryValue.eq_def]
      rcases v.pipedText p.heap b.pipe (v.entryValue p.heap b) with e | _ | text
      · rfl
      · simp only [Except.map]
        split
        · rfl
        · simp only [exec_bind, exec_view, hheap]
          rfl
      · rfl
  | content =>
    simp only [bindEntry, bindContentEntry, write?, exec_bind, exec_evaluateOrBlank, exec_piped, hheap, ← entryValue.eq_def]
    rcases v.pipedText p.heap b.pipe (v.entryValue p.heap b) with e | shown
    · rfl
    · simp only [Except.map, exec_view, hheap]
      rfl
  | value =>
    simp only [bindEntry, bindProperty, write?]
    cases property? b with
    | none => rfl
    | some property =>
      simp only [exec_bind, exec_evaluateOrBlank, exec_view, hheap, ← entryValue.eq_def, Property.write_eq_apply]
      rfl
  | event => rfl
  | foreach => rfl

/-! What the bindings of a page write. -/

/-- What the entries of an element write, in the order in which they are bound. -/
def writesAt (v : View) (s : Pass) (x : NodeId) : List Write :=
  syncKinds.flatMap fun kind => (v.entriesAt kind s.tree x).filterMap fun b => (v.write? s.heap b kind).toOption.join

def facetsAt (v : View) (s : Pass) (x : NodeId) : List Facet := (v.writesAt s x).flatMap (Write.facets s.tree x)

/-- No entry brings the node up to date. -/
def Bare (v : View) (t : Tree) (x : NodeId) : Prop := ∀ kind ∈ syncKinds, v.entriesAt kind t x = []

/-- The expression of an entry assigns nothing and makes nothing new. -/
def OnlyReads (v : View) (h : Heap) (b : Binding) : Prop :=
  (Expr.parse b.expression).toOption.all (·.assignmentFree) = true ∧
    (evaluate b.expression v.scope h).2.arrays.size = h.arrays.size ∧
    (evaluate b.expression v.scope h).2.objects.size = h.objects.size

instance (v : View) (h : Heap) (b : Binding) : Decidable (v.OnlyReads h b) := inferInstanceAs (Decidable (_ ∧ _ ∧ _))

theorem OnlyReads.heap_eq {h : Heap} (hb : v.OnlyReads h b) : (evaluate b.expression v.scope h).2 = h := by
  obtain ⟨hfree, harrays, hobjects⟩ := hb
  refine Heap.Extends.eq_of_size ?_ harrays hobjects
  unfold evaluate
  cases hparse : Expr.parse b.expression with
  | error e => exact .refl h
  | ok expr => exact Expr.extends_eval v.scope expr (by simpa [hparse, Except.toOption] using hfree) h

/--
The bindings of an element keep out of each other's way. It is no list, expressions only read, no two entries write the same,
no entry writes bindings, and if content is written, then nothing that lies in it has bindings, before and after.
-/
@[mk_iff]
structure ClearAt (v : View) (s : Pass) (x : NodeId) : Prop where
  plain : s.tree.attr? x (v.attributeName .foreach) = none
  reads : ∀ kind ∈ syncKinds, ∀ b ∈ v.entriesAt kind s.tree x, v.OnlyReads s.heap b
  apart : (v.facetsAt s x).Nodup
  unmarked : ∀ kind, .attr (Text.asciiLower (v.attributeName kind)) ∉ v.facetsAt s x
  nested : .content ∈ v.facetsAt s x → ∀ y ∈ s.tree.elementsBelow x, v.Bare s.tree y
  brings : ∀ w ∈ v.writesAt s x, ∀ e ∈ w.brings, ∀ kind,
    e.attrs.contains (Text.asciiLower (v.attributeName kind)) = false

/-- The bindings of a page keep out of each other's way. -/
def Clear (v : View) (s : Pass) : Prop := ∀ x ∈ s.tree.elements, v.ClearAt s x

instance (v : View) (t : Tree) (x : NodeId) : Decidable (v.Bare t x) :=
  inferInstanceAs (Decidable (∀ kind ∈ syncKinds, v.entriesAt kind t x = []))

instance (v : View) (s : Pass) (x : NodeId) : Decidable (v.ClearAt s x) := decidable_of_iff' _ (clearAt_iff v s x)

instance (v : View) (s : Pass) : Decidable (v.Clear s) := inferInstanceAs (Decidable (∀ x ∈ s.tree.elements, v.ClearAt s x))

/-- A node that does not lie below an element whose content is written. -/
def Safe (v : View) (s : Pass) (x : NodeId) : Prop :=
  s.tree.InUse x ∧ ∀ y, .content ∈ v.facetsAt s y → s.tree.Outside y x

theorem isElement_of_mem_entriesAt (h : b ∈ v.entriesAt kind t x) : t.isElement x = true := by
  have hattr : t.hasAttr x (v.attributeName kind) = true := by
    rw [entriesAt] at h
    rw [hasAttr]
    cases hattr : t.attr? x (v.attributeName kind) with
    | none => simp [hattr] at h
    | some raw => rfl
  exact isElement_of_hasAttr hattr

theorem mem_writesAt (hk : kind ∈ syncKinds) (hb : b ∈ v.entriesAt kind s.tree x) (hw : v.write? s.heap b kind = .ok (some w)) :
    w ∈ v.writesAt s x :=
  List.mem_flatMap.2 ⟨kind, hk, List.mem_filterMap.2 ⟨b, hb, by rw [hw]; rfl⟩⟩

theorem isElement_of_mem_writesAt (h : w ∈ v.writesAt s x) : s.tree.isElement x = true := by
  obtain ⟨kind, -, hk⟩ := List.mem_flatMap.1 h
  obtain ⟨b, hb, -⟩ := List.mem_filterMap.1 hk
  exact isElement_of_mem_entriesAt hb

theorem isElement_of_mem_facetsAt {f : Facet} (h : f ∈ v.facetsAt s x) : s.tree.isElement x = true := by
  obtain ⟨w, hw, -⟩ := List.mem_flatMap.1 h
  exact isElement_of_mem_writesAt hw

namespace Clear

/-- What is not safe has no bindings. -/
theorem bare (h : v.Clear s) (hw : s.tree.Whole) (hx : ¬ v.Safe s x) : v.Bare s.tree x := fun kind hk => by
  by_contra hne
  obtain ⟨b, hb⟩ := List.exists_mem_of_ne_nil _ hne
  have helement := isElement_of_mem_entriesAt hb
  have hused := hw.wellFormed.inUse_of_isElement helement
  refine hx ⟨hused, fun y hy => ⟨hused, fun hin => hne ?_⟩⟩
  exact (h y (hw.mem_elements.2 (isElement_of_mem_facetsAt hy))).nested hy x
    (hw.wellFormed.mem_elementsBelow helement hin.1 hin.2) kind hk

/-- Of two different writes on an element, neither changes what the other one does. -/
theorem disjoint (h : v.Clear s) (hs : s.tree.Whole) {w' : Write} (hw : w ∈ v.writesAt s x) (hw' : w' ∈ v.writesAt s x)
    (hne : w ≠ w') : (w.facets s.tree x).Disjoint (w'.facets s.tree x) := by
  have hx := hs.mem_elements.2 (isElement_of_mem_writesAt hw)
  have hpairs := (List.nodup_flatMap.1 (h x hx).apart).2
  have : Std.Symm (Function.onFun List.Disjoint (Write.facets s.tree x)) := ⟨fun _ _ hd => List.Disjoint.symm hd⟩
  exact hpairs.forall hw hw' hne

end Clear

namespace Safe

theorem up {y : NodeId} (hw : s.tree.WellFormed) (h : v.Safe s x) (hx : s.tree.parent? x = some y) : v.Safe s y := by
  have hused := hw.inUse_parent hx
  refine ⟨hused, fun z hz => ⟨hused, fun hin => (h.2 z hz).2 ⟨.up hx hin.1, ?_⟩⟩⟩
  rintro rfl
  exact hw.not_inside_of_parent? hx hin.1

theorem inside {a : NodeId} (hw : s.tree.WellFormed) (h : v.Safe s x) (hx : s.tree.Inside x a) : v.Safe s a := by
  induction hx using Relation.ReflTransGen.head_induction_on with
  | refl => exact h
  | head hp _ ih => exact ih (h.up hw hp)

end Safe

/-! What a pass over a clear page leaves alone. -/

/--
Some entries of a clear page have been bound. The values, the record of copies and the shape around what is safe are those at
the start, and there are no other bindings than those at the start.
-/
structure Calm (v : View) (s p : Pass) : Prop where
  heap : p.heap = s.heap
  copies : p.copies = s.copies
  whole : p.tree.Whole
  agrees : p.tree.EveryElement Markup.Element.Agrees
  stands : ∀ x, v.Safe s x → p.tree.InUse x ∧ p.tree.parent? x = s.tree.parent? x ∧
    (p.tree.element? x).map (·.tag) = (s.tree.element? x).map (·.tag)
  bindings : ∀ x, v.Safe s x → v.SameBindings s.tree p.tree x
  plain : ∀ x, p.tree.attr? x (v.attributeName .foreach) = none
  bare : ∀ x, ¬ v.Safe s x → v.Bare p.tree x

theorem Clear.calm (hc : v.Clear s) (hs : s.tree.Whole) (ha : s.tree.EveryElement Markup.Element.Agrees) : v.Calm s s where
  heap := rfl
  copies := rfl
  whole := hs
  agrees := ha
  stands x hx := ⟨hx.1, rfl, rfl⟩
  bindings x _ _ := rfl
  plain x := by
    by_contra hne
    obtain ⟨raw, hraw⟩ := Option.ne_none_iff_exists'.1 hne
    have hattr : s.tree.hasAttr x (v.attributeName .foreach) = true := by
      rw [hasAttr, hraw]
      rfl
    exact hne ((hc x (hs.mem_elements.2 (isElement_of_hasAttr hattr))).plain)
  bare x hx := hc.bare hs hx

namespace Calm

variable {y a : NodeId} {f : Facet}

theorem inside_iff (hp : v.Calm s p) (hs : s.tree.WellFormed) (hx : v.Safe s x) : p.tree.Inside x a ↔ s.tree.Inside x a := by
  constructor <;> intro hin
  · induction hin using Relation.ReflTransGen.head_induction_on with
    | refl => exact .refl s.tree a
    | head hup _ ih =>
      rw [(hp.stands _ hx).2.1] at hup
      exact .up hup (ih (hx.up hs hup))
  · induction hin using Relation.ReflTransGen.head_induction_on with
    | refl => exact .refl p.tree a
    | head hup _ ih =>
      have hsafe := hx.up hs hup
      rw [← (hp.stands _ hx).2.1] at hup
      exact .up hup (ih hsafe)

theorem isElement (hp : v.Calm s p) (hx : v.Safe s x) : p.tree.isElement x = s.tree.isElement x := by
  have htag := congrArg Option.isSome (hp.stands x hx).2.2
  rwa [Option.isSome_map, Option.isSome_map] at htag

theorem hasTag (hp : v.Calm s p) (hx : v.Safe s x) (tag : String) : p.tree.hasTag x tag = s.tree.hasTag x tag := by
  have htag := (hp.stands x hx).2.2
  rw [Tree.hasTag, Tree.hasTag]
  cases he : p.tree.element? x <;> cases he' : s.tree.element? x <;> simp_all

/-- All entries that there are were there at the start. -/
theorem entry (hp : v.Calm s p) (hk : kind ∈ syncKinds) (hb : b ∈ v.entriesAt kind p.tree x) :
    v.Safe s x ∧ b ∈ v.entriesAt kind s.tree x := by
  have hx : v.Safe s x := by
    by_contra hx
    rw [hp.bare x hx kind hk] at hb
    cases hb
  exact ⟨hx, (hp.bindings x hx).entriesAt kind ▸ hb⟩

variable (hc : v.Clear s) (hs : s.tree.Whole) (hp : v.Calm s p) (hx : v.Safe s x) (hw : w ∈ v.writesAt s x)
  (h : w.apply p.tree x = .ok t)

include hc hs hp hx hw

omit hc hs hw in
theorem facets (w : Write) : w.facets p.tree x = w.facets s.tree x := Write.facets_congr (hp.hasTag hx "select") w

omit hc in
theorem outside (hy : v.Safe s y) (hcontent : .content ∈ w.facets p.tree x) : p.tree.Outside x y := by
  refine ⟨(hp.stands y hy).1, fun hin => ?_⟩
  rw [hp.facets hx] at hcontent
  exact (hy.2 x (List.mem_flatMap.2 ⟨w, hw, hcontent⟩)).2 ⟨(hp.inside_iff hs.wellFormed hy).1 hin.1, hin.2⟩

include h

omit hc in
/-- An entry that is bound leaves everything else alone that entries write. -/
theorem sameFacet (hy : v.Safe s y) (hf : y = x → f ∉ w.facets s.tree x)
    (hcontent : f = .content ∨ f = .value ∧ s.tree.hasTag y "select" = true → .content ∈ v.facetsAt s y) :
    p.tree.SameFacet t y f := by
  refine Write.sameFacet hp.whole h (hp.stands y hy).1 (hp.facets hx w ▸ hf) (outside hs hp hx hw hy) fun he hin => ?_
  by_contra hne
  rw [hp.hasTag hy] at he
  exact (hx.2 y (hcontent he)).2 ⟨(hp.inside_iff hs.wellFormed hx).1 hin, hne⟩

theorem attr?_eq (kind : BindingKind) (hy : v.Safe s y) :
    t.attr? y (v.attributeName kind) = p.tree.attr? y (v.attributeName kind) := by
  refine (sameFacet hs hp hx hw h hy (fun _ hf => ?_) (by simp)).attr?
  exact (hc x (hs.mem_elements.2 (isElement_of_mem_writesAt hw))).unmarked kind (List.mem_flatMap.2 ⟨w, hw, hf⟩)

/-- What is not safe has no new bindings. -/
theorem attr?_eq_or (kind : BindingKind) (hy : ¬ v.Safe s y) :
    t.attr? y (v.attributeName kind) = p.tree.attr? y (v.attributeName kind) ∨ t.attr? y (v.attributeName kind) = none := by
  obtain ⟨gone, hedited, -⟩ := Write.edited hp.whole h
  have hxs := hs.mem_elements.2 (isElement_of_mem_writesAt hw)
  cases he : t.element? y with
  | none =>
    rw [attr?, he]
    exact .inr rfl
  | some e =>
    by_cases hused : p.tree.InUse y
    · have hused' := hedited.whole.wellFormed.inUse_of_element? he
      refine .inl (Write.attr?_of_ne hp.whole h hused hused' ?_ (asciiLower_attributeName_ne v kind "selected" (by decide)))
      rintro rfl
      exact hy hx
    · have hbrings := (hc x hxs).brings w hw e (Write.mem_brings hp.whole h hused he) kind
      rw [attr?, he]
      exact .inr (by simpa [Markup.Attributes.contains] using hbrings)

/-- An entry of a clear page leaves it calm. -/
theorem apply {q : Pass} (htree : q.tree = t) (hheap : q.heap = p.heap) (hcopies : q.copies = p.copies) : v.Calm s q where
  heap := hheap.trans hp.heap
  copies := hcopies.trans hp.copies
  whole := by
    obtain ⟨gone, hedited, -⟩ := Write.edited hp.whole h
    exact htree ▸ hedited.whole
  agrees := htree ▸ Write.everyElement Markup.lasting_agrees hp.whole hp.agrees h
  stands y hy := by
    obtain ⟨hused, hup, htag⟩ := hp.stands y hy
    obtain ⟨hused', hup', htag'⟩ := Write.stays hp.whole h hused fun hrefills =>
      outside hs hp hx hw hy (Write.content_mem_of_refills hrefills)
    exact htree ▸ ⟨hused', hup'.trans hup, htag'.trans htag⟩
  bindings y hy kind := by
    rw [htree, attr?_eq hc hs hp hx hw h kind hy, hp.bindings y hy kind]
  plain y := by
    by_cases hy : v.Safe s y
    · rw [htree, attr?_eq hc hs hp hx hw h .foreach hy, hp.plain]
    · rw [htree]
      rcases attr?_eq_or hc hs hp hx hw h .foreach hy with hsame | hnone
      · rw [hsame, hp.plain]
      · exact hnone
  bare y hy kind hk := by
    rw [htree, entriesAt]
    rcases attr?_eq_or hc hs hp hx hw h kind hy with hsame | hnone
    · rw [hsame, ← entriesAt, hp.bare y hy kind hk]
    · rw [hnone]
      rfl

end Calm

/-! Entries that have been bound. -/

/-- Binding the entry once more changes nothing. -/
def Done (v : View) (p : Pass) (kind : BindingKind) (x : NodeId) (b : Binding) : Prop :=
  (v.bindEntry kind x b).exec p = (.ok (), p)

theorem done_of_write?_none (hreads : (evaluate b.expression v.scope p.heap).2 = p.heap)
    (hw : v.write? p.heap b kind = .ok none) : v.Done p kind x b := by
  unfold Done
  rw [exec_bindEntry hreads, hw]

/-- An entry is done if what it writes is there and its expression need not be read again. -/
theorem done_iff (hreads : (evaluate b.expression v.scope p.heap).2 = p.heap) (hw : v.write? p.heap b kind = .ok (some w)) :
    v.Done p kind x b ↔ w.apply p.tree x = .ok p.tree ∧ p.cache.Knows b.expression := by
  unfold Done
  rw [exec_bindEntry hreads, hw]
  simp only [exec_edit, Pass.tree_evaluated]
  cases happly : w.apply p.tree x with
  | error e => simp
  | ok t =>
    simp only [Prod.mk.injEq, true_and, Except.ok.injEq]
    constructor
    · exact fun h => ⟨congrArg Pass.tree h, congrArg Pass.cache h⟩
    · rintro ⟨rfl, hknows⟩
      have hheap : (p.evaluated b.expression v.scope).heap = p.heap := hreads
      have hcache : (p.evaluated b.expression v.scope).cache = p.cache := hknows
      calc (p.evaluated b.expression v.scope).withTree p.tree
          = ⟨p.document, (p.evaluated b.expression v.scope).heap, p.copies, (p.evaluated b.expression v.scope).cache⟩ := rfl
        _ = p := by rw [hheap, hcache]

/-- What a part of a pass over a clear page does: it has bound the entries in `A`, and what was done stays done. -/
structure Does (v : View) (s : Pass) (A : BindingKind → NodeId → Binding → Prop) (p q : Pass) : Prop where
  calm : v.Calm s q
  done : ∀ kind ∈ syncKinds, ∀ x, v.Safe s x → ∀ b ∈ v.entriesAt kind s.tree x,
    v.Done p kind x b ∨ A kind x b → v.Done q kind x b

namespace Does

variable {A A' : BindingKind → NodeId → Binding → Prop} {r : Pass}

theorem refl (hp : v.Calm s p) : Does v s (fun _ _ _ => False) p p := ⟨hp, fun _ _ _ _ _ _ h => h.resolve_right id⟩

theorem trans (h : Does v s A p q) (h' : Does v s A' q r) : Does v s (fun kind x b => A kind x b ∨ A' kind x b) p r where
  calm := h'.calm
  done kind hk x hx b hb hall := h'.done kind hk x hx b hb <| by
    rcases hall with hdone | hA | hA'
    · exact .inl (h.done kind hk x hx b hb (.inl hdone))
    · exact .inl (h.done kind hk x hx b hb (.inr hA))
    · exact .inr hA'

theorem mono (h : Does v s A p q)
    (hA : ∀ kind ∈ syncKinds, ∀ x, v.Safe s x → ∀ b ∈ v.entriesAt kind s.tree x, A' kind x b → A kind x b) :
    Does v s A' p q where
  calm := h.calm
  done kind hk x hx b hb hall := h.done kind hk x hx b hb (hall.imp_right (hA kind hk x hx b hb))

/-- A sequence does what its elements do. -/
theorem forM {α : Type} {xs : List α} {f : α → Render Unit} {A : α → BindingKind → NodeId → Binding → Prop}
    (hp : v.Calm s p) (h : ∀ a ∈ xs, ∀ r r', v.Calm s r → (f a).exec r = (.ok (), r') → Does v s (A a) r r')
    (hq : (xs.forM f).exec p = (.ok (), q)) : Does v s (fun kind x b => ∃ a ∈ xs, A a kind x b) p q := by
  induction xs generalizing p with
  | nil =>
    cases hq
    exact (refl hp).mono (by simp)
  | cons a xs ih =>
    obtain ⟨_, r, ha, hxs⟩ := exists_of_exec_bind hq
    have hfirst := h a (by simp) p r hp ha
    refine (hfirst.trans (ih hfirst.calm (fun y hy => h y (by simp [hy])) hxs)).mono ?_
    rintro kind - x - b - ⟨y, hy, hA⟩
    rcases List.mem_cons.1 hy with rfl | hy
    · exact .inl hA
    · exact .inr ⟨y, hy, hA⟩

end Does

section

variable (hc : v.Clear s) (hs : s.tree.Whole)

include hc hs

theorem Calm.reads (hp : v.Calm s p) (hk : kind ∈ syncKinds) (hb : b ∈ v.entriesAt kind s.tree x) :
    (evaluate b.expression v.scope p.heap).2 = p.heap := by
  rw [hp.heap]
  exact ((hc x (hs.mem_elements.2 (isElement_of_mem_entriesAt hb))).reads kind hk b hb).heap_eq

/-- What has been done stays done when another entry is bound. -/
theorem Done.of_apply {y : NodeId} {kind' : BindingKind} {b' : Binding} (hp : v.Calm s p) (hx : v.Safe s x)
    (hw : w ∈ v.writesAt s x) (h : w.apply p.tree x = .ok t) (htree : q.tree = t) (hq : v.Calm s q)
    (hcache : ∀ source, p.cache.Knows source → q.cache.Knows source) (hk : kind' ∈ syncKinds) (hy : v.Safe s y)
    (hb : b' ∈ v.entriesAt kind' s.tree y) (hdone : v.Done p kind' y b') : v.Done q kind' y b' := by
  have hreads := hp.reads hc hs hk hb
  have hreads' := hq.reads hc hs hk hb
  have hheap : q.heap = p.heap := hq.heap.trans hp.heap.symm
  cases hw' : v.write? p.heap b' kind' with
  | error e =>
    rw [Done, exec_bindEntry hreads, hw'] at hdone
    cases hdone
  | ok written =>
    cases written with
    | none => exact done_of_write?_none hreads' (hheap ▸ hw')
    | some w' =>
      have hmem : w' ∈ v.writesAt s y := mem_writesAt hk hb (hp.heap ▸ hw')
      obtain ⟨hthere, hknows⟩ := (done_iff hreads hw').1 hdone
      refine (done_iff hreads' (hheap ▸ hw')).2 ⟨?_, hcache _ hknows⟩
      by_cases hsame : y = x ∧ w' = w
      · -- the same write once more has found everything as it would make it
        obtain ⟨rfl, rfl⟩ := hsame
        rw [h] at hthere
        obtain rfl := Except.ok.inj hthere
        rw [htree, h]
      have hshown : ∀ f ∈ w'.facets s.tree y, p.tree.SameFacet t y f := fun f hf => by
        refine hp.sameFacet hs hx hw h hy (fun hyx => ?_) fun hcontent => List.mem_flatMap.2 ⟨w', hmem, ?_⟩
        · subst hyx
          exact hc.disjoint hs hmem hw (fun he => hsame ⟨rfl, he⟩) hf
        · rcases hcontent with rfl | ⟨rfl, hselect⟩
          · exact hf
          · exact Write.content_mem_facets hselect hf
      refine Write.apply_of_sameFacet hp.whole hq.whole.wellFormed hq.agrees ?_ ?_ hthere fun f hf => ?_
      · rw [hq.isElement hy]
        exact isElement_of_mem_writesAt hmem
      · rw [hq.hasTag hy, hp.hasTag hy]
      · rw [hp.facets hy] at hf
        exact htree ▸ hshown f hf

/-- An entry that is bound is done. -/
theorem does_bindEntry (hp : v.Calm s p) (hk : kind ∈ syncKinds) (hb : b ∈ v.entriesAt kind p.tree x)
    (h : (v.bindEntry kind x b).exec p = (.ok (), q)) : Does v s (fun kind' y b' => kind' = kind ∧ y = x ∧ b' = b) p q := by
  obtain ⟨hx, hbs⟩ := hp.entry hk hb
  have hreads := hp.reads hc hs hk hbs
  rw [exec_bindEntry hreads] at h
  cases hw : v.write? p.heap b kind with
  | error e =>
    rw [hw] at h
    cases h
  | ok written =>
    rw [hw] at h
    cases written with
    | none =>
      cases h
      refine ⟨hp, fun kind' _ y _ b' _ hall => ?_⟩
      rcases hall with hdone | ⟨rfl, rfl, rfl⟩
      · exact hdone
      · exact done_of_write?_none hreads hw
    | some w =>
      obtain ⟨t, ht, rfl⟩ := exec_edit_ok h
      have hmem : w ∈ v.writesAt s x := mem_writesAt hk hbs (hp.heap ▸ hw)
      have hq : v.Calm s ((p.evaluated b.expression v.scope).withTree t) := hp.apply hc hs hx hmem ht rfl hreads rfl
      refine ⟨hq, fun kind' hk' y hy b' hb' hall => ?_⟩
      rcases hall with hdone | ⟨rfl, rfl, rfl⟩
      · exact hdone.of_apply hc hs hp hx hmem ht rfl hq (fun source hknows => hknows.parse b.expression) hk' hy hb'
      · have hheap : ((p.evaluated b'.expression v.scope).withTree t).heap = p.heap := hreads
        refine (done_iff (hq.reads hc hs hk hbs) (hheap ▸ hw)).2 ⟨Write.again hp.whole hp.agrees ht, ?_⟩
        exact p.cache.knows_parse b'.expression

/-- All entries of a kind on an element are done together. -/
theorem does_bindEntries (hp : v.Calm s p) (hk : kind ∈ syncKinds)
    (h : ((v.entriesAt kind p.tree x).forM (v.bindEntry kind x)).exec p = (.ok (), q)) :
    Does v s (fun kind' y _ => kind' = kind ∧ y = x) p q := by
  have hall := Does.forM (A := fun b kind' y b' => kind' = kind ∧ y = x ∧ b' = b) hp (fun b hb r r' hr hbind => ?_) h
  · refine hall.mono ?_
    rintro kind' - y hy b' hb' ⟨rfl, rfl⟩
    exact ⟨b', (hp.bindings y hy).entriesAt kind' ▸ hb', rfl, rfl, rfl⟩
  · obtain ⟨hx, hbs⟩ := hp.entry hk hb
    exact does_bindEntry hc hs hr hk ((hr.bindings x hx).entriesAt kind ▸ hbs) hbind

/-- Once elements are brought up to date, all their entries are done. -/
theorem does_sync {ids : List NodeId} (hp : v.Calm s p) (h : (v.sync v.scope ids).exec p = (.ok (), q)) :
    Does v s (fun _ x _ => x ∈ ids) p q := by
  have hphase : ∀ (kind : BindingKind) (f : NodeId → Render Unit) {r r' : Pass}, kind ∈ syncKinds →
      (∀ x r, (f x).exec r = ((v.entriesAt kind r.tree x).forM (v.bindEntry kind x)).exec r) → v.Calm s r →
      (ids.forM f).exec r = (.ok (), r') → Does v s (fun kind' x _ => kind' = kind ∧ x ∈ ids) r r' := by
    intro kind f r r' hk hf hr hrun
    have hall := Does.forM (A := fun x kind' y _ => kind' = kind ∧ y = x) hr
      (fun x _ m m' hm hx => does_bindEntries hc hs hm hk ((hf x m).symm.trans hx)) hrun
    refine hall.mono ?_
    rintro kind' - x - b - ⟨rfl, hx⟩
    exact ⟨x, hx, rfl, rfl⟩
  unfold sync at h
  obtain ⟨_, m, hattrs, h⟩ := exists_of_exec_bind h
  obtain ⟨_, m', hcontent, hproperties⟩ := exists_of_exec_bind h
  have hfirst := hphase .attr _ (by simp [syncKinds]) (fun _ _ => rfl) hp hattrs
  have hsecond := hphase .content _ (by simp [syncKinds]) (fun _ _ => rfl) hfirst.calm hcontent
  have hthird := hphase .value _ (by simp [syncKinds]) (fun _ _ => rfl) hsecond.calm hproperties
  refine ((hfirst.trans hsecond).trans hthird).mono ?_
  intro kind hk x _ b _ hx
  simp only [syncKinds, List.mem_cons, List.not_mem_nil, or_false] at hk
  rcases hk with rfl | rfl | rfl <;> simp [hx]

omit hc in
/-- A scan comes to the same safe elements as at the start. -/
theorem Calm.mem_scan_iff (hp : v.Calm s p) (hx : v.Safe s x) (root : NodeId) :
    x ∈ (v.scan p.tree p.copies root).elements ↔ x ∈ (v.scan s.tree s.copies root).elements := by
  have hw := hs.wellFormed
  have hway : ∀ {r : Pass}, r.tree.WellFormed → r.tree.InUse x →
      (x ∈ (v.scan r.tree r.copies root).elements ↔ OpenWay v r.tree r.copies x root) := fun hr hused =>
    ⟨open_of_mem_elements hr, fun h => (mem_elements_scan_iff hr (hr.inUse_of_inside hused h.1)).2 h⟩
  have hopen : ∀ y, v.Safe s y → (Open v p.tree p.copies y ↔ Open v s.tree s.copies y) := fun y hy => by
    have hplain : p.tree.hasAttr y (v.attributeName .foreach) = s.tree.hasAttr y (v.attributeName .foreach) := by
      rw [hasAttr, hp.bindings y hy, hasAttr]
    have hcopies := hp.copies
    constructor <;> intro h
    · exact ⟨hp.isElement hy ▸ h.isElement, hplain ▸ h.plain, hcopies ▸ h.unrecorded⟩
    · exact ⟨(hp.isElement hy).trans h.isElement, hplain.trans h.plain, hcopies ▸ h.unrecorded⟩
  rw [hway hp.whole.wellFormed (hp.stands x hx).1, hway hw hx.1, OpenWay, OpenWay, hp.inside_iff hw hx]
  refine and_congr_right fun _ => forall_congr' fun y => ?_
  rw [hp.inside_iff hw hx]
  refine forall_congr' fun hxy => ?_
  have hy := hx.inside hw hxy
  rw [hp.inside_iff hw hy, hopen y hy]

omit hc hs in
theorem Calm.templates_scan (hp : v.Calm s p) (root : NodeId) : (v.scan p.tree p.copies root).templates = [] := by
  refine List.eq_nil_iff_forall_not_mem.2 fun x hx => ?_
  have hlisted := (mem_templates_scan hx).2.2
  rw [hasAttr, hp.plain] at hlisted
  cases hlisted

/-- A root that is brought up to date has the entries of all elements that belong to it done. -/
theorem does_renderRoot {root : NodeId} (hp : v.Calm s p) (h : (v.renderRoot root).exec p = (.ok (), q)) :
    Does v s (fun _ x _ => x ∈ (v.scan s.tree s.copies root).elements) p q := by
  unfold renderRoot at h
  rw [exec_bind_ok (exec_tree p)] at h
  by_cases hroot : p.tree.isConnected root = true
  · rw [if_pos hroot, exec_bind_ok (exec_view _ p)] at h
    obtain ⟨_, m, hsync, h⟩ := exists_of_exec_bind h
    rw [hp.templates_scan root] at h
    cases h
    exact (does_sync hc hs hp hsync).mono fun kind _ x hx _ _ hmem => (hp.mem_scan_iff hs hx root).2 hmem
  · rw [if_neg hroot] at h
    cases h
    refine (Does.refl hp).mono fun kind _ x hx _ _ hmem => hroot ?_
    -- a root above something safe is there
    have hin := (open_of_mem_elements hs.wellFormed hmem).1
    exact hp.whole.inUse_iff.1 (hp.stands root (hx.inside hs.wellFormed hin)).1

omit hc in
/-- A pass over a page on which all entries are done changes nothing. -/
theorem exec_render_of_done (hp : v.Calm s p)
    (hdone : ∀ kind ∈ syncKinds, ∀ x, v.Safe s x → ∀ b ∈ v.entriesAt kind s.tree x,
      (∃ root ∈ v.roots, x ∈ (v.scan s.tree s.copies root).elements) → v.Done p kind x b) :
    v.render.exec p = (.ok (), p) := by
  refine exec_forM_of_forall fun root hroot => ?_
  unfold renderRoot
  rw [exec_bind_ok (exec_tree p)]
  split
  · rw [exec_bind_ok (exec_view _ p), hp.templates_scan root]
    have hphase : ∀ kind ∈ syncKinds, ∀ x ∈ (v.scan p.tree p.copies root).elements,
        ((v.entriesAt kind p.tree x).forM (v.bindEntry kind x)).exec p = (.ok (), p) := fun kind hk x hx =>
      exec_forM_of_forall fun b hb => by
        obtain ⟨hsafe, hbs⟩ := hp.entry hk hb
        exact hdone kind hk x hsafe b hbs ⟨root, hroot, (hp.mem_scan_iff hs hsafe root).1 hx⟩
    have hsync : (v.sync v.scope (v.scan p.tree p.copies root).elements).exec p = (.ok (), p) := by
      unfold sync
      rw [exec_bind_ok (exec_forM_of_forall (f := v.bindAttributes v.scope) (hphase .attr (by simp [syncKinds]))),
        exec_bind_ok (exec_forM_of_forall (f := v.bindContent v.scope) (hphase .content (by simp [syncKinds])))]
      exact exec_forM_of_forall (f := v.bindProperties v.scope) (hphase .value (by simp [syncKinds]))
    exact exec_bind_ok hsync _
  · rfl

/-- After a pass over a clear page a further one changes nothing. -/
theorem exec_render_again (ha : s.tree.EveryElement Markup.Element.Agrees) (h : v.render.exec s = (.ok (), q)) :
    v.render.exec q = (.ok (), q) := by
  have hall := Does.forM (A := fun root _ x _ => x ∈ (v.scan s.tree s.copies root).elements) (hc.calm hs ha)
    (fun root _ r r' hr hrun => does_renderRoot hc hs hr hrun) h
  exact exec_render_of_done hs hall.calm fun kind hk x hx b hb hroot => hall.done kind hk x hx b hb (.inr hroot)

end

end View

end ViewBinding
