import ViewBinding.Proofs.Expr.Balanced
import ViewBinding.Proofs.Expr.Reading

/-! What a reader of expressions takes depends on the tokens that it takes and on how the next one goes on. Their positions, what
comes later and the bound on the depth of calls, if it suffices, make no difference. -/
namespace ViewBinding.Expr

variable {α β : Type}

/--
Whether two sequences of tokens make the stages from `stage` on stop alike: they start with the same token, or neither of them
with one that these stages go on with.
-/
def Alike (stage : Nat) (rest rest' : List Located) : Prop :=
  rest.head?.map (·.token) = rest'.head?.map (·.token) ∨ Stops stage rest ∧ Stops stage rest'

section
variable {m n stage : Nat} {rest rest' used used' : List Located}

theorem Alike.mono (h : Alike m rest rest') (hmn : m ≤ n) : Alike n rest rest' :=
  h.imp_right fun hstops => ⟨hstops.1.mono hmn, hstops.2.mono hmn⟩

theorem head?_append_eq (h : used.map (·.token) = used'.map (·.token)) (hused : used ≠ []) :
    (used ++ rest).head?.map (·.token) = (used' ++ rest').head?.map (·.token) := by
  cases used with
  | nil => exact absurd rfl hused
  | cons t used =>
    cases used' with
    | nil => cases h
    | cons t' used' => exact congrArg some (List.cons.inj h).1

theorem Alike.append (h : Alike stage rest rest') (hused : used.map (·.token) = used'.map (·.token)) :
    Alike stage (used ++ rest) (used' ++ rest') := by
  cases used with
  | nil =>
    obtain rfl := List.map_eq_nil_iff.1 hused.symm
    exact h
  | cons t used => exact .inl (head?_append_eq hused (List.cons_ne_nil t used))

theorem exists_mem_head? {t : Located} (h : rest.head?.map (·.token) = rest'.head?.map (·.token)) (ht : t ∈ rest'.head?) :
    ∃ u ∈ rest.head?, u.token = t.token := by
  rw [Option.mem_def.1 ht] at h
  exact Option.map_eq_some_iff.1 h

theorem Alike.stops (h : Alike stage rest rest') (hrest : Stops stage rest) : Stops stage rest' := by
  rcases h with h | h
  · intro t ht
    obtain ⟨u, hu, he⟩ := exists_mem_head? h ht
    rw [← he]
    exact hrest u hu
  · exact h.2

theorem after?_eq_none_iff {mark : Punctuator} {ts : List Located} :
    after? mark ts = none ↔ ts.head?.map (·.token) ≠ some (.punct mark) := by
  cases ts with
  | nil => exact ⟨fun _ h => by (cases h), fun _ => rfl⟩
  | cons t ts =>
    obtain ⟨token, pos⟩ := t
    constructor
    · intro h he
      obtain rfl : token = .punct mark := Option.some.inj he
      rw [after?_cons] at h
      cases h
    · exact fun h => after?_of_ne fun he => h (congrArg some he)

theorem after?_of_head? {mark : Punctuator} (h : rest.head?.map (·.token) = rest'.head?.map (·.token))
    (hrest : after? mark rest = none) : after? mark rest' = none := by
  rwa [after?_eq_none_iff, ← h, ← after?_eq_none_iff]

theorem Alike.after?_eq_none {mark : Punctuator} (h : Alike stage rest rest') (hstage : stage ≤ stageOf (.punct mark))
    (hrest : after? mark rest = none) : after? mark rest' = none := by
  rcases h with h | h
  · exact after?_of_head? h hrest
  · exact after?_of_stops h.2 hstage

end

/-- Whether no operator that comes next binds as tightly as `level`. -/
def EndsBelow (level : Nat) (rest : List Located) : Prop :=
  ∀ t ∈ rest.head?, ∀ mark, t.token = .punct mark → ∀ op ∈ Infix.ofMark? mark, op.2 < level

theorem Stops.endsBelow {rest : List Located} (h : Stops 4 rest) (level : Nat) : EndsBelow level rest := by
  intro t ht mark hmark op hop
  have hlt := h t ht
  rw [hmark, stageOf_of_ofMark? hop] at hlt
  exact absurd hlt (Nat.lt_irrefl 4)

theorem Alike.endsBelow {level : Nat} {rest rest' : List Located} (h : Alike 4 rest rest') (hrest : EndsBelow level rest) :
    EndsBelow level rest' := by
  rcases h with h | h
  · intro t ht mark hmark
    obtain ⟨u, hu, he⟩ := exists_mem_head? h ht
    exact hrest u hu mark (he.trans hmark)
  · exact h.2.endsBelow level

theorem infixRest_of_endsBelow {readSource : String → Except ParseError Expr} {level : Nat} {left : Expr} {rest : List Located}
    (h : EndsBelow level rest) (fuel : Nat) : infixRest readSource (fuel + 1) level left rest = .ok (left, rest) := by
  rw [infixRest.eq_def]
  dsimp only
  split
  · next mark pos rest =>
    split
    · next op tightness hop => exact if_pos (h _ rfl mark rfl _ hop)
    · rfl
  · rfl

theorem exists_of_not_endsBelow {level : Nat} {ts : List Located} (h : ¬ EndsBelow level ts) :
    ∃ mark pos rest op tightness, ts = ⟨.punct mark, pos⟩ :: rest ∧ Infix.ofMark? mark = some (op, tightness) ∧
      ¬ tightness < level := by
  simp only [EndsBelow, not_forall] at h
  obtain ⟨⟨_, pos⟩, hhead, mark, rfl, ⟨op, tightness⟩, hop, hlevel⟩ := h
  obtain ⟨rest, rfl⟩ := List.head?_eq_some_iff.1 hhead
  exact ⟨mark, pos, rest, op, tightness, rfl, hop, hlevel⟩

/-- Whether one reader of sources reads those of the templates among some tokens as another one does, where this succeeds. -/
def Agrees (readSource readSource' : String → Except ParseError Expr) (tokens : List Token) : Prop :=
  ∀ parts, .template parts ∈ tokens → ∀ source, .source source ∈ parts → ∀ expr,
    readSource (String.ofList source) = .ok expr → readSource' (String.ofList source) = .ok expr

section
variable {readSource readSource' : String → Except ParseError Expr}

theorem Agrees.mono {front tokens : List Token} (h : Agrees readSource readSource' tokens) (hfront : front ⊆ tokens) :
    Agrees readSource readSource' front :=
  fun parts hparts => h parts (hfront hparts)

theorem Agrees.templateSegments {parts : List TemplatePart} {segments : List TemplateSegment}
    (h : Agrees readSource readSource' [.template parts])
    (hread : Expr.templateSegments readSource parts = .ok segments) :
    Expr.templateSegments readSource' parts = .ok segments := by
  replace h := h parts List.mem_cons_self
  induction parts generalizing segments with
  | nil => exact hread
  | cons part parts ih =>
    have hmore : ∀ segments, Expr.templateSegments readSource parts = .ok segments →
        Expr.templateSegments readSource' parts = .ok segments := fun segments hread =>
      ih hread fun source hsource => h source (List.mem_cons_of_mem part hsource)
    cases hrest : Expr.templateSegments readSource parts with
    | error e =>
      cases part with
      | text text => simp [Expr.templateSegments, hrest, bind, Except.bind] at hread
      | source source => cases hhole : readSource (String.ofList source) <;>
          simp [Expr.templateSegments, hrest, hhole, bind, Except.bind] at hread
    | ok rest =>
      cases part with
      | text text =>
        simp only [Expr.templateSegments, hrest, bind, Except.bind] at hread
        simp only [Expr.templateSegments, hmore rest hrest, bind, Except.bind]
        exact hread
      | source source =>
        cases hhole : readSource (String.ofList source) with
        | error e => simp [Expr.templateSegments, hhole, bind, Except.bind] at hread
        | ok expr =>
          simp only [Expr.templateSegments, hrest, hhole, bind, Except.bind] at hread
          simp only [Expr.templateSegments, hmore rest hrest, h source List.mem_cons_self expr hhole, bind, Except.bind]
          exact hread

end

section
variable (readSource readSource' : String → Except ParseError Expr)

/--
Whether what is read from `ts`, if anything is, is read by a reader from the same tokens wherever they stand, if what follows
makes the stages from `stage` on stop alike.
-/
def Firm (need stage : Nat) (reader : Nat → List Located → Except ParseError (Parsed α))
    (result : Except ParseError (Parsed α)) (ts : List Located) : Prop :=
  ∀ x rest, result = .ok (x, rest) → ∃ used, ts = used ++ rest ∧ (5 < stage → used ≠ []) ∧
    (Agrees readSource readSource' (used.map (·.token)) → ∀ fuel ts' rest', 10 * used.length + need ≤ fuel →
      ts'.map (·.token) = used.map (·.token) → Alike stage rest rest' → reader fuel (ts' ++ rest') = .ok (x, rest'))

end

namespace Firm

variable {readSource readSource' : String → Except ParseError Expr} {need more stage later : Nat}
  {reader other : Nat → List Located → Except ParseError (Parsed α)} {result : Except ParseError (Parsed α)}
  {ts : List Located} {t : Located}

theorem error (e : ParseError) : Firm readSource readSource' need stage reader (.error e) ts := fun _ _ hx => by cases hx

/-- A reader that stops takes nothing. -/
theorem stop {x : α} (hstage : stage ≤ 5) (h : ∀ fuel rest, Alike stage ts rest → reader fuel rest = .ok (x, rest)) :
    Firm readSource readSource' need stage reader (.ok (x, ts)) ts := by
  intro _ _ hx
  cases hx
  refine ⟨[], rfl, fun hlt => absurd hstage hlt.not_ge, fun _ fuel ts' rest' _ hts' hrest => ?_⟩
  obtain rfl := List.map_eq_nil_iff.1 hts'
  exact h fuel rest' hrest

/-- One token, and nothing else. -/
theorem token {x : α} (h : Agrees readSource readSource' [t.token] → ∀ fuel pos rest,
    reader fuel (⟨t.token, pos⟩ :: rest) = .ok (x, rest)) :
    Firm readSource readSource' need stage reader (.ok (x, ts)) (t :: ts) := by
  intro _ _ hx
  cases hx
  refine ⟨[t], rfl, fun _ => List.cons_ne_nil t [], fun hagrees fuel ts' rest' _ hts' _ => ?_⟩
  obtain ⟨pos, rest, rfl, hrest⟩ := exists_located hts'
  obtain rfl := List.map_eq_nil_iff.1 hrest
  exact h hagrees fuel pos rest'

/-- One token in front. It buys ten calls. -/
theorem cons (more : Nat)
    (h : ∀ pos, Firm readSource readSource' more stage (fun fuel ts => reader fuel (⟨t.token, pos⟩ :: ts)) result ts)
    (hneed : more ≤ need + 10) : Firm readSource readSource' need stage reader result (t :: ts) := by
  intro x rest hx
  obtain ⟨used, rfl, -, -⟩ := h 0 x rest hx
  refine ⟨t :: used, rfl, fun _ => List.cons_ne_nil t used, fun hagrees fuel ts' rest' hfuel hts' hrest => ?_⟩
  obtain ⟨pos, behind, rfl, hbehind⟩ := exists_located hts'
  obtain ⟨used', hused', -, hread⟩ := h pos x rest hx
  obtain rfl := List.append_cancel_right hused'
  rw [List.length_cons] at hfuel
  exact hread (hagrees.mono (List.subset_cons_self _ _)) fuel behind rest' (by omega) hbehind hrest

theorem mono (h : Firm readSource readSource' more later reader result ts) (hneed : more ≤ need) (hstage : stage ≤ later) :
    Firm readSource readSource' need stage reader result ts := by
  intro x rest hx
  obtain ⟨used, hts, hne, hread⟩ := h x rest hx
  refine ⟨used, hts, fun hlt => hne (hlt.trans_le hstage), fun hagrees fuel ts' rest' hfuel hts' hrest => ?_⟩
  exact hread hagrees fuel ts' rest' (by omega) hts' (hrest.mono hstage)

/-- One call more. -/
theorem succ (h : Firm readSource readSource' need stage (fun fuel => reader (fuel + 1)) result ts) :
    Firm readSource readSource' (need + 1) stage reader result ts := by
  intro x rest hx
  obtain ⟨used, hts, hne, hread⟩ := h x rest hx
  refine ⟨used, hts, hne, fun hagrees fuel ts' rest' hfuel hts' hrest => ?_⟩
  obtain ⟨fuel, rfl⟩ : ∃ n, fuel = n + 1 := ⟨fuel - 1, by omega⟩
  exact hread hagrees fuel ts' rest' (by omega) hts' hrest

/-- The next reader stops where this one does, or takes some tokens. -/
theorem bind {next : Nat → Parsed α → Except ParseError (Parsed β)} {f : Parsed α → Except ParseError (Parsed β)}
    (hfirst : Firm readSource readSource' need stage reader result ts)
    (hrest : ∀ x rest, Firm readSource readSource' more later (fun fuel ts => next fuel (x, ts)) (f (x, rest)) rest)
    (hneed : need ≤ more) (hstage : later ≤ stage ∨ 5 < later) :
    Firm readSource readSource' more later (fun fuel ts => reader fuel ts >>= next fuel) (result >>= f) ts := by
  intro y rest hy
  cases result with
  | error e => cases hy
  | ok parsed =>
    obtain ⟨x, behind⟩ := parsed
    obtain ⟨front, rfl, -, hread⟩ := hfirst x behind rfl
    obtain ⟨used, rfl, hne, hread'⟩ := hrest x behind y rest hy
    refine ⟨front ++ used, (List.append_assoc ..).symm, fun hlt => ?_, fun hagrees fuel ts' rest' hfuel hts' hrest => ?_⟩
    · exact List.append_ne_nil_of_right_ne_nil front (hne hlt)
    · rw [List.map_append] at hagrees hts'
      rw [List.length_append] at hfuel
      obtain ⟨front', used', rfl, hfront, hused⟩ := List.map_eq_append_iff.1 hts'
      have halike : Alike stage (used ++ rest) (used' ++ rest') := by
        rcases hstage with hstage | hlt
        · exact (hrest.mono hstage).append hused.symm
        · exact .inl (head?_append_eq hused.symm (hne hlt))
      have hfirst := hread (hagrees.mono (List.subset_append_left _ _)) fuel front' (used' ++ rest') (by omega) hfront halike
      dsimp only
      rw [List.append_assoc, hfirst]
      exact hread' (hagrees.mono (List.subset_append_right _ _)) fuel used' rest' (by omega) hused hrest

/-- What is made of a result takes no tokens. -/
theorem map {f : Parsed α → Except ParseError (Parsed β)} {g : α → β}
    (h : Firm readSource readSource' need stage reader result ts) (hf : ∀ x rest, f (x, rest) = .ok (g x, rest)) :
    Firm readSource readSource' need stage (fun fuel ts => reader fuel ts >>= f) (result >>= f) ts := by
  intro y rest hy
  cases result with
  | error e => cases hy
  | ok parsed =>
    obtain ⟨x, behind⟩ := parsed
    obtain ⟨used, hts, hne, hread⟩ := h x behind rfl
    replace hy := (hf x behind).symm.trans hy
    cases hy
    refine ⟨used, hts, hne, fun hagrees fuel ts' rest' hfuel hts' hrest => ?_⟩
    dsimp only
    rw [hread hagrees fuel ts' rest' hfuel hts' hrest]
    exact hf x rest'

/-- A reader that goes on as another one where the first token is the same. -/
theorem head (h : Firm readSource readSource' need stage other result ts) (hne : 5 < stage ∨ Takes (· ≠ []) result ts)
    (hreader : ∀ fuel ts', ts.head?.map (·.token) = ts'.head?.map (·.token) → reader fuel ts' = other fuel ts') :
    Firm readSource readSource' need stage reader result ts := by
  intro x rest hx
  obtain ⟨used, rfl, hused, hread⟩ := h x rest hx
  refine ⟨used, rfl, hused, fun hagrees fuel ts' rest' hfuel hts' hrest => ?_⟩
  have hsome : used ≠ [] := by
    rcases hne with hlt | hne
    · exact hused hlt
    · obtain ⟨used', hused', hsome⟩ := hne x rest hx
      rw [List.append_cancel_right hused']
      exact fun he => hsome (congrArg _ he)
  rw [hreader fuel (ts' ++ rest') (head?_append_eq hts'.symm hsome)]
  exact hread hagrees fuel ts' rest' hfuel hts' hrest

/-- The name of a property, and what is read behind it. -/
theorem propertyName {f : Parsed String → Except ParseError (Parsed α)}
    (h : ∀ name pos rest, Firm readSource readSource' more stage (fun fuel ts => reader fuel (⟨.ident name, pos⟩ :: ts))
      (f (name, rest)) rest) (hneed : more ≤ need + 10) :
    Firm readSource readSource' need stage reader (Expr.propertyName ts >>= f) ts := by
  unfold Expr.propertyName
  split
  · next name pos rest => exact .cons more (fun pos => h name pos rest) hneed
  · exact .error _

/-- The key of an entry, and what is read behind it. -/
theorem objectKey {next : Nat → Parsed String → Except ParseError (Parsed α)}
    {f : Parsed String → Except ParseError (Parsed α)}
    (h : ∀ key rest, Firm readSource readSource' more stage (fun fuel ts => next fuel (key, ts)) (f (key, rest)) rest)
    (hneed : more ≤ need + 10) :
    Firm readSource readSource' need stage (fun fuel ts => Expr.objectKey ts >>= next fuel)
      (Expr.objectKey ts >>= f) ts := by
  rw [Expr.objectKey.eq_def ts]
  split
  · exact .cons more (fun pos => h _ _) hneed
  · exact .cons more (fun pos => h _ _) hneed
  · exact .cons more (fun pos => h _ _) hneed
  · exact .error _

/-- A mark, and what is read behind it. -/
theorem expectMark {mark : Punctuator} {next : Nat → List Located → Except ParseError (Parsed α)}
    {f : List Located → Except ParseError (Parsed α)}
    (h : ∀ rest, Firm readSource readSource' more stage next (f rest) rest) (hneed : more ≤ need + 10) :
    Firm readSource readSource' need stage (fun fuel ts => Expr.expectMark mark ts >>= next fuel)
      (Expr.expectMark mark ts >>= f) ts := by
  rw [Expr.expectMark.eq_def mark ts]
  cases hts : after? mark ts with
  | none => exact .error _
  | some rest =>
    obtain ⟨pos, rfl⟩ := eq_cons_of_after? hts
    refine .cons more (fun pos => ?_) hneed
    simp only [expectMark_cons]
    exact h rest

/-- A mark that closes what was read. -/
theorem close {mark : Punctuator} {x : α} :
    Firm readSource readSource' need stage
      (fun _ ts => Expr.expectMark mark ts >>= fun rest => (.ok (x, rest) : Except ParseError (Parsed α)))
      (Expr.expectMark mark ts >>= fun rest => .ok (x, rest)) ts := by
  rw [Expr.expectMark.eq_def mark ts]
  cases hts : after? mark ts with
  | none => exact .error _
  | some rest =>
    obtain ⟨pos, rfl⟩ := eq_cons_of_after? hts
    refine .token fun _ fuel pos rest => ?_
    rw [expectMark_cons]
    rfl

end Firm

section
variable (readSource readSource' : String → Except ParseError Expr)

/-- Each stage of reading takes what it takes wherever that stands, with a bound on the depth of calls. -/
structure FirmReaders (fuel : Nat) : Prop where
  sequence : ∀ ts, Firm readSource readSource' 7 1 (sequenceExpr readSource') (sequenceExpr readSource fuel ts) ts
  commaItems : ∀ ts, Firm readSource readSource' 1 1 (commaItems readSource') (commaItems readSource fuel ts) ts
  assignment : ∀ ts, Firm readSource readSource' 6 2 (assignmentExpr readSource') (assignmentExpr readSource fuel ts) ts
  conditional : ∀ ts, Firm readSource readSource' 5 2 (conditionalExpr readSource') (conditionalExpr readSource fuel ts) ts
  infixFrom : ∀ level ts, Firm readSource readSource' 4 4 (fun fuel => infixFrom readSource' fuel level)
    (infixFrom readSource fuel level ts) ts
  infixRest : ∀ level left ts, Firm readSource readSource' 1 4 (fun fuel => infixRest readSource' fuel level left)
    (infixRest readSource fuel level left ts) ts
  unary : ∀ ts, Firm readSource readSource' 3 5 (unaryExpr readSource') (unaryExpr readSource fuel ts) ts
  postfixExpr : ∀ ts, Firm readSource readSource' 2 5 (postfixExpr readSource') (postfixExpr readSource fuel ts) ts
  accesses : ∀ expr ts, Firm readSource readSource' 1 5 (fun fuel => accesses readSource' fuel expr)
    (accesses readSource fuel expr ts) ts
  bracketed : ∀ ts, Firm readSource readSource' 7 6 (bracketed readSource') (bracketed readSource fuel ts) ts
  items : ∀ closing ts, Firm readSource readSource' 7 6 (fun fuel => items readSource' fuel closing)
    (items readSource fuel closing ts) ts
  entries : ∀ ts, Firm readSource readSource' 7 6 (entries readSource') (entries readSource fuel ts) ts
  entryValue : ∀ key ts, Firm readSource readSource' 1 0 (fun fuel => entryValue readSource' fuel key)
    (entryValue readSource fuel key ts) ts
  primary : ∀ ts, Firm readSource readSource' 1 6 (primaryExpr readSource') (primaryExpr readSource fuel ts) ts

theorem Balanced.ne_nil {tokens : List Token} (h : Balanced tokens) : tokens ≠ [] := by
  induction h with
  | append _ _ ih _ => exact List.append_ne_nil_of_left_ne_nil ih _
  | _ => simp

namespace FirmReaders

variable {readSource readSource'} {fuel : Nat} (ih : FirmReaders readSource readSource' fuel)
include ih

theorem sequence_succ (ts : List Located) :
    Firm readSource readSource' 7 1 (sequenceExpr readSource') (sequenceExpr readSource (fuel + 1) ts) ts := by
  refine .succ ?_
  simp only [sequenceExpr]
  refine .bind (ih.assignment ts) (fun first ts => ?_) le_rfl (by decide)
  exact .map (g := fun more => if more.isEmpty then first else .sequence (first :: more))
    ((ih.commaItems ts).mono (by decide) le_rfl) fun _ _ => rfl

theorem commaItems_succ (ts : List Located) :
    Firm readSource readSource' 1 1 (Expr.commaItems readSource') (Expr.commaItems readSource (fuel + 1) ts) ts := by
  refine .succ ?_
  simp only [Expr.commaItems]
  cases hts : after? .comma ts with
  | none => exact .stop (by decide) fun fuel rest h => by rw [h.after?_eq_none le_rfl hts]
  | some rest =>
    obtain ⟨pos, rfl⟩ := eq_cons_of_after? hts
    refine .cons 6 (fun pos => ?_) (by decide)
    simp only [after?_cons]
    refine .bind (ih.assignment rest) (fun item ts => ?_) le_rfl (by decide)
    dsimp only
    exact .map ((ih.commaItems ts).mono (by decide) le_rfl) fun _ _ => rfl

theorem assignment_succ (ts : List Located) :
    Firm readSource readSource' 6 2 (assignmentExpr readSource') (assignmentExpr readSource (fuel + 1) ts) ts := by
  refine .succ ?_
  simp only [assignmentExpr]
  refine .bind (ih.conditional ts) (fun target ts => ?_) le_rfl (by decide)
  dsimp only
  cases hts : after? .assign ts with
  | none => exact .stop (by decide) fun fuel rest h => by rw [h.after?_eq_none le_rfl hts]; rfl
  | some rest =>
    obtain ⟨pos, rfl⟩ := eq_cons_of_after? hts
    refine .cons 6 (fun pos => ?_) (by decide)
    simp only [after?_cons]
    by_cases htarget : target.isTarget = true
    · simp only [if_pos htarget]
      exact .map (ih.assignment rest) fun _ _ => rfl
    · simp only [if_neg htarget]
      exact .error _

theorem conditional_succ (ts : List Located) :
    Firm readSource readSource' 5 2 (conditionalExpr readSource') (conditionalExpr readSource (fuel + 1) ts) ts := by
  refine .succ ?_
  simp only [conditionalExpr]
  refine .bind (ih.infixFrom 0 ts) (fun test ts => ?_) le_rfl (by decide)
  dsimp only
  cases hts : after? .question ts with
  | none => exact .stop (by decide) fun fuel rest h => by rw [h.after?_eq_none (by decide) hts]; rfl
  | some rest =>
    obtain ⟨pos, rfl⟩ := eq_cons_of_after? hts
    refine .cons 6 (fun pos => ?_) (by decide)
    simp only [after?_cons]
    refine .bind (ih.assignment rest) (fun consequent ts => ?_) le_rfl (by decide)
    dsimp only
    refine .expectMark (fun ts => ?_) (Nat.le_add_right 6 10)
    exact .map (ih.assignment ts) fun _ _ => rfl

theorem infixFrom_succ (level : Nat) (ts : List Located) :
    Firm readSource readSource' 4 4 (fun fuel => Expr.infixFrom readSource' fuel level)
      (Expr.infixFrom readSource (fuel + 1) level ts) ts := by
  refine .succ ?_
  simp only [Expr.infixFrom]
  exact .bind (ih.unary ts) (fun left ts => (ih.infixRest level left ts).mono (by decide) le_rfl) le_rfl (by decide)

theorem infixRest_succ (level : Nat) (left : Expr) (ts : List Located) :
    Firm readSource readSource' 1 4 (fun fuel => Expr.infixRest readSource' fuel level left)
      (Expr.infixRest readSource (fuel + 1) level left ts) ts := by
  refine .succ ?_
  by_cases hends : EndsBelow level ts
  · rw [infixRest_of_endsBelow hends]
    exact .stop (by decide) fun fuel rest h => infixRest_of_endsBelow (h.endsBelow hends) fuel
  · obtain ⟨mark, pos, rest, op, tightness, rfl, hop, hlevel⟩ := exists_of_not_endsBelow hends
    simp only [Expr.infixRest, hop, if_neg hlevel]
    refine .cons 4 (fun pos => ?_) (by decide)
    simp only [hop, if_neg hlevel]
    exact .bind (ih.infixFrom _ rest) (fun right ts => (ih.infixRest level _ ts).mono (by decide) le_rfl) le_rfl (by decide)

theorem unary_succ (ts : List Located) :
    Firm readSource readSource' 3 5 (unaryExpr readSource') (unaryExpr readSource (fuel + 1) ts) ts := by
  refine .succ ?_
  have hne := ((readers readSource fuel).postfixExpr ts).mono fun _ h => h.ne_nil
  cases ts with
  | nil =>
    simp only [unaryExpr]
    refine .head (ih.postfixExpr []) (.inr hne) fun fuel ts h => ?_
    obtain rfl := List.head?_eq_none_iff.1 (Option.map_eq_none_iff.1 h.symm)
    rfl
  | cons t ts =>
    cases hop : unaryOp? t.token with
    | some op =>
      simp only [unaryExpr, hop]
      refine .cons 3 (fun pos => ?_) (by decide)
      simp only [hop]
      exact .map (ih.unary ts) fun _ _ => rfl
    | none =>
      simp only [unaryExpr, hop]
      refine .head (ih.postfixExpr _) (.inr hne) fun fuel ts h => ?_
      obtain ⟨u, hu, he⟩ := Option.map_eq_some_iff.1 h.symm
      obtain ⟨rest, rfl⟩ := List.head?_eq_some_iff.1 hu
      simp only [he, hop]

theorem postfix_succ (ts : List Located) :
    Firm readSource readSource' 2 5 (Expr.postfixExpr readSource') (Expr.postfixExpr readSource (fuel + 1) ts) ts := by
  refine .succ ?_
  simp only [Expr.postfixExpr]
  exact .bind (ih.primary ts) (fun expr ts => ih.accesses expr ts) le_rfl (by decide)

theorem accesses_succ (expr : Expr) (ts : List Located) :
    Firm readSource readSource' 1 5 (fun fuel => Expr.accesses readSource' fuel expr)
      (Expr.accesses readSource (fuel + 1) expr ts) ts := by
  refine .succ ?_
  rw [Expr.accesses.eq_def readSource]
  dsimp only
  split
  · exact .cons 1 (fun pos => .propertyName (fun name pos rest => ih.accesses _ rest) (by decide)) (by decide)
  · refine .cons 7 (fun pos => .cons 7 (fun pos' => ?_) (by decide)) (by decide)
    exact .bind (ih.bracketed _) (fun key rest => (ih.accesses _ rest).mono (by decide) le_rfl) le_rfl (by decide)
  · refine .cons 7 (fun pos => .cons 7 (fun pos' => ?_) (by decide)) (by decide)
    exact .bind (ih.items _ _) (fun key rest => (ih.accesses _ rest).mono (by decide) le_rfl) le_rfl (by decide)
  · exact .cons 1 (fun pos => .propertyName (fun name pos rest => ih.accesses _ rest) (by decide)) (by decide)
  · refine .cons 7 (fun pos => ?_) (by decide)
    exact .bind (ih.bracketed _) (fun key rest => (ih.accesses _ rest).mono (by decide) le_rfl) le_rfl (by decide)
  · refine .cons 7 (fun pos => ?_) (by decide)
    exact .bind (ih.items _ _) (fun key rest => (ih.accesses _ rest).mono (by decide) le_rfl) le_rfl (by decide)
  · next hdot _ _ hoptional hbracket hparen =>
    refine .stop le_rfl fun fuel rest h => accesses_of_stops (h.stops fun t ht => ?_) (Nat.succ_pos fuel)
    obtain ⟨rest, rfl⟩ := List.head?_eq_some_iff.1 ht
    obtain ⟨token, pos⟩ := t
    cases token with
    | punct mark =>
      change stageOf (.punct mark) < 5
      cases mark <;> first
        | decide
        | exact (hdot _ _ rfl).elim
        | exact (hoptional _ _ rfl).elim
        | exact (hbracket _ _ rfl).elim
        | exact (hparen _ _ rfl).elim
    | _ => exact Nat.zero_lt_succ 4

theorem bracketed_succ (ts : List Located) :
    Firm readSource readSource' 7 6 (Expr.bracketed readSource') (Expr.bracketed readSource (fuel + 1) ts) ts := by
  refine .succ ?_
  simp only [Expr.bracketed]
  exact .bind (ih.assignment ts) (fun key ts => .close) le_rfl (by decide)

theorem items_succ (closing : Punctuator) (ts : List Located) :
    Firm readSource readSource' 7 6 (fun fuel => Expr.items readSource' fuel closing)
      (Expr.items readSource (fuel + 1) closing ts) ts := by
  refine .succ ?_
  simp only [Expr.items]
  cases hts : after? closing ts with
  | some rest =>
    obtain ⟨pos, rfl⟩ := eq_cons_of_after? hts
    exact .token fun _ fuel pos rest => by rw [after?_cons]
  | none =>
    refine .head ?_ (.inl (by decide)) fun fuel ts' h => by rw [after?_of_head? h hts]
    refine .bind (ih.assignment ts) (fun item ts => ?_) (by decide) (by decide)
    dsimp only
    cases hcomma : after? .comma ts with
    | some rest =>
      obtain ⟨pos, rfl⟩ := eq_cons_of_after? hcomma
      refine .cons 7 (fun pos => ?_) (by decide)
      simp only [after?_cons]
      exact .map (ih.items closing rest) fun _ _ => rfl
    | none =>
      refine .head .close (.inl (by decide)) fun fuel ts' h => ?_
      rw [after?_of_head? h hcomma]
      rfl

theorem entries_succ (ts : List Located) :
    Firm readSource readSource' 7 6 (Expr.entries readSource') (Expr.entries readSource (fuel + 1) ts) ts := by
  refine .succ ?_
  simp only [Expr.entries]
  cases hts : after? .rbrace ts with
  | some rest =>
    obtain ⟨pos, rfl⟩ := eq_cons_of_after? hts
    exact .token fun _ fuel pos rest => by rw [after?_cons]
  | none =>
    refine .head ?_ (.inl (by decide)) fun fuel ts' h => by rw [after?_of_head? h hts]
    refine .objectKey (fun key rest => ?_) (Nat.le_add_right 6 10)
    dsimp only
    refine .bind (ih.entryValue key rest) (fun value ts => ?_) (by decide) (by decide)
    dsimp only
    cases hcomma : after? .comma ts with
    | some rest =>
      obtain ⟨pos, rfl⟩ := eq_cons_of_after? hcomma
      refine .cons 7 (fun pos => ?_) (by decide)
      simp only [after?_cons]
      exact .map (ih.entries rest) fun _ _ => rfl
    | none =>
      refine .head .close (.inl (by decide)) fun fuel ts' h => ?_
      rw [after?_of_head? h hcomma]
      rfl

theorem entryValue_succ (key : String) (ts : List Located) :
    Firm readSource readSource' 1 0 (fun fuel => Expr.entryValue readSource' fuel key)
      (Expr.entryValue readSource (fuel + 1) key ts) ts := by
  refine .succ ?_
  simp only [Expr.entryValue]
  cases hts : after? .colon ts with
  | some rest =>
    obtain ⟨pos, rfl⟩ := eq_cons_of_after? hts
    refine .cons 6 (fun pos => ?_) (by decide)
    simp only [after?_cons]
    exact (ih.assignment rest).mono le_rfl (by decide)
  | none => exact .stop (by decide) fun fuel rest h => by rw [h.after?_eq_none (by decide) hts]

theorem primary_succ (ts : List Located) :
    Firm readSource readSource' 1 6 (primaryExpr readSource') (primaryExpr readSource (fuel + 1) ts) ts := by
  refine .succ ?_
  rw [primaryExpr.eq_def readSource]
  dsimp only
  split
  · exact .token fun _ _ _ _ => rfl
  · exact .token fun _ _ _ _ => rfl
  · next parts pos ts =>
    cases hsegments : templateSegments readSource parts with
    | error e => exact .error e
    | ok segments =>
      refine .token fun hagrees fuel pos rest => ?_
      simp only [primaryExpr, hagrees.templateSegments hsegments, bind, Except.bind]
      rfl
  · exact .token fun _ _ _ _ => rfl
  · exact .cons 7 (fun pos => .bind (ih.sequence _) (fun inner ts => .close) le_rfl (by decide)) (by decide)
  · refine .cons 7 (fun pos => ?_) (by decide)
    exact .map (ih.items _ _) fun _ _ => rfl
  · refine .cons 7 (fun pos => ?_) (by decide)
    exact .map (ih.entries _) fun _ _ => rfl
  · exact .error _
  · exact .error _

end FirmReaders

theorem firmReaders (fuel : Nat) : FirmReaders readSource readSource' fuel := by
  induction fuel with
  | zero => constructor <;> (intros; exact .error _)
  | succ fuel ih =>
    exact {
      sequence := ih.sequence_succ
      commaItems := ih.commaItems_succ
      assignment := ih.assignment_succ
      conditional := ih.conditional_succ
      infixFrom := ih.infixFrom_succ
      infixRest := ih.infixRest_succ
      unary := ih.unary_succ
      postfixExpr := ih.postfix_succ
      accesses := ih.accesses_succ
      bracketed := ih.bracketed_succ
      items := ih.items_succ
      entries := ih.entries_succ
      entryValue := ih.entryValue_succ
      primary := ih.primary_succ }

variable {readSource readSource'}

end

end ViewBinding.Expr
