import Mathlib.Tactic
import ViewBinding.Expr.Parser

/-! Which tokens make up an expression: brackets that close each other, and colons between tokens that are no colons. Whatever
the reader accepts is such a sequence. -/
namespace ViewBinding

/-- The mark that closes what a mark opens. -/
def Punctuator.closing? : Punctuator → Option Punctuator
  | .lparen => some .rparen
  | .lbracket => some .rbracket
  | .lbrace => some .rbrace
  | _ => none

namespace Expr

/-- Whether a token is neither a bracket nor a colon nor the end. -/
def isSimple : Token → Bool
  | .punct .lparen | .punct .rparen | .punct .lbracket | .punct .rbracket | .punct .lbrace | .punct .rbrace => false
  | .punct .colon | .eof => false
  | _ => true

/-- Sequences in which brackets are balanced, and no colon stands at an end or beside another one. -/
inductive Balanced : List Token → Prop
  | token {t : Token} (h : isSimple t = true) : Balanced [t]
  | append {front behind : List Token} (h : Balanced front) (h' : Balanced behind) : Balanced (front ++ behind)
  | colon {front behind : List Token} (h : Balanced front) (h' : Balanced behind) :
    Balanced (front ++ .punct .colon :: behind)
  | pair {opening closing : Punctuator} (h : opening.closing? = some closing) : Balanced [.punct opening, .punct closing]
  | brackets {opening closing : Punctuator} {inner : List Token} (h : opening.closing? = some closing)
    (hinner : Balanced inner) : Balanced (.punct opening :: (inner ++ [.punct closing]))

/-- A balanced sequence, or none at all. -/
def Loose (tokens : List Token) : Prop := tokens = [] ∨ Balanced tokens

/-- A sequence up to the mark that closes it. -/
def ClosedBy (closing : Punctuator) (tokens : List Token) : Prop := ∃ inner, tokens = inner ++ [.punct closing] ∧ Loose inner

variable {α β : Type} {P Q R : List Token → Prop} {a b c : List Token} {t : Token} {opening closing : Punctuator}

theorem Balanced.cons (ht : isSimple t = true) (h : Balanced a) : Balanced (t :: a) := (Balanced.token ht).append h

theorem Balanced.append_loose (h : Balanced a) : Loose b → Balanced (a ++ b)
  | .inl hb => by rwa [hb, List.append_nil]
  | .inr hb => h.append hb

theorem Loose.cons (ht : isSimple t = true) (h : Loose a) : Balanced (t :: a) := (Balanced.token ht).append_loose h

theorem ClosedBy.nil (closing : Punctuator) : ClosedBy closing [.punct closing] := ⟨[], rfl, .inl rfl⟩

theorem ClosedBy.append (ha : Balanced a) (hb : ClosedBy closing b) : ClosedBy closing (a ++ b) := by
  obtain ⟨inner, rfl, hinner⟩ := hb
  exact ⟨a ++ inner, by simp, .inr (ha.append_loose hinner)⟩

theorem ClosedBy.cons (ht : isSimple t = true) (hb : ClosedBy closing b) : ClosedBy closing (t :: b) := .append (.token ht) hb

theorem ClosedBy.balanced (ho : opening.closing? = some closing) (h : ClosedBy closing a) : Balanced (.punct opening :: a) := by
  obtain ⟨inner, rfl, rfl | hinner⟩ := h
  · exact .pair ho
  · exact .brackets ho hinner

theorem eq_cons_of_after? {mark : Punctuator} {ts rest : List Located} (h : after? mark ts = some rest) :
    ∃ pos, ts = ⟨.punct mark, pos⟩ :: rest := by
  unfold after? at h
  split at h
  · split_ifs at h with hmark
    cases h
    exact ⟨_, by rw [hmark]⟩
  · cases h

/-- Whether what is read from tokens, if anything is, are leading tokens of a kind. -/
def Takes (P : List Token → Prop) (result : Except ParseError (Parsed α)) (ts : List Located) : Prop :=
  ∀ x rest, result = .ok (x, rest) → ∃ used, ts = used ++ rest ∧ P (used.map (·.token))

namespace Takes

variable {result : Except ParseError (Parsed α)} {ts : List Located}

theorem mono (h : Takes P result ts) (hPQ : ∀ a, P a → Q a) : Takes Q result ts := by
  intro x rest hx
  obtain ⟨used, rfl, hused⟩ := h x rest hx
  exact ⟨used, rfl, hPQ _ hused⟩

theorem pure (x : α) (ts : List Located) (h : P []) : Takes P (.ok (x, ts)) ts := by
  intro _ _ hx
  cases hx
  exact ⟨[], rfl, h⟩

theorem error (e : ParseError) : Takes P (.error e : Except ParseError (Parsed α)) ts := fun _ _ hx => by cases hx

/-- One token in front. -/
theorem cons {t : Located} (h : Takes (fun a => P (t.token :: a)) result ts) : Takes P result (t :: ts) := by
  intro x rest hx
  obtain ⟨used, rfl, hused⟩ := h x rest hx
  exact ⟨t :: used, rfl, hused⟩

theorem bind {f : Parsed α → Except ParseError (Parsed β)} (hfirst : Takes P result ts)
    (hrest : ∀ x rest, Takes (fun b => ∀ a, P a → Q (a ++ b)) (f (x, rest)) rest) : Takes Q (result >>= f) ts := by
  intro y rest hy
  cases result with
  | error e => cases hy
  | ok parsed =>
    obtain ⟨front, rfl, hfront⟩ := hfirst parsed.1 parsed.2 rfl
    obtain ⟨behind, hbehind, hused⟩ := hrest parsed.1 parsed.2 y rest hy
    refine ⟨front ++ behind, by rw [hbehind, List.append_assoc], ?_⟩
    rw [List.map_append]
    exact hused _ hfront

theorem expectMark {mark : Punctuator} {f : List Located → Except ParseError (Parsed α)}
    (h : ∀ rest, Takes (fun b => P (.punct mark :: b)) (f rest) rest) : Takes P (Expr.expectMark mark ts >>= f) ts := by
  rw [Expr.expectMark]
  cases hts : after? mark ts with
  | none => exact .error _
  | some rest =>
    obtain ⟨pos, rfl⟩ := eq_cons_of_after? hts
    exact .cons (h rest)

theorem propertyName (ts : List Located) : Takes (fun a => ∃ name, a = [.ident name]) (Expr.propertyName ts) ts := by
  unfold Expr.propertyName
  split
  · exact .cons (.pure _ _ ⟨_, rfl⟩)
  · exact .error _

theorem objectKey (ts : List Located) : Takes (fun a => ∃ t, isSimple t = true ∧ a = [t]) (Expr.objectKey ts) ts := by
  unfold Expr.objectKey
  split
  · exact .cons (.pure _ _ ⟨_, rfl, rfl⟩)
  · exact .cons (.pure _ _ ⟨_, rfl, rfl⟩)
  · exact .cons (.pure _ _ ⟨_, rfl, rfl⟩)
  · exact .error _

/-- A closed sequence after its opening bracket, and what follows it. -/
theorem closed {f : Parsed α → Except ParseError (Parsed β)} {pos : Nat} (ho : opening.closing? = some closing)
    (hclosed : Takes (ClosedBy closing) result ts)
    (hf : ∀ x rest, Takes (fun b => ∀ a, Balanced a → Q (a ++ b)) (f (x, rest)) rest) :
    Takes Q (result >>= f) (⟨.punct opening, pos⟩ :: ts) :=
  .cons (.bind hclosed fun x rest => (hf x rest).mono fun _ hb _ ha => hb _ (ha.balanced ho))

end Takes

section
variable (readSource : String → Except ParseError Expr)

/-- What each stage of reading takes with a bound on the depth of calls. -/
structure Readers (fuel : Nat) : Prop where
  sequence : ∀ ts, Takes Balanced (sequenceExpr readSource fuel ts) ts
  commaItems : ∀ ts, Takes Loose (commaItems readSource fuel ts) ts
  assignment : ∀ ts, Takes Balanced (assignmentExpr readSource fuel ts) ts
  conditional : ∀ ts, Takes Balanced (conditionalExpr readSource fuel ts) ts
  infixFrom : ∀ level ts, Takes Balanced (infixFrom readSource fuel level ts) ts
  infixRest : ∀ level left ts, Takes Loose (infixRest readSource fuel level left ts) ts
  unary : ∀ ts, Takes Balanced (unaryExpr readSource fuel ts) ts
  postfixExpr : ∀ ts, Takes Balanced (postfixExpr readSource fuel ts) ts
  accesses : ∀ expr ts, Takes Loose (accesses readSource fuel expr ts) ts
  bracketed : ∀ ts, Takes (ClosedBy .rbracket) (bracketed readSource fuel ts) ts
  items : ∀ closing ts, Takes (ClosedBy closing) (items readSource fuel closing ts) ts
  entries : ∀ ts, Takes (ClosedBy .rbrace) (entries readSource fuel ts) ts
  entryValue : ∀ key ts, Takes (fun a => ∀ t, isSimple t = true → Balanced (t :: a)) (entryValue readSource fuel key ts) ts
  primary : ∀ ts, Takes Balanced (primaryExpr readSource fuel ts) ts

theorem isSimple_of_ofMark? {mark : Punctuator} {op : Infix × Nat} (h : Infix.ofMark? mark = some op) :
    isSimple (.punct mark) = true := by
  cases mark <;> first | rfl | cases h

theorem isSimple_of_unaryOp? {op : UnaryOp} (h : unaryOp? t = some op) : isSimple t = true := by
  unfold unaryOp? at h
  split at h <;> first | rfl | cases h

namespace Readers

variable {readSource} {fuel : Nat} (ih : Readers readSource fuel)
include ih

theorem sequence_succ (ts : List Located) : Takes Balanced (sequenceExpr readSource (fuel + 1) ts) ts := by
  rw [sequenceExpr]
  refine .bind (ih.assignment ts) fun first ts => .bind (ih.commaItems ts) fun more ts => .pure _ _ ?_
  intro b hb a ha
  rw [List.append_nil]
  exact ha.append_loose hb

theorem commaItems_succ (ts : List Located) : Takes Loose (Expr.commaItems readSource (fuel + 1) ts) ts := by
  rw [Expr.commaItems]
  cases hts : after? .comma ts with
  | none => exact .pure _ _ (.inl rfl)
  | some rest =>
    obtain ⟨pos, rfl⟩ := eq_cons_of_after? hts
    refine .cons (.bind (ih.assignment rest) fun item ts => .bind (ih.commaItems ts) fun more ts => .pure _ _ ?_)
    intro b hb a ha
    rw [List.append_nil]
    exact .inr (.cons rfl (ha.append_loose hb))

theorem assignment_succ (ts : List Located) : Takes Balanced (assignmentExpr readSource (fuel + 1) ts) ts := by
  rw [assignmentExpr]
  refine .bind (ih.conditional ts) fun target ts => ?_
  dsimp only
  cases hts : after? .assign ts with
  | none => exact .pure _ _ fun a ha => by rwa [List.append_nil]
  | some rest =>
    obtain ⟨pos, rfl⟩ := eq_cons_of_after? hts
    dsimp only
    split
    · refine .cons (.bind (ih.assignment rest) fun value ts => .pure _ _ ?_)
      intro b hb a ha
      rw [List.append_nil]
      exact ha.append (.cons rfl hb)
    · exact .error _

theorem conditional_succ (ts : List Located) : Takes Balanced (conditionalExpr readSource (fuel + 1) ts) ts := by
  rw [conditionalExpr]
  refine .bind (ih.infixFrom 0 ts) fun test ts => ?_
  dsimp only
  cases hts : after? .question ts with
  | none => exact .pure _ _ fun a ha => by rwa [List.append_nil]
  | some rest =>
    obtain ⟨pos, rfl⟩ := eq_cons_of_after? hts
    refine .cons (.bind (ih.assignment rest) fun consequent ts => .expectMark fun ts =>
      .bind (ih.assignment ts) fun alternate ts => .pure _ _ ?_)
    intro c hc b hb a ha
    rw [List.append_nil]
    exact ha.append (.cons rfl (.colon hb hc))

theorem infixFrom_succ (level : Nat) (ts : List Located) :
    Takes Balanced (Expr.infixFrom readSource (fuel + 1) level ts) ts := by
  rw [Expr.infixFrom]
  exact .bind (ih.unary ts) fun left ts => (ih.infixRest level left ts).mono fun b hb a ha => ha.append_loose hb

theorem infixRest_succ (level : Nat) (left : Expr) (ts : List Located) :
    Takes Loose (Expr.infixRest readSource (fuel + 1) level left ts) ts := by
  rw [Expr.infixRest.eq_def]
  dsimp only
  split
  · next mark pos rest =>
    split
    · next op tightness hop =>
      split
      · exact .pure _ _ (.inl rfl)
      · refine .cons (.bind (ih.infixFrom _ rest) fun right ts => (ih.infixRest level _ ts).mono ?_)
        intro b hb a ha
        exact .inr (.cons (isSimple_of_ofMark? hop) (ha.append_loose hb))
    · exact .pure _ _ (.inl rfl)
  · exact .pure _ _ (.inl rfl)

theorem unary_succ (ts : List Located) : Takes Balanced (unaryExpr readSource (fuel + 1) ts) ts := by
  rw [unaryExpr.eq_def]
  dsimp only
  split
  · next token pos rest =>
    split
    · next op hop =>
      refine .cons (.bind (ih.unary rest) fun operand ts => .pure _ _ ?_)
      intro a ha
      rw [List.append_nil]
      exact .cons (isSimple_of_unaryOp? hop) ha
    · exact ih.postfixExpr _
  · exact ih.postfixExpr _

theorem postfix_succ (ts : List Located) : Takes Balanced (Expr.postfixExpr readSource (fuel + 1) ts) ts := by
  rw [Expr.postfixExpr]
  exact .bind (ih.primary ts) fun expr ts => (ih.accesses expr ts).mono fun b hb a ha => ha.append_loose hb

theorem accesses_succ (expr : Expr) (ts : List Located) : Takes Loose (Expr.accesses readSource (fuel + 1) expr ts) ts := by
  have hname : ∀ {optional : Bool} {t : Located} {ts : List Located}, isSimple t.token = true →
      Takes Loose (Expr.propertyName ts >>= fun named =>
        Expr.accesses readSource fuel (.member expr named.1 optional) named.2) (t :: ts) := fun ht =>
    .cons (.bind (.propertyName _) fun property ts => (ih.accesses _ ts).mono fun b hb a ⟨name, ha⟩ =>
      .inr (.cons ht (by rw [ha]; exact Loose.cons rfl hb)))
  rw [Expr.accesses.eq_def]
  dsimp only
  split
  · exact hname rfl
  · refine .cons (.closed rfl (ih.bracketed _) fun key rest => (ih.accesses _ rest).mono ?_)
    intro b hb a ha
    exact .inr (.cons rfl (ha.append_loose hb))
  · refine .cons (.closed rfl (ih.items _ _) fun args rest => (ih.accesses _ rest).mono ?_)
    intro b hb a ha
    exact .inr (.cons rfl (ha.append_loose hb))
  · exact hname rfl
  · exact .closed rfl (ih.bracketed _) fun key rest => (ih.accesses _ rest).mono fun b hb a ha => .inr (ha.append_loose hb)
  · exact .closed rfl (ih.items _ _) fun args rest => (ih.accesses _ rest).mono fun b hb a ha => .inr (ha.append_loose hb)
  · exact .pure _ _ (.inl rfl)

theorem bracketed_succ (ts : List Located) : Takes (ClosedBy .rbracket) (Expr.bracketed readSource (fuel + 1) ts) ts := by
  rw [Expr.bracketed]
  refine .bind (ih.assignment ts) fun key ts => .expectMark fun ts => .pure _ _ fun a ha => ?_
  exact .append ha (.nil _)

theorem items_succ (closing : Punctuator) (ts : List Located) :
    Takes (ClosedBy closing) (Expr.items readSource (fuel + 1) closing ts) ts := by
  rw [Expr.items]
  cases hts : after? closing ts with
  | some rest =>
    obtain ⟨pos, rfl⟩ := eq_cons_of_after? hts
    exact .cons (.pure _ _ (.nil _))
  | none =>
    refine .bind (ih.assignment ts) fun item ts => ?_
    dsimp only
    cases hcomma : after? .comma ts with
    | some rest =>
      obtain ⟨pos, rfl⟩ := eq_cons_of_after? hcomma
      refine .cons (.bind (ih.items closing rest) fun more ts => .pure _ _ ?_)
      intro b hb a ha
      rw [List.append_nil]
      exact .append ha (.cons rfl hb)
    | none => exact .expectMark fun ts => .pure _ _ fun a ha => .append ha (.nil _)

theorem entries_succ (ts : List Located) : Takes (ClosedBy .rbrace) (Expr.entries readSource (fuel + 1) ts) ts := by
  rw [Expr.entries]
  cases hts : after? .rbrace ts with
  | some rest =>
    obtain ⟨pos, rfl⟩ := eq_cons_of_after? hts
    exact .cons (.pure _ _ (.nil _))
  | none =>
    refine .bind (.objectKey ts) fun key ts => .bind (ih.entryValue key ts) fun value ts => ?_
    dsimp only
    cases hcomma : after? .comma ts with
    | some rest =>
      obtain ⟨pos, rfl⟩ := eq_cons_of_after? hcomma
      refine .cons (.bind (ih.entries rest) fun more ts => .pure _ _ ?_)
      rintro c hc b hb a ⟨t, ht, rfl⟩
      rw [List.append_nil]
      exact ClosedBy.append (a := t :: b) (hb t ht) (.cons rfl hc)
    | none =>
      refine .expectMark fun ts => .pure _ _ ?_
      rintro b hb a ⟨t, ht, rfl⟩
      exact ClosedBy.append (a := t :: b) (hb t ht) (.nil _)

theorem entryValue_succ (key : String) (ts : List Located) :
    Takes (fun a => ∀ t, isSimple t = true → Balanced (t :: a)) (Expr.entryValue readSource (fuel + 1) key ts) ts := by
  rw [Expr.entryValue]
  cases hts : after? .colon ts with
  | some rest =>
    obtain ⟨pos, rfl⟩ := eq_cons_of_after? hts
    exact .cons ((ih.assignment rest).mono fun a ha t ht => .colon (.token ht) ha)
  | none => exact .pure _ _ fun t ht => .token ht

theorem primary_succ (ts : List Located) : Takes Balanced (primaryExpr readSource (fuel + 1) ts) ts := by
  rw [primaryExpr.eq_def]
  dsimp only
  split
  · exact .cons (.pure _ _ (.token rfl))
  · exact .cons (.pure _ _ (.token rfl))
  · next parts pos ts =>
    cases templateSegments readSource parts with
    | error e => exact .error e
    | ok segments => exact .cons (.pure _ _ (.token rfl))
  · exact .cons (.pure _ _ (.token rfl))
  · refine .cons (.bind (ih.sequence _) fun inner ts => .expectMark fun ts => .pure _ _ fun a ha => ?_)
    exact .brackets rfl ha
  · exact .closed rfl (ih.items _ _) fun values ts => .pure _ _ fun a ha => by rwa [List.append_nil]
  · exact .closed rfl (ih.entries _) fun pairs ts => .pure _ _ fun a ha => by rwa [List.append_nil]
  · exact .error _
  · exact .error _

end Readers

theorem readers (fuel : Nat) : Readers readSource fuel := by
  induction fuel with
  | zero => constructor <;> (intros; exact .error _)
  | succ fuel ih =>
    exact {
      sequence := ih.sequence_succ
      commaItems := ih.commaItems_succ
      assignment := ih.assignment_succ
      conditional := ih.conditional_succ
      infixFrom := ih.infixFrom_succ
      infixRest := ih.infixRest_succ
      unary := ih.unary_succ
      postfixExpr := ih.postfix_succ
      accesses := ih.accesses_succ
      bracketed := ih.bracketed_succ
      items := ih.items_succ
      entries := ih.entries_succ
      entryValue := ih.entryValue_succ
      primary := ih.primary_succ }

variable {readSource}

/-- The tokens of an expression are balanced up to the end. -/
theorem balanced_of_parseTokens {ts : List Located} {expr : Expr} (h : parseTokens readSource ts = .ok expr) :
    ∃ used rest, ts = used ++ rest ∧ Balanced (used.map (·.token)) ∧ ∀ t ∈ rest.head?, t.token = .eof := by
  unfold parseTokens at h
  cases hread : sequenceExpr readSource (10 * ts.length + 10) ts with
  | error e =>
    rw [hread] at h
    cases h
  | ok parsed =>
    obtain ⟨used, hts, hused⟩ := (readers readSource _).sequence ts parsed.1 parsed.2 hread
    refine ⟨used, parsed.2, hts, hused, fun t ht => ?_⟩
    obtain ⟨expr', rest⟩ := parsed
    rw [hread] at h
    cases rest with
    | nil => cases ht
    | cons first rest =>
      cases ht
      obtain ⟨token, pos⟩ := t
      cases token <;> first | rfl | cases h

end

end Expr

end ViewBinding
