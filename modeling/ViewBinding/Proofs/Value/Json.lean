import ViewBinding.Evaluation
import ViewBinding.Proofs.Expr.Run
import ViewBinding.Proofs.Expr.Source
import ViewBinding.Proofs.Value.Plain
import ViewBinding.Value.Conversion

/-! The JSON text of plain data is an expression. Its evaluation makes new arrays and objects with the same contents. -/
namespace ViewBinding

namespace Expr

/-! Texts that are cut into tokens in front of anything that does not join them. -/

/-- Whether a text does not join any token in front of it. -/
def Free (rest : List Char) : Prop := ∀ c ∈ rest.head?, ∀ t : Token, t.apart c = true

/-- Whether a text is cut into the given tokens in front of every text that does not join them. -/
def CutsAs (text : List Char) (tokens : List Token) : Prop :=
  ∀ rest behind, Free rest → Cuts rest behind → Cuts (text ++ rest) (tokens ++ behind)

section
variable {text front behind : List Char} {tokens before after : List Token}

theorem cutsAs_written {t : Token} (ht : Writable t) : CutsAs t.written [t] :=
  fun _ _ hfree hrest => hrest.written ht fun c hc => hfree c hc t

theorem cutsAs_nil : CutsAs [] [] := fun _ _ _ hrest => hrest

/-- A mark that ends every token in front of it. -/
theorem free_mark (mark : Punctuator) (hmark : mark ∈ [.comma, .colon, .rbracket, .rbrace]) (rest : List Char) :
    Free (mark.text.toList ++ rest) := by
  intro c hc t
  simp only [List.mem_cons, List.not_mem_nil, or_false] at hmark
  rcases hmark with rfl | rfl | rfl | rfl <;>
    · simp only [Punctuator.text, String.reduceToList, List.cons_append, List.head?_cons, Option.mem_some_iff] at hc
      subst hc
      exact apart_of (by decide) (by decide) t

theorem CutsAs.append (h : CutsAs front before) (h' : CutsAs behind after) (hfree : ∀ rest, Free (behind ++ rest)) :
    CutsAs (front ++ behind) (before ++ after) := by
  intro rest more hrest hcuts
  rw [List.append_assoc, List.append_assoc]
  exact h _ _ (hfree rest) (h' _ _ hrest hcuts)

/-- A mark that no character joins may stand in front of any text. -/
theorem CutsAs.mark_append (h : CutsAs text tokens) (mark : Punctuator) (hmark : ∀ c, mark.apart c = true) :
    CutsAs (mark.text.toList ++ text) (.punct mark :: tokens) := by
  intro rest behind hfree hrest
  rw [List.append_assoc]
  exact (h rest behind hfree hrest).written (t := .punct mark) trivial fun c _ => hmark c

theorem CutsAs.append_mark (h : CutsAs text tokens) (mark : Punctuator)
    (hmark : mark ∈ [.comma, .colon, .rbracket, .rbrace]) :
    CutsAs (text ++ mark.text.toList) (tokens ++ [.punct mark]) :=
  h.append (cutsAs_written (t := .punct mark) trivial) (free_mark mark hmark)

theorem cutsAs_positional {x : Float} (h : Number.IsPositional text) (hread : Number.decimal? text = some x) :
    CutsAs text [.number x] := by
  intro rest more hfree hrest
  have hapart : ∀ c ∈ rest.head?, isIdentContinue c = false ∧ c ≠ '.' := fun c hc => by
    simpa [Token.apart] using hfree c hc (.number x)
  obtain ⟨c, digits, rfl, hblank, htoken⟩ := tokenAt_positional h hread (fun c hc => (hapart c hc).1)
    fun hc => (hapart '.' hc).2 rfl
  exact hrest.cons hblank htoken

/-- Texts between commas are cut into their tokens between commas. -/
theorem CutsAs.separated {texts : List (List Char)} {parts : List (List Token)} (h : List.Forall₂ CutsAs texts parts) :
    CutsAs (List.intercalate [','] texts) (separated parts) := by
  induction h with
  | nil => exact cutsAs_nil
  | @cons text part texts parts hpart hparts ih =>
    cases hparts with
    | nil =>
      rw [Expr.separated, List.intercalate_singleton, List.intercalate_singleton]
      exact hpart
    | cons =>
      rw [separated_cons _ (List.cons_ne_nil _ _), List.intercalate_cons_cons, List.append_assoc]
      exact hpart.append (ih.mark_append .comma fun _ => rfl) fun rest => by
        rw [List.append_assoc]
        exact free_mark .comma (by simp) _

end

end Expr

namespace Heap

open ViewBinding.Expr ViewBinding.View

variable {h : Heap} {text : List Char} {tokens : List Token} {expr : Expr} {v : Value}

/-- Whether an expression makes a value with the contents of `v`, in any heap in which everything is as it was. -/
def Yields (h : Heap) (expr : Expr) (v : Value) : Prop :=
  ∀ h₁, h.Extends h₁ → ∃ w h₂, (expr.eval .empty).runIn h₁ = (.ok w, h₂) ∧ h₁.Extends h₂ ∧
    ∀ h₃, h₂.Extends h₃ → h₃.Alike w v

/-- Whether a text is cut into tokens that read as an expression which makes a value with the contents of `v`. -/
structure Denotes (h : Heap) (text : List Char) (tokens : List Token) (expr : Expr) (v : Value) : Prop where
  cuts : CutsAs text tokens
  reads : ∀ readSource, ReadsUnary readSource tokens expr
  starts : ∃ t rest, tokens = t :: rest ∧ t ≠ .punct .rbracket
  yields : h.Yields expr v

theorem yields_of_pure {w : Value} (heval : expr.eval .empty = pure w) (hw : ∀ h : Heap, h.Alike w v) :
    h.Yields expr v :=
  fun h₁ _ => ⟨w, h₁, by rw [heval]; rfl, .refl h₁, fun h₃ _ => hw h₃⟩

theorem denotes_name {name : String} {w : Value} (hname : isName name.toList = true)
    (hunary : unaryOp? (.ident name) = none) (heval : (ofName name).eval .empty = pure w)
    (hw : ∀ h : Heap, h.Alike w v) : h.Denotes name.toList [.ident name] (ofName name) v where
  cuts := cutsAs_written (t := .ident name) hname
  reads _ := (reads_token (t := .ident name) rfl).toPostfix.toUnary hunary
  starts := ⟨_, _, rfl, by simp⟩
  yields := yields_of_pure heval hw

theorem denotes_string (s : String) : h.Denotes (Text.jsonQuoted s).toList [.string s] (.string s) (.string s) where
  cuts := cutsAs_written (t := .string s) trivial
  reads _ := (reads_token (t := .string s) rfl).toPostfix.toUnary rfl
  starts := ⟨_, _, rfl, by simp⟩
  yields := yields_of_pure rfl fun _ => .string s

/-- A number is written with its digits, perhaps behind a minus sign, which is an operator. -/
theorem exists_denotes_number {x : Float} (hx : ReadsBack x) :
    ∃ tokens expr, h.Denotes (Number.text x).toList tokens expr (.number x) := by
  obtain ⟨hfinite, y, hread, hxy⟩ := hx
  obtain ⟨negative, m, e, hdecode⟩ : ∃ negative m e, Number.decode x = .finite negative m e := by
    unfold Number.isFinite at hfinite
    split at hfinite
    · next heq => exact ⟨_, _, _, heq⟩
    · cases hfinite
  obtain ⟨digits, hdigits, htext | ⟨-, htext⟩⟩ := Number.exists_text_eq hdecode
  · rw [htext] at hread ⊢
    refine ⟨[.number y], .number y, cutsAs_positional hdigits hread, fun _ => ?_, ⟨_, _, rfl, by simp⟩, ?_⟩
    · exact (reads_token (t := .number y) rfl).toPostfix.toUnary rfl
    · exact yields_of_pure rfl fun _ => .number hxy
  · rw [htext] at hread ⊢
    rw [Number.decimal?_minus hdigits, Option.map_eq_some_iff] at hread
    obtain ⟨magnitude, hread, rfl⟩ := hread
    refine ⟨[.punct .minus, .number magnitude], .unary .neg (.number magnitude),
      (cutsAs_positional hdigits hread).mark_append .minus fun _ => rfl, fun _ => ?_, ⟨_, _, rfl, by simp⟩, ?_⟩
    · exact reads_unary rfl ((reads_token (t := .number magnitude) rfl).toPostfix.toUnary rfl)
    · exact fun h₁ _ => ⟨.number (-magnitude), h₁, rfl, .refl h₁, fun _ _ => .number hxy⟩

/-- Evaluated in a row, the expressions make values with the contents of the given ones. -/
theorem yields_all {exprs : List Expr} {items : List Value} (hitems : List.Forall₂ h.Yields exprs items) :
    ∀ h₁, h.Extends h₁ → ∃ ws h₂, (evalAll .empty exprs).runIn h₁ = (.ok ws, h₂) ∧ h₁.Extends h₂ ∧
      ∀ h₃, h₂.Extends h₃ → List.Forall₂ h₃.Alike ws items := by
  induction hitems with
  | nil => exact fun h₁ _ => ⟨[], h₁, rfl, .refl h₁, fun _ _ => .nil⟩
  | cons hitem _ ih =>
    intro h₁ hx₁
    obtain ⟨w, h₂, hfirst, hx₂, hw⟩ := hitem h₁ hx₁
    obtain ⟨ws, h₃, hrest, hx₃, hws⟩ := ih h₂ (hx₁.trans hx₂)
    refine ⟨w :: ws, h₃, ?_, hx₂.trans hx₃, fun h₄ hx₄ => .cons (hw h₄ (hx₃.trans hx₄)) (hws h₄ hx₄)⟩
    simp only [evalAll, Eval.runIn_bind, hfirst, hrest, Eval.runIn_pure]

theorem yields_array {exprs : List Expr} {r : ArrayRef} (hr : h.Has (.array r))
    (hitems : List.Forall₂ h.Yields exprs (h.items r).toList) : h.Yields (.array exprs) (.array r) := by
  intro h₁ hx₁
  obtain ⟨ws, h₂, heval, hx₂, hws⟩ := yields_all hitems h₁ hx₁
  refine ⟨(h₂.newArray ws).1, (h₂.newArray ws).2, ?_, hx₂.trans (.newArray h₂ ws), fun h₃ hx₃ => ?_⟩
  · simp only [eval, Eval.runIn_bind, heval, Eval.runIn_newArray]
  · have hold : h₃.items r = h.items r := (((hx₁.trans hx₂).trans (.newArray h₂ ws)).trans hx₃).items r hr
    have hnew : h₃.items ⟨h₂.arrays.size⟩ = ws.toArray := by
      rw [hx₃.items _ (by simp [newArray])]
      simp [newArray, Heap.items]
    have halike := hws h₃ ((Extends.newArray h₂ ws).trans hx₃)
    refine .array ?_ fun i v w hv hw => ?_
    · rw [hnew, hold]
      exact halike.length_eq
    · rw [hnew, List.getElem?_toArray] at hv
      rw [hold, ← Array.getElem?_toList] at hw
      exact List.forall₂_zip halike (List.mem_of_getElem? (List.getElem?_zip_eq_some.2 ⟨hv, hw⟩))

/-- Entries with the same key whose values are related. -/
def SameEntry {α β : Type} (R : α → β → Prop) (e : String × α) (f : String × β) : Prop := e.1 = f.1 ∧ R e.2 f.2

theorem keys_eq_of_sameEntry {α β : Type} {R : α → β → Prop} {es : List (String × α)} {fs : List (String × β)}
    (hes : List.Forall₂ (SameEntry R) es fs) : es.map (·.1) = fs.map (·.1) := by
  induction hes with
  | nil => rfl
  | cons hentry _ ih => rw [List.map_cons, List.map_cons, hentry.1, ih]

theorem yields_entries {pairs : List (String × Expr)} {fields : List (String × Value)}
    (hfields : List.Forall₂ (SameEntry h.Yields) pairs fields) :
    ∀ h₁, h.Extends h₁ → ∃ ws h₂, (evalEntries .empty pairs).runIn h₁ = (.ok ws, h₂) ∧ h₁.Extends h₂ ∧
      ∀ h₃, h₂.Extends h₃ → List.Forall₂ (SameEntry h₃.Alike) ws fields := by
  induction hfields with
  | nil => exact fun h₁ _ => ⟨[], h₁, rfl, .refl h₁, fun _ _ => .nil⟩
  | @cons pair field _ _ hfield _ ih =>
    intro h₁ hx₁
    obtain ⟨w, h₂, hfirst, hx₂, hw⟩ := hfield.2 h₁ hx₁
    obtain ⟨ws, h₃, hrest, hx₃, hws⟩ := ih h₂ (hx₁.trans hx₂)
    refine ⟨(pair.1, w) :: ws, h₃, ?_, hx₂.trans hx₃, fun h₄ hx₄ =>
      .cons ⟨hfield.1, hw h₄ (hx₃.trans hx₄)⟩ (hws h₄ hx₄)⟩
    simp only [evalEntries, Eval.runIn_bind, hfirst, hrest, Eval.runIn_pure]

theorem yields_object {pairs : List (String × Expr)} {r : ObjectRef} (hr : h.Has (.object r))
    (hfields : List.Forall₂ (SameEntry h.Yields) pairs (h.fields r).entries) :
    h.Yields (.object pairs) (.object r) := by
  intro h₁ hx₁
  obtain ⟨ws, h₂, heval, hx₂, hws⟩ := yields_entries hfields h₁ hx₁
  refine ⟨(h₂.newObject ws).1, (h₂.newObject ws).2, ?_, hx₂.trans (.newObject h₂ ws), fun h₃ hx₃ => ?_⟩
  · simp only [eval, Eval.runIn_bind, heval, Eval.runIn_newObject]
  · have hold : h₃.fields r = h.fields r := (((hx₁.trans hx₂).trans (.newObject h₂ ws)).trans hx₃).fields r hr
    have hnew : h₃.fields ⟨h₂.objects.size⟩ = .ofList ws := by
      rw [hx₃.fields _ (by simp [newObject])]
      simp [newObject, Heap.fields]
    have halike := hws h₃ ((Extends.newObject h₂ ws).trans hx₃)
    have hkeys := keys_eq_of_sameEntry halike
    have hentries : (OrderedMap.ofList ws).entries = ws :=
      OrderedMap.entries_ofList (by rw [hkeys]; exact (h.fields r).nodup_keys)
    refine .object ?_ fun key v w hv hw => ?_
    · rw [hnew, hold, OrderedMap.keys, OrderedMap.keys, hentries, hkeys]
    · rw [hnew, OrderedMap.get?, hentries] at hv
      rw [hold] at hw
      exact Association.rel_of_lookup halike hv hw

/-- What denotes the items denotes them between commas. -/
theorem exists_denotes_all {f : Value → List Char} {items : List Value}
    (hitems : ∀ v ∈ items, ∃ tokens expr, h.Denotes (f v) tokens expr v) :
    ∃ parts exprs, List.Forall₂ CutsAs (items.map f) parts ∧
      (∀ readSource, List.Forall₂ (ReadsItem readSource .rbracket) parts exprs) ∧
      List.Forall₂ h.Yields exprs items := by
  induction items with
  | nil => exact ⟨[], [], .nil, fun _ => .nil, .nil⟩
  | cons v items ih =>
    obtain ⟨tokens, expr, hv⟩ := hitems v List.mem_cons_self
    obtain ⟨parts, exprs, hcuts, hreads, hyields⟩ := ih fun w hw => hitems w (List.mem_cons_of_mem v hw)
    refine ⟨tokens :: parts, expr :: exprs, .cons hv.cuts hcuts, fun readSource => ?_, .cons hv.yields hyields⟩
    exact .cons ⟨((hv.reads readSource).toInfix 0).toConditional.mono (by decide) |>.toAssignment, hv.starts⟩
      (hreads readSource)

theorem exists_denotes_entries {f : Value → List Char} {fields : List (String × Value)}
    (hfields : ∀ e ∈ fields, ∃ tokens expr, h.Denotes (f e.2) tokens expr e.2) :
    ∃ parts pairs, List.Forall₂ CutsAs (fields.map fun e => (Text.jsonQuoted e.1).toList ++ ':' :: f e.2) parts ∧
      (∀ readSource, List.Forall₂ (ReadsEntry readSource) parts pairs) ∧
      List.Forall₂ (SameEntry h.Yields) pairs fields := by
  induction fields with
  | nil => exact ⟨[], [], .nil, fun _ => .nil, .nil⟩
  | cons e fields ih =>
    obtain ⟨tokens, expr, he⟩ := hfields e List.mem_cons_self
    obtain ⟨parts, pairs, hcuts, hreads, hyields⟩ := ih fun e' he' => hfields e' (List.mem_cons_of_mem e he')
    refine ⟨(.string e.1 :: .punct .colon :: tokens) :: parts, (e.1, expr) :: pairs, .cons ?_ hcuts, fun readSource => ?_,
      .cons ⟨rfl, he.yields⟩ hyields⟩
    · exact (cutsAs_written (t := .string e.1) trivial).append (he.cuts.mark_append .colon fun _ => rfl)
        fun rest => free_mark .colon (by simp) _
    · exact .cons ⟨tokens, rfl, ((he.reads readSource).toInfix 0).toConditional.mono (by decide) |>.toAssignment⟩
        (hreads readSource)

theorem exists_denotes_scalar (hv : h.Plain v) (hc : isContainer v = false) (n : Nat) :
    ∃ tokens expr, h.Denotes (h.jsonWithin n v).toList tokens expr v := by
  cases hv with
  | null =>
    rw [jsonWithin]
    exact ⟨_, _, denotes_name (by decide) rfl rfl fun _ => .null⟩
  | bool b =>
    cases b with
    | false =>
      rw [jsonWithin]
      exact ⟨_, _, denotes_name (by decide) rfl rfl fun _ => .bool false⟩
    | true =>
      rw [jsonWithin]
      exact ⟨_, _, denotes_name (by decide) rfl rfl fun _ => .bool true⟩
  | number hx =>
    rw [jsonWithin, if_pos hx.1]
    exact exists_denotes_number hx
  | string s =>
    rw [jsonWithin]
    exact ⟨_, _, denotes_string s⟩
  | array | object => cases hc

theorem toList_jsonWithin_array (n : Nat) (r : ArrayRef) :
    (h.jsonWithin (n + 1) (.array r)).toList =
      '[' :: (List.intercalate [','] ((h.items r).toList.map fun w => (h.jsonWithin n w).toList) ++ [']']) := by
  rw [jsonWithin]
  simp [String.toList_intercalate, Function.comp_def]

theorem toList_jsonWithin_object (n : Nat) {r : ObjectRef}
    (hdefined : ∀ e ∈ (h.fields r).entries, e.2.isUndefined = false) :
    (h.jsonWithin (n + 1) (.object r)).toList =
      '\x7b' :: (List.intercalate [','] ((h.fields r).entries.map fun e =>
        (Text.jsonQuoted e.1).toList ++ ':' :: (h.jsonWithin n e.2).toList) ++ ['\x7d']) := by
  have hshown : ((h.fields r).entries.filter fun e => !e.2.isUndefined) = (h.fields r).entries :=
    List.filter_eq_self.2 fun e he => by rw [hdefined e he]; rfl
  rw [jsonWithin]
  simp only [hshown]
  simp [String.toList_intercalate, Function.comp_def]

/-- The JSON text of plain data denotes it. -/
theorem exists_denotes_json {n : Nat} (hv : h.Plain v) (hn : h.NestedWithin n v) :
    ∃ tokens expr, h.Denotes (h.jsonWithin n v).toList tokens expr v := by
  induction n generalizing v with
  | zero => exact exists_denotes_scalar hv hn 0
  | succ n ih =>
    cases hc : isContainer v with
    | false => exact exists_denotes_scalar hv hc (n + 1)
    | true =>
      have hinside : ∀ w ∈ h.values v, ∃ tokens expr, h.Denotes (h.jsonWithin n w).toList tokens expr w :=
        fun w hw => ih (hv.of_mem_values hw) (hn w hw)
      cases v with
      | array r =>
        obtain ⟨parts, exprs, hcuts, hreads, hyields⟩ := exists_denotes_all hinside
        rw [toList_jsonWithin_array]
        refine ⟨_, .array exprs, ?_, fun readSource => (reads_array (hreads readSource)).toPostfix.toUnary rfl,
          ⟨_, _, rfl, by simp⟩, yields_array (hv.has hc) hyields⟩
        exact ((CutsAs.separated hcuts).append_mark .rbracket (by simp)).mark_append .lbracket fun _ => rfl
      | object r =>
        have hentries : ∀ e ∈ (h.fields r).entries, ∃ tokens expr, h.Denotes (h.jsonWithin n e.2).toList tokens expr e.2 :=
          fun e he => hinside e.2 (List.mem_map_of_mem he)
        obtain ⟨parts, pairs, hcuts, hreads, hyields⟩ :=
          exists_denotes_entries (f := fun w => (h.jsonWithin n w).toList) hentries
        have hdefined : ∀ e ∈ (h.fields r).entries, e.2.isUndefined = false := fun e he => by
          have hplain := hv.of_mem_values (List.mem_map_of_mem he)
          cases heq : e.2 with
          | undefined => rw [heq] at hplain; cases hplain
          | _ => rfl
        rw [toList_jsonWithin_object n hdefined]
        refine ⟨_, .object pairs, ?_, fun readSource => (reads_object (hreads readSource)).toPostfix.toUnary rfl,
          ⟨_, _, rfl, by simp⟩, yields_object (hv.has hc) hyields⟩
        exact ((CutsAs.separated hcuts).append_mark .rbrace (by simp)).mark_append .lbrace fun _ => rfl
      | _ => cases hc

/-- The JSON text of plain data is a literal: it makes an equal value whose objects have their keys in the same order. -/
theorem literal_json (hv : h.Plain v) :
    ∃ w h', literal (h.json v) h = (.ok w, h') ∧ h.Extends h' ∧ h'.Alike w v ∧ h'.same w v = true := by
  obtain ⟨tokens, expr, hdenotes⟩ := exists_denotes_json hv hv.nestedWithin_depth
  have hcuts : Cuts (h.json v).toList (tokens ++ [.eof]) := by
    have hwhole := hdenotes.cuts [] [.eof] (fun c hc => by cases hc) cuts_nil
    rwa [List.append_nil] at hwhole
  obtain ⟨ts, hts, htokens⟩ := hcuts.tokens_eq
  rw [String.ofList_toList] at hts
  have hparse : parse (h.json v) = .ok expr := by
    rw [parse, parseNested, hts]
    exact parseTokens_of_reads (hdenotes.reads _).sequence_of_operand htokens
  obtain ⟨w, h', heval, hx, halike⟩ := hdenotes.yields h (.refl h)
  refine ⟨w, h', ?_, hx, halike h' (.refl h'), same_of_alike (halike h' (.refl h')) (hv.extends hx)⟩
  rw [literal, evaluate, hparse, evaluateRead, heval]
  rfl

/-- An array of a number, a string, an object and an empty array. -/
def nestedHeap : Heap :=
  ⟨#[#[.number (-1.5), .string "\n", .object ⟨0⟩, .array ⟨1⟩], #[]], #[.ofList [("b\"", .null), ("a", .bool true)]]⟩

example : nestedHeap.json (.array ⟨0⟩) = "[-1.5,\"\\n\",\x7b\"b\\\"\":null,\"a\":true\x7d,[]]" := by
  decide +kernel

theorem literal_json_nestedHeap :
    ∃ w h', literal (nestedHeap.json (.array ⟨0⟩)) nestedHeap = (.ok w, h') ∧ nestedHeap.Extends h' ∧
      h'.Alike w (.array ⟨0⟩) ∧ h'.same w (.array ⟨0⟩) = true := by
  have hnumber : ReadsBack (-1.5) := ⟨by decide +kernel, -1.5, by decide +kernel, by decide +kernel⟩
  have hobject : nestedHeap.Plain (.object ⟨0⟩) := by
    refine .object Nat.one_pos ?_
    show ∀ v ∈ [Value.null, Value.bool true], nestedHeap.Plain v
    simp only [List.forall_mem_cons]
    exact ⟨.null, .bool true, List.forall_mem_nil _⟩
  have hempty : nestedHeap.Plain (.array ⟨1⟩) := .array Nat.one_lt_two fun v hv => by cases hv
  have hitems : ∀ v ∈ [Value.number (-1.5), .string "\n", .object ⟨0⟩, .array ⟨1⟩], nestedHeap.Plain v := by
    simp only [List.forall_mem_cons]
    exact ⟨.number hnumber, .string "\n", hobject, hempty, List.forall_mem_nil _⟩
  exact literal_json (.array Nat.two_pos hitems)

end Heap

end ViewBinding
