import ViewBinding.Proofs.Expr.Locality
import ViewBinding.Proofs.Expr.Spelled

/-! The bound on nested templates. A substitution is shorter than the text around it, and a higher bound changes nothing that is
read, so whatever stands in a substitution is read there as it is read by itself. -/
namespace ViewBinding.Expr

open Markup (exists_of_bind_eq_ok)

/-- Whether every substitution in a token is shorter than `n`. -/
def SourcesBelow (n : Nat) (t : Token) : Prop :=
  ∀ parts, t = .template parts → ∀ source, .source source ∈ parts → source.length < n

theorem SourcesBelow.mono {m n : Nat} {t : Token} (h : SourcesBelow m t) (hmn : m ≤ n) : SourcesBelow n t :=
  fun parts hparts source hsource => (h parts hparts source hsource).trans_le hmn

section
variable {cur next : Cursor} {source : List Char} {parts : List TemplatePart}

theorem mem_consText {c : Char} : .source source ∈ consText c parts ↔ .source source ∈ parts := by
  unfold consText
  split <;> simp

theorem length_upTo_le (start stop : Cursor) : (start.upTo stop).length ≤ start.rest.length := List.length_take_le' _ _

theorem length_source_le {start fuel : Nat} (h : templateBody start fuel cur = .ok (parts, next))
    (hsource : .source source ∈ parts) : source.length ≤ cur.rest.length := by
  induction fuel generalizing cur parts with
  | zero => cases h
  | succ fuel ih =>
    rw [templateBody] at h
    cases hrest : cur.rest with
    | nil => simp [Cursor.next?, hrest] at h
    | cons c rest =>
      simp only [Cursor.next?, hrest] at h
      rw [List.length_cons]
      split_ifs at h with hend hback hhole
      · cases h
        cases hsource
      · obtain ⟨⟨d, inner⟩, hescape, h⟩ := exists_of_bind_eq_ok h
        obtain ⟨⟨more, next⟩, hread, h⟩ := exists_of_bind_eq_ok h
        cases h
        obtain ⟨text, htext, -⟩ := escape_spec (.inr (.inr rfl)) hescape
        have hmore : source.length ≤ inner.rest.length := ih hread (mem_consText.1 hsource)
        have hlength : rest.length = text.length + inner.rest.length := by rw [← List.length_append, ← htext]
        omega
      · obtain ⟨stop, hstop, h⟩ := exists_of_bind_eq_ok h
        obtain ⟨⟨more, next⟩, hread, h⟩ := exists_of_bind_eq_ok h
        cases h
        obtain ⟨inner, behind, hinner, hbehind⟩ := (quotations fuel).substitution hstop
        have hdrop : (rest.drop 1).length ≤ rest.length := (List.drop_sublist 1 rest).length_le
        rcases List.mem_cons.1 hsource with he | hmem
        · cases he
          exact ((length_upTo_le _ stop).trans hdrop).trans (Nat.le_succ _)
        · have hmore := ih hread hmem
          have hstop : (stop.drop 1).rest.length ≤ behind.length := by rw [Cursor.drop, hbehind]; rfl
          have hlength := congrArg List.length hinner
          simp only [Cursor.drop, List.length_append, List.length_cons] at hlength hstop hmore
          omega
      · obtain ⟨⟨more, next⟩, hread, h⟩ := exists_of_bind_eq_ok h
        cases h
        exact (ih hread (mem_consText.1 hsource)).trans (Nat.le_succ _)

theorem sourcesBelow_of_tokenAt {c : Char} {t : Token} (hc : cur.peek? = some c) (h : tokenAt c cur = .ok (t, next)) :
    SourcesBelow cur.rest.length t := by
  rintro parts rfl source hsource
  obtain ⟨rest, hrest⟩ := List.head?_eq_some_iff.1 hc
  unfold tokenAt at h
  split_ifs at h with hnumber hquote htemplate hname
  · obtain ⟨⟨x, next⟩, hread, h⟩ := exists_of_bind_eq_ok h
    cases h
  · obtain ⟨⟨value, next⟩, hread, h⟩ := exists_of_bind_eq_ok h
    cases h
  · obtain ⟨⟨parts, next⟩, hread, h⟩ := exists_of_bind_eq_ok h
    cases h
    have hle := length_source_le hread hsource
    rw [Cursor.drop, hrest, List.drop_one, List.tail_cons] at hle
    rw [hrest, List.length_cons]
    exact Nat.lt_succ_of_le hle
  · cases h
  · split at h <;> cases h

theorem sourcesBelow_of_tokensFrom {fuel : Nat} {ts : List Located} (h : tokensFrom fuel cur = .ok ts) :
    ∀ t ∈ ts, SourcesBelow cur.rest.length t.token := by
  induction fuel generalizing cur ts with
  | zero =>
    cases h
    intro t ht parts hparts
    rw [List.mem_singleton.1 ht] at hparts
    cases hparts
  | succ fuel ih =>
    rw [tokensFrom] at h
    dsimp only at h
    have hcur : (cur.span Text.isBlank).2.rest.length ≤ cur.rest.length := List.length_dropWhile_le ..
    split at h
    · cases h
      intro t ht parts hparts
      rw [List.mem_singleton.1 ht] at hparts
      cases hparts
    · next c hc =>
      obtain ⟨⟨first, next⟩, hread, h⟩ := exists_of_bind_eq_ok h
      obtain ⟨more, hmore, h⟩ := exists_of_bind_eq_ok h
      cases h
      obtain ⟨lexeme, hlexeme, -⟩ := lexeme_of_tokenAt hc hread
      have hlength := congrArg List.length hlexeme
      rw [List.length_append] at hlength
      intro t ht
      rcases List.mem_cons.1 ht with rfl | ht
      · exact (sourcesBelow_of_tokenAt hc hread).mono hcur
      · exact (ih hmore t ht).mono (show next.rest.length ≤ cur.rest.length by omega)

end

theorem sourcesBelow_of_tokens {source : String} {ts : List Located} (h : tokens source = .ok ts) :
    ∀ t ∈ ts, SourcesBelow source.length t.token := by
  rw [← String.length_toList]
  exact sourcesBelow_of_tokensFrom h

section
variable {readSource readSource' : String → Except ParseError Expr} {expr : Expr}

/-- Tokens that are read on their own as an operand are read so in front of whatever does not go on with it. -/
theorem readsUnary_of_unaryExpr {fuel : Nat} {ts : List Located} (h : unaryExpr readSource fuel ts = .ok (expr, []))
    (hagrees : Agrees readSource readSource' (ts.map (·.token))) :
    ReadsUnary readSource' (ts.map (·.token)) expr := by
  intro fuel' ts' rest' hfuel hts' hrest
  obtain ⟨used, hused, -, hread⟩ := (firmReaders readSource readSource' fuel).unary ts expr [] h
  obtain rfl : ts = used := by rw [hused, List.append_nil]
  rw [List.length_map] at hfuel
  exact hread hagrees fuel' ts' rest' hfuel hts' (.inr ⟨fun t ht => (by cases ht), hrest⟩)

theorem Agrees.parseTokens {ts : List Located} (hagrees : Agrees readSource readSource' (ts.map (·.token)))
    (h : Expr.parseTokens readSource ts = .ok expr) : Expr.parseTokens readSource' ts = .ok expr := by
  unfold Expr.parseTokens at h ⊢
  obtain ⟨⟨first, rest⟩, hread, h⟩ := exists_of_bind_eq_ok h
  obtain ⟨used, rfl, -, hfirm⟩ := (firmReaders readSource readSource' _).sequence ts first rest hread
  rw [List.map_append] at hagrees
  have hagain := hfirm (hagrees.mono (List.subset_append_left _ _)) (10 * (used ++ rest).length + 10) used rest
    (by rw [List.length_append]; omega) rfl (.inl rfl)
  rw [hread] at h
  rw [hagain]
  exact h

end

theorem parseNested_mono {d n : Nat} {source : String} {expr : Expr} (h : parseNested d source = .ok expr) (hd : d ≤ n) :
    parseNested n source = .ok expr := by
  induction d generalizing n source expr with
  | zero => cases h
  | succ d ih =>
    obtain ⟨n, rfl⟩ : ∃ k, n = k + 1 := ⟨n - 1, by omega⟩
    rw [parseNested] at h ⊢
    obtain ⟨ts, hts, h⟩ := exists_of_bind_eq_ok h
    rw [hts]
    exact Agrees.parseTokens (fun _ _ _ _ _ hread => ih hread (by omega)) h

/-- In the tokens of a text a substitution is read as it is read by itself. -/
theorem agrees_parse {source : String} {ts : List Located} (h : tokens source = .ok ts) :
    Agrees parse (parseNested source.length) (ts.map (·.token)) := by
  intro parts hparts inner hinner expr hread
  obtain ⟨t, ht, he⟩ := List.mem_map.1 hparts
  have hlt := sourcesBelow_of_tokens h t ht parts he inner hinner
  rw [parse, String.length_ofList] at hread
  exact parseNested_mono hread hlt

end ViewBinding.Expr
