import ViewBinding.Markup.StartTag
import ViewBinding.Text.Search

/-!
Cutting a text into texts, start tags, elements with raw text, and end tags.

Comments and declarations are dropped. Every step takes at least one character, as `next_length_lt` says.
-/
namespace ViewBinding.Markup

inductive Piece where
  | text (text : String)
  | start (tag : StartTag)
  /-- An element whose content is text only. -/
  | raw (tag : StartTag) (body : String)
  | stop (name : String)
  deriving Repr, DecidableEq

def isRawText (tag : String) : Bool := ["script", "style", "title", "textarea"].contains tag

/-- Of the raw texts these alone hold no character references. -/
def isVerbatim (tag : String) : Bool := ["script", "style"].contains tag

/-- The name of an end tag behind its slash. -/
def endTagAt (s : List Char) : Except ParseError (String × List Char) :=
  let s := Text.skipBlank s
  let name := lowered (s.takeWhile isNameChar)
  match (s.dropWhile isNameChar).dropWhile (· != '>') with
  | [] => .error (.unclosedEndTag name)
  | _ :: left => .ok (name, left)

/-- Whether the slash of an end tag of the element `name` stands just before. -/
def endsRaw (name : String) (s : List Char) : Bool :=
  let s := Text.skipBlank s
  let length := name.length
  lowered (s.take length) == name && !(s[length]?).any Text.isAsciiWord

/-- Raw text up to the end tag of its element, and what follows the slash of that tag. -/
def rawBody? (name : String) : List Char → Option (List Char × List Char)
  | [] => none
  | c :: rest =>
    if c = '<' ∧ rest.head? = some '/' ∧ endsRaw name (rest.drop 1) then some ([], rest.drop 1)
    else (rawBody? name rest).map fun (body, left) => (c :: body, left)

/-- An element from the name in its start tag on, with its content if that is raw text. -/
def elementAt (s : List Char) : Except ParseError (Piece × List Char) := do
  let (tag, left) ← startTagAt s
  if isRawText tag.name && !tag.selfClosing then
    match rawBody? tag.name left with
    | none => throw (.unclosedElement tag.name)
    | some (body, left) =>
      let (_, left) ← endTagAt left
      return (.raw tag (String.ofList (if isVerbatim tag.name then body else decode body)), left)
  else return (.start tag, left)

/-- What follows a declaration; a bracket inside quotes does not end it. -/
def skipDeclaration : Option Char → List Char → Except ParseError (List Char)
  | _, [] => .error .unclosedDeclaration
  | some q, c :: rest => skipDeclaration (if c = q then none else some q) rest
  | none, c :: rest =>
    if c = '>' then .ok rest
    else skipDeclaration (if c = '"' ∨ c = '\'' then some c else none) rest

def skipComment (s : List Char) : Except ParseError (List Char) :=
  match Text.find? "-->".toList s with
  | some i => .ok (s.drop (i + 3))
  | none => .error .unclosedComment

/-- A text that starts with `c` and ends before the next bracket. -/
def textFrom (c : Char) (s : List Char) : Piece :=
  .text (String.ofList (decode (c :: s.takeWhile (· != '<'))))

/-- The next piece, if it is not dropped, and what follows. -/
def next : List Char → Except ParseError (Option Piece × List Char)
  | [] => .ok (none, [])
  | '<' :: '!' :: '-' :: '-' :: rest => do return (none, ← skipComment rest)
  | '<' :: '/' :: rest => do
    let (name, left) ← endTagAt rest
    return (some (.stop name), left)
  | '<' :: '!' :: rest => do return (none, ← skipDeclaration none rest)
  | '<' :: c :: rest =>
    if Text.isAsciiLetter c then do
      let (piece, left) ← elementAt (c :: rest)
      return (some piece, left)
    else .ok (some (textFrom '<' (c :: rest)), (c :: rest).dropWhile (· != '<'))
  | c :: rest => .ok (some (textFrom c rest), rest.dropWhile (· != '<'))

theorem length_endTagAt_le {s left : List Char} {name : String} (h : endTagAt s = .ok (name, left)) :
    left.length ≤ s.length := by
  unfold endTagAt at h
  simp only [] at h
  have h1 := length_skipBlank_le s
  have h2 := length_dropWhile_le isNameChar (Text.skipBlank s)
  have h3 := length_dropWhile_le (· != '>') ((Text.skipBlank s).dropWhile isNameChar)
  split at h
  · simp at h
  · rename_i d tail heq
    obtain ⟨-, rfl⟩ := Prod.mk.inj (Except.ok.inj h)
    rw [heq] at h3
    simp only [List.length_cons] at h3
    omega

theorem length_rawBody_le (name : String) {s body left : List Char}
    (h : rawBody? name s = some (body, left)) : left.length ≤ s.length := by
  induction s generalizing body with
  | nil => simp [rawBody?] at h
  | cons c rest ih =>
    simp only [rawBody?] at h
    split at h
    · obtain ⟨-, rfl⟩ := Prod.mk.inj (Option.some.inj h)
      simp only [List.length_drop, List.length_cons]
      omega
    · obtain ⟨⟨body', left'⟩, hb, he⟩ := Option.map_eq_some_iff.1 h
      obtain ⟨-, rfl⟩ := Prod.mk.inj he
      exact Nat.le_succ_of_le (ih hb)

theorem length_skipDeclaration_le {q : Option Char} {s left : List Char}
    (h : skipDeclaration q s = .ok left) : left.length ≤ s.length := by
  induction s generalizing q with
  | nil => cases q <;> simp [skipDeclaration] at h
  | cons c rest ih =>
    cases q with
    | some q =>
      have := ih h
      simp only [List.length_cons]
      omega
    | none =>
      simp only [skipDeclaration] at h
      split at h
      · obtain rfl := Except.ok.inj h
        simp
      · have := ih h
        simp only [List.length_cons]
        omega

theorem length_skipComment_le {s left : List Char} (h : skipComment s = .ok left) :
    left.length ≤ s.length := by
  unfold skipComment at h
  split at h
  · obtain rfl := Except.ok.inj h
    simp
  · simp at h

theorem elementAt_length_lt {c : Char} {rest left : List Char} {piece : Piece}
    (hc : isNameChar c = true) (h : elementAt (c :: rest) = .ok (piece, left)) :
    left.length < (c :: rest).length := by
  unfold elementAt at h
  cases ht : startTagAt (c :: rest) with
  | error e => simp [ht, bind, Except.bind] at h
  | ok p =>
    obtain ⟨tag, left₁⟩ := p
    have hlt := startTagAt_length_lt hc ht
    simp only [ht, bind, Except.bind] at h
    split at h
    · cases hr : rawBody? tag.name left₁ with
      | none => simp [hr, throw, throwThe, MonadExceptOf.throw] at h
      | some q =>
        obtain ⟨body, left₂⟩ := q
        have h₂ := length_rawBody_le _ hr
        simp only [hr] at h
        cases he : endTagAt left₂ with
        | error e => simp [he] at h
        | ok r =>
          obtain ⟨name, left₃⟩ := r
          have h₃ := length_endTagAt_le he
          simp only [he, pure, Except.pure, Except.ok.injEq, Prod.mk.injEq] at h
          obtain ⟨-, rfl⟩ := h
          omega
    · simp only [pure, Except.pure, Except.ok.injEq, Prod.mk.injEq] at h
      obtain ⟨-, rfl⟩ := h
      exact hlt

theorem isNameChar_of_isAsciiLetter {c : Char} (h : Text.isAsciiLetter c = true) :
    isNameChar c = true := by
  simp [isNameChar, Text.isAsciiWord, h]

theorem next_length_lt {c : Char} {rest left : List Char} {found : Option Piece}
    (h : next (c :: rest) = .ok (found, left)) : left.length < (c :: rest).length := by
  unfold next at h
  split at h
  · simp_all
  · rename_i tail heq
    cases hs : skipComment tail with
    | error e => simp [hs, bind, Except.bind] at h
    | ok left' =>
      have := length_skipComment_le hs
      simp only [hs, bind, Except.bind, pure, Except.pure, Except.ok.injEq, Prod.mk.injEq] at h
      obtain ⟨-, rfl⟩ := h
      simp only [heq, List.length_cons]
      omega
  · rename_i tail heq
    cases hs : endTagAt tail with
    | error e => simp [hs, bind, Except.bind] at h
    | ok p =>
      obtain ⟨name, left'⟩ := p
      have := length_endTagAt_le hs
      simp only [hs, bind, Except.bind, pure, Except.pure, Except.ok.injEq, Prod.mk.injEq] at h
      obtain ⟨-, rfl⟩ := h
      simp only [heq, List.length_cons]
      omega
  · rename_i tail _ heq
    cases hs : skipDeclaration none tail with
    | error e => simp [hs, bind, Except.bind] at h
    | ok left' =>
      have := length_skipDeclaration_le hs
      simp only [hs, bind, Except.bind, pure, Except.pure, Except.ok.injEq, Prod.mk.injEq] at h
      obtain ⟨-, rfl⟩ := h
      simp only [heq, List.length_cons]
      omega
  · rename_i d tail _ _ _ heq
    split at h
    · rename_i hd
      cases hs : elementAt (d :: tail) with
      | error e => simp [hs, bind, Except.bind] at h
      | ok p =>
        obtain ⟨piece, left'⟩ := p
        have := elementAt_length_lt (isNameChar_of_isAsciiLetter hd) hs
        simp only [hs, bind, Except.bind, pure, Except.pure, Except.ok.injEq, Prod.mk.injEq] at h
        obtain ⟨-, rfl⟩ := h
        simp only [heq, List.length_cons] at this ⊢
        omega
    · have := length_dropWhile_le (· != '<') (d :: tail)
      obtain ⟨-, rfl⟩ := Prod.mk.inj (Except.ok.inj h)
      simp only [heq, List.length_cons] at this ⊢
      omega
  · rename_i d tail _ _ _ _ heq
    have := length_dropWhile_le (· != '<') tail
    obtain ⟨-, rfl⟩ := Prod.mk.inj (Except.ok.inj h)
    simp only [heq, List.length_cons]
    omega

/-- The pieces of a text. -/
def pieces (s : List Char) : Except ParseError (List Piece) :=
  match s with
  | [] => .ok []
  | c :: rest =>
    match _h : next (c :: rest) with
    | .error e => .error e
    | .ok (found, left) => do
      let more ← pieces left
      return found.toList ++ more
termination_by s.length
decreasing_by exact next_length_lt _h

end ViewBinding.Markup
