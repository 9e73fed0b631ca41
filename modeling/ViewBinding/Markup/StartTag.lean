import ViewBinding.Markup.Attributes
import ViewBinding.Markup.Error
import ViewBinding.Markup.Reference
import ViewBinding.Text.Class

/-!
Start tags: a name, attributes, and a bracket with or without a slash.

Characters that belong to no attribute are skipped. Every step takes at least one character, as
`attributeAt_length_lt` says.
-/
namespace ViewBinding.Markup

structure StartTag where
  name : String
  attrs : Attributes
  selfClosing : Bool
  deriving Repr, DecidableEq

def isNameChar (c : Char) : Bool := Text.isAsciiWord c || c == '-' || c == '_'

def isAttributeChar (c : Char) : Bool := isNameChar c || c == ':' || c == '.' || c == '@'

def lowered (name : List Char) : String := String.ofList (name.map Char.toLower)

/-- Splits before the first blank, `>` or `/>`. -/
def unquoted : List Char → List Char × List Char
  | [] => ([], [])
  | c :: rest =>
    if Text.isAsciiBlank c || c == '>' || (c == '/' && rest.head? == some '>') then ([], c :: rest)
    else
      let (taken, left) := unquoted rest
      (c :: taken, left)

/-- An attribute value behind the equals sign. -/
def attributeValue (s : List Char) : Except ParseError (List Char × List Char) :=
  match s with
  | [] => .error .missingValue
  | c :: rest =>
    if c = '"' ∨ c = '\'' then
      match rest.dropWhile (· != c) with
      | [] => .error .unclosedValue
      | _ :: left => .ok (decode (rest.takeWhile (· != c)), left)
    else .ok (decode (unquoted s).1, (unquoted s).2)

/-- An attribute, or the stray characters in front of one. -/
def attributeAt (s : List Char) : Except ParseError (Option (String × String) × List Char) :=
  let name := s.takeWhile isAttributeChar
  if name.isEmpty then .ok (none, (unquoted s).2)
  else
    match Text.skipBlank (s.dropWhile isAttributeChar) with
    | '=' :: rest => do
      let (value, left) ← attributeValue (Text.skipBlank rest)
      return (some (lowered name, String.ofList value), left)
    | rest => .ok (some (lowered name, ""), rest)

/-- Whether a start tag ends here. -/
def endsTag : List Char → Bool
  | '>' :: _ => true
  | '/' :: '>' :: _ => true
  | _ => false

theorem length_dropWhile_le {α : Type} (p : α → Bool) (s : List α) :
    (s.dropWhile p).length ≤ s.length :=
  (List.dropWhile_sublist p).length_le

theorem length_skipBlank_le (s : List Char) : (Text.skipBlank s).length ≤ s.length :=
  length_dropWhile_le _ s

theorem length_unquoted_le (s : List Char) : (unquoted s).2.length ≤ s.length := by
  induction s with
  | nil => simp [unquoted]
  | cons c rest ih =>
    simp only [unquoted]
    split
    · simp
    · simp only [List.length_cons]
      omega

theorem length_unquoted_lt {c : Char} {rest : List Char} (hb : Text.isAsciiBlank c = false)
    (he : endsTag (c :: rest) = false) : (unquoted (c :: rest)).2.length < (c :: rest).length := by
  have hstop : (Text.isAsciiBlank c || c == '>' || (c == '/' && rest.head? == some '>')) = false := by
    rw [hb, Bool.false_or, Bool.or_eq_false_iff]
    refine ⟨beq_eq_false_iff_ne.2 fun h => by simp [endsTag, h] at he, ?_⟩
    rw [Bool.and_eq_false_iff, beq_eq_false_iff_ne, beq_eq_false_iff_ne]
    by_cases hc : c = '/'
    · refine Or.inr fun h => ?_
      cases rest with
      | nil => simp at h
      | cons d rest => simp at h; simp [endsTag, hc, h] at he
    · exact Or.inl hc
  have := length_unquoted_le rest
  simp only [unquoted, hstop, Bool.false_eq_true, if_false, List.length_cons]
  omega

theorem length_attributeValue_le {s value left : List Char}
    (h : attributeValue s = .ok (value, left)) : left.length ≤ s.length := by
  unfold attributeValue at h
  split at h
  · simp at h
  · rename_i c rest
    have hq := length_dropWhile_le (· != c) rest
    split at h
    · split at h
      · simp at h
      · rename_i d tail heq
        obtain ⟨-, rfl⟩ := Prod.mk.inj (Except.ok.inj h)
        rw [heq] at hq
        simp only [List.length_cons] at hq ⊢
        omega
    · obtain ⟨-, rfl⟩ := Prod.mk.inj (Except.ok.inj h)
      exact length_unquoted_le _

theorem attributeAt_length_lt {c : Char} {rest left : List Char} {found : Option (String × String)}
    (hb : Text.isAsciiBlank c = false) (he : endsTag (c :: rest) = false)
    (h : attributeAt (c :: rest) = .ok (found, left)) : left.length < (c :: rest).length := by
  unfold attributeAt at h
  by_cases hname : ((c :: rest).takeWhile isAttributeChar).isEmpty
  · simp only [hname, if_true] at h
    obtain ⟨-, rfl⟩ := Prod.mk.inj (Except.ok.inj h)
    exact length_unquoted_lt hb he
  · have hdrop : ((c :: rest).dropWhile isAttributeChar).length < (c :: rest).length := by
      have hc : isAttributeChar c = true := by
        by_cases hc : isAttributeChar c
        · exact hc
        · simp [hc] at hname
      have := length_dropWhile_le isAttributeChar rest
      simp only [List.dropWhile_cons, hc, if_true, List.length_cons]
      omega
    have hskip := length_skipBlank_le ((c :: rest).dropWhile isAttributeChar)
    simp only [hname, Bool.false_eq_true, if_false] at h
    split at h
    · rename_i tail heq
      rw [heq] at hskip
      have htail := length_skipBlank_le tail
      cases hv : attributeValue (Text.skipBlank tail) with
      | error e => simp [hv, bind, Except.bind] at h
      | ok p =>
        obtain ⟨value, left'⟩ := p
        have hle := length_attributeValue_le hv
        simp only [hv, bind, Except.bind, pure, Except.pure] at h
        obtain ⟨-, rfl⟩ := Prod.mk.inj (Except.ok.inj h)
        simp only [List.length_cons] at hskip hdrop ⊢
        omega
    · obtain ⟨-, rfl⟩ := Prod.mk.inj (Except.ok.inj h)
      omega

theorem not_isBlank_head_skipBlank {s : List Char} {c : Char} {rest : List Char}
    (h : Text.skipBlank s = c :: rest) : Text.isAsciiBlank c = false := by
  have := List.head?_dropWhile_not Text.isAsciiBlank s
  rw [show s.dropWhile Text.isAsciiBlank = c :: rest from h] at this
  simpa using this

/-- The attributes up to the end of a start tag, whether a slash ends it, and what follows. -/
def attributesAt (tag : String) (s : List Char) :
    Except ParseError (List (String × String) × Bool × List Char) :=
  match _hs : Text.skipBlank s with
  | [] => .error (.unclosedStartTag tag)
  | c :: rest =>
    if _he : endsTag (c :: rest) then
      if c = '>' then .ok ([], false, rest) else .ok ([], true, rest.drop 1)
    else
      match _ha : attributeAt (c :: rest) with
      | .error e => .error e
      | .ok (found, left) => do
        let (more, selfClosing, left) ← attributesAt tag left
        return (found.toList ++ more, selfClosing, left)
termination_by s.length
decreasing_by
  have hlt := attributeAt_length_lt (not_isBlank_head_skipBlank _hs) (by simpa using _he) _ha
  have hle := length_skipBlank_le s
  rw [_hs] at hle
  omega

theorem length_attributesAt_le (tag : String) (s : List Char) {found : List (String × String)}
    {selfClosing : Bool} {left : List Char}
    (h : attributesAt tag s = .ok (found, selfClosing, left)) : left.length ≤ s.length := by
  induction hn : s.length using Nat.strongRecOn generalizing s found with
  | _ n ih =>
    subst hn
    have hle := length_skipBlank_le s
    rw [attributesAt] at h
    split at h
    · simp at h
    · rename_i c rest hs
      rw [hs] at hle
      split at h
      · split at h
        · obtain ⟨-, -, rfl⟩ := by simpa using h
          simp only [List.length_cons] at hle
          omega
        · obtain ⟨-, -, rfl⟩ := by simpa using h
          simp only [List.length_cons, List.length_tail] at hle ⊢
          omega
      · rename_i he
        split at h
        · simp at h
        · rename_i first rest' ha
          have hlt := attributeAt_length_lt (not_isBlank_head_skipBlank hs) (by simpa using he) ha
          cases hm : attributesAt tag rest' with
          | error e => simp [hm, bind, Except.bind] at h
          | ok p =>
            obtain ⟨more, closing, left'⟩ := p
            simp only [hm, bind, Except.bind, pure, Except.pure, Except.ok.injEq, Prod.mk.injEq] at h
            obtain ⟨-, rfl, rfl⟩ := h
            have := ih _ (by omega) rest' hm rfl
            omega

/-- A start tag behind its opening bracket. -/
def startTagAt (s : List Char) : Except ParseError (StartTag × List Char) := do
  let name := lowered (s.takeWhile isNameChar)
  let (attrs, selfClosing, left) ← attributesAt name (s.dropWhile isNameChar)
  return (⟨name, .ofList attrs, selfClosing⟩, left)

theorem startTagAt_length_lt {c : Char} {rest left : List Char} {tag : StartTag}
    (hc : isNameChar c = true) (h : startTagAt (c :: rest) = .ok (tag, left)) :
    left.length < (c :: rest).length := by
  unfold startTagAt at h
  simp only [List.dropWhile_cons, hc, if_true] at h
  generalize lowered ((c :: rest).takeWhile isNameChar) = name at h
  cases ha : attributesAt name (rest.dropWhile isNameChar) with
  | error e => simp [ha, bind, Except.bind] at h
  | ok p =>
    obtain ⟨attrs, closing, left'⟩ := p
    simp only [ha, bind, Except.bind, pure, Except.pure, Except.ok.injEq, Prod.mk.injEq] at h
    obtain ⟨-, rfl⟩ := h
    have h1 := length_attributesAt_le _ _ ha
    have h2 := length_dropWhile_le isNameChar rest
    simp only [List.length_cons]
    omega

end ViewBinding.Markup
