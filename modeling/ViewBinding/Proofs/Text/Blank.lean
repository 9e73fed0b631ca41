import Mathlib.Data.List.TakeWhile
import Mathlib.Tactic
import ViewBinding.Expr.Scan
import ViewBinding.Text.Class

/-! Cutting a text at its separators and trimming the pieces lose nothing but the separators and white space. -/
namespace ViewBinding

namespace Text

variable {separator : Char → Bool}

theorem splitOn_ne_nil (separator : Char → Bool) (text : List Char) : splitOn separator text ≠ [] := by
  cases text with
  | nil => simp [splitOn]
  | cons c rest =>
    rw [splitOn]
    split
    · simp
    · split <;> simp

theorem splitOn_of_forall {text : List Char} (h : ∀ c ∈ text, separator c = false) :
    splitOn separator text = [text] := by
  induction text with
  | nil => rfl
  | cons c rest ih =>
    rw [splitOn, h c (by simp), ih fun d hd => h d (by simp [hd])]
    rfl

theorem splitOn_append_cons {s : Char} (hs : separator s = true) (a b : List Char) :
    splitOn separator (a ++ s :: b) = splitOn separator a ++ splitOn separator b := by
  induction a with
  | nil => simp [splitOn, hs]
  | cons c a ih =>
    rw [List.cons_append, splitOn, splitOn, ih]
    split
    · rfl
    · cases h : splitOn separator a with
      | nil => exact absurd h (splitOn_ne_nil separator a)
      | cons piece pieces => rfl

theorem words_append_cons {s : Char} (hs : separator s = true) (a b : List Char) :
    words separator (a ++ s :: b) = words separator a ++ words separator b := by
  rw [words, splitOn_append_cons hs, List.filter_append, words, words]

theorem words_of_forall {text : List Char} (hne : text ≠ []) (h : ∀ c ∈ text, separator c = false) :
    words separator text = [text] := by
  rw [words, splitOn_of_forall h]
  simp [hne]

/-- What is trimmed away on both sides is white space. -/
theorem exists_trim (text : List Char) : ∃ front behind, text = front ++ trim text ++ behind ∧
    (∀ c ∈ front, isBlank c = true) ∧ ∀ c ∈ behind, isBlank c = true := by
  refine ⟨text.takeWhile isBlank, ((text.dropWhile isBlank).reverse.takeWhile isBlank).reverse, ?_,
    fun c hc => List.mem_takeWhile_imp hc, fun c hc => List.mem_takeWhile_imp (List.mem_reverse.1 hc)⟩
  rw [trim, trimBy, trimStart, trimEnd, List.append_assoc, ← List.reverse_append, List.takeWhile_append_dropWhile,
    List.reverse_reverse, List.takeWhile_append_dropWhile]

/-- A text with something else than white space in it is not trimmed away. -/
theorem trim_ne_nil {text : List Char} {c : Char} (hc : c ∈ text) (h : isBlank c = false) : trim text ≠ [] := by
  obtain ⟨front, behind, htext, hfront, hbehind⟩ := exists_trim text
  intro hnil
  rw [hnil, List.append_nil] at htext
  rw [htext] at hc
  have hblank := (List.mem_append.1 hc).elim (hfront c) (hbehind c)
  rw [h] at hblank
  cases hblank

theorem dropWhile_of_head {p : Char → Bool} {text : List Char} (h : ∀ c ∈ text.head?, p c = false) :
    text.dropWhile p = text := by
  cases text with
  | nil => rfl
  | cons c text => rw [List.dropWhile_cons, h c rfl]; rfl

theorem takeWhile_of_head {p : Char → Bool} {text : List Char} (h : ∀ c ∈ text.head?, p c = false) :
    text.takeWhile p = [] := by
  cases text with
  | nil => rfl
  | cons c text => rw [List.takeWhile_cons, h c rfl]; rfl

/-- A text without white space at its ends is trimmed. -/
theorem trim_of_ends {text : List Char} (hhead : ∀ c ∈ text.head?, isBlank c = false)
    (hlast : ∀ c ∈ text.getLast?, isBlank c = false) : trim text = text := by
  rw [trim, trimBy, trimStart, trimEnd, dropWhile_of_head hhead,
    dropWhile_of_head (by simpa [List.head?_reverse] using hlast), List.reverse_reverse]

/-- White space around such a text is what is trimmed away. -/
theorem trim_append {front text behind : List Char} (hfront : ∀ c ∈ front, isBlank c = true)
    (hbehind : ∀ c ∈ behind, isBlank c = true) (hne : text ≠ []) (hhead : ∀ c ∈ text.head?, isBlank c = false)
    (hlast : ∀ c ∈ text.getLast?, isBlank c = false) : trim (front ++ text ++ behind) = text := by
  have hstart : (front ++ (text ++ behind)).dropWhile isBlank = text ++ behind := by
    rw [List.dropWhile_append_of_pos hfront, dropWhile_of_head]
    rwa [List.head?_append_of_ne_nil _ hne]
  have hend : (behind.reverse ++ text.reverse).dropWhile isBlank = text.reverse := by
    rw [List.dropWhile_append_of_pos fun c hc => hbehind c (List.mem_reverse.1 hc), dropWhile_of_head]
    rwa [List.head?_reverse]
  rw [trim, trimBy, trimStart, trimEnd, List.append_assoc, hstart, List.reverse_append, hend, List.reverse_reverse]

theorem trim_of_forall {text : List Char} (h : ∀ c ∈ text, isBlank c = false) : trim text = text :=
  trim_of_ends (fun c hc => h c (List.mem_of_mem_head? hc)) fun c hc => h c (List.mem_of_mem_getLast? hc)

end Text

end ViewBinding

/-! White space is apart from the characters of names. -/
namespace ViewBinding

namespace Text

/-- No code point is in two classes. -/
def Ranges.apart (a b : Ranges) : Bool :=
  a.entries.toList.all fun x => b.entries.toList.all fun y => decide (x.2 < y.1) || decide (y.2 < x.1)

theorem Ranges.not_contains_of_apart {a b : Ranges} {c : Char} (h : a.apart b = true)
    (hc : a.contains c = true) : b.contains c = false := by
  by_contra hb
  rw [Bool.not_eq_false] at hb
  simp only [contains, Array.any_toList.symm, List.any_eq_true, Bool.and_eq_true, decide_eq_true_eq] at hc hb
  obtain ⟨x, hx, hx₁, hx₂⟩ := hc
  obtain ⟨y, hy, hy₁, hy₂⟩ := hb
  have hxy := List.all_eq_true.1 (List.all_eq_true.1 h x hx) y hy
  simp only [Bool.or_eq_true, decide_eq_true_eq] at hxy
  omega

/-- Tables that are apart when they are read from the characters of their texts. -/
theorem Ranges.apart_ofTable {s t : String} (h : ∃ a b, s = String.ofList a ∧ t = String.ofList b ∧
    (ofChars a).apart (ofChars b) = true) : (ofTable s).apart (ofTable t) = true := by
  obtain ⟨a, b, rfl, rfl, h⟩ := h
  rwa [ofTable, ofTable, String.toList_ofList, String.toList_ofList]

set_option maxRecDepth 100000 in
theorem apart_alphabetic : whiteSpace.apart alphabetic = true := Ranges.apart_ofTable ⟨_, _, rfl, rfl, by decide +kernel⟩

set_option maxRecDepth 100000 in
theorem apart_numeric : whiteSpace.apart numeric = true := Ranges.apart_ofTable ⟨_, _, rfl, rfl, by decide +kernel⟩

set_option maxRecDepth 100000 in
theorem apart_word : whiteSpace.apart word = true := Ranges.apart_ofTable ⟨_, _, rfl, rfl, by decide +kernel⟩

theorem isAscii_of_isAsciiLetter {c : Char} (h : isAsciiLetter c = true) : isAscii c = true := by
  simp only [isAsciiLetter, Bool.or_eq_true, Bool.and_eq_true, decide_eq_true_eq, Char.le_def,
    UInt32.le_iff_toNat_le] at h
  have hle : c.toNat ≤ 122 := by
    rcases h with h | h
    · exact h.2
    · exact h.2.trans (by decide)
  exact decide_eq_true (by omega)

theorem mem_or_contains_of_isBlank {c : Char} (h : isBlank c = true) :
    c ∈ [' ', '\t', '\n', '\x0c', '\r', '\x0b'] ∨ isAscii c = false ∧ whiteSpace.contains c = true := by
  unfold isBlank at h
  split at h
  · left
    simpa [isAsciiBlank, or_assoc] using h
  · next hascii => exact .inr ⟨by simpa using hascii, h⟩

/-- White space is neither a letter nor a digit. -/
theorem isAlphanumeric_of_isBlank {c : Char} (h : isBlank c = true) : isAlphanumeric c = false := by
  rcases mem_or_contains_of_isBlank h with hmem | ⟨hascii, hspace⟩
  · have hnone : [' ', '\t', '\n', '\x0c', '\r', '\x0b'].all (!isAlphanumeric ·) = true := by decide
    simpa using List.all_eq_true.1 hnone c hmem
  · rw [isAlphanumeric, hascii, Ranges.not_contains_of_apart apart_alphabetic hspace,
      Ranges.not_contains_of_apart apart_numeric hspace]
    rfl

theorem isWord_of_isBlank {c : Char} (h : isBlank c = true) : isWord c = false := by
  rcases mem_or_contains_of_isBlank h with hmem | ⟨hascii, hspace⟩
  · have hnone : [' ', '\t', '\n', '\x0c', '\r', '\x0b'].all (!isWord ·) = true := by decide
    simpa using List.all_eq_true.1 hnone c hmem
  · rw [isWord, hascii, Ranges.not_contains_of_apart apart_word hspace]
    rfl

theorem isAlphanumeric_of_isAlphabetic {c : Char} (h : isAlphabetic c = true) : isAlphanumeric c = true := by
  unfold isAlphabetic at h
  unfold isAlphanumeric
  split at h
  · next hascii => simp [hascii, isAsciiWord, h]
  · next hascii => simp [hascii, h]

end Text

namespace Expr

variable {c : Char}

theorem isIdentContinue_of_isIdentStart (h : isIdentStart c = true) : isIdentContinue c = true := by
  simp only [isIdentStart, isIdentContinue, Bool.or_eq_true] at h ⊢
  exact h.imp_right Text.isAlphanumeric_of_isAlphabetic

theorem not_isIdentContinue_of_isBlank (h : Text.isBlank c = true) : isIdentContinue c = false := by
  rw [isIdentContinue, Text.isAlphanumeric_of_isBlank h, Bool.or_false, Bool.or_eq_false_iff, beq_eq_false_iff_ne,
    beq_eq_false_iff_ne]
  constructor <;> rintro rfl <;> exact absurd h (by decide)

theorem not_isBlank_of_isIdentStart (h : isIdentStart c = true) : Text.isBlank c = false := by
  by_contra hblank
  rw [Bool.not_eq_false] at hblank
  have := not_isIdentContinue_of_isBlank hblank
  rw [isIdentContinue_of_isIdentStart h] at this
  cases this

theorem isAscii_of_isDigit (h : Number.isDigit c = true) : Text.isAscii c = true := by
  simp only [Number.isDigit, Bool.and_eq_true, decide_eq_true_eq, Char.le_def, UInt32.le_iff_toNat_le] at h
  exact decide_eq_true (by have : c.toNat ≤ 57 := h.2; omega)

theorem not_isDigit_of_isBlank (h : Text.isBlank c = true) : Number.isDigit c = false := by
  by_contra hdigit
  rw [Bool.not_eq_false] at hdigit
  have halnum := Text.isAlphanumeric_of_isBlank h
  simp [Text.isAlphanumeric, isAscii_of_isDigit hdigit, Text.isAsciiWord, Text.isAsciiDigit, hdigit] at halnum

/-- No name starts with a digit. -/
theorem not_isDigit_of_isIdentStart (h : isIdentStart c = true) : Number.isDigit c = false := by
  by_contra hdigit
  rw [Bool.not_eq_false] at hdigit
  have hascii := isAscii_of_isDigit hdigit
  simp only [Number.isDigit, Bool.and_eq_true, decide_eq_true_eq, Char.le_def, UInt32.le_iff_toNat_le] at hdigit
  simp only [isIdentStart, Text.isAlphabetic, hascii, if_pos, Bool.or_eq_true, beq_iff_eq, Text.isAsciiLetter,
    Bool.and_eq_true, decide_eq_true_eq, Char.le_def, UInt32.le_iff_toNat_le] at h
  rcases h with (rfl | rfl) | h | h
  · exact absurd hdigit.2 (by decide)
  · exact absurd hdigit.1 (by decide)
  · exact absurd (h.1.trans hdigit.2) (by decide)
  · exact absurd (h.1.trans hdigit.2) (by decide)

end Expr

end ViewBinding
