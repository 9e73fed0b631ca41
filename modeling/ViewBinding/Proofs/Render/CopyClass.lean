import ViewBinding.Proofs.Text.Blank
import ViewBinding.Proofs.Tree.Control
import ViewBinding.View.Basic

/-! The class of a copy is one word, so an element that is given it carries it. -/
namespace ViewBinding

namespace Text

theorem isBlank_of_isAsciiWord {c : Char} (h : isAsciiWord c = true) : isBlank c = false := by
  have hascii : isAscii c = true := by
    have hle : c ≤ 'z' := by
      simp only [isAsciiWord, isAsciiLetter, isAsciiDigit, Number.isDigit, Bool.or_eq_true,
        Bool.and_eq_true, decide_eq_true_eq] at h
      rcases h with (h | h) | h
      · exact h.2
      · exact Char.le_trans h.2 (by decide)
      · exact Char.le_trans h.2 (by decide)
    have hnat : c.toNat ≤ 122 := UInt32.le_iff_toNat_le.1 hle
    exact decide_eq_true (by omega)
  rw [isBlank, if_pos hascii]
  by_contra hblank
  simp only [isAsciiBlank, Bool.not_eq_false, Bool.or_eq_true, beq_iff_eq] at hblank
  rcases hblank with ((((rfl | rfl) | rfl) | rfl) | rfl) | rfl <;> exact absurd h (by decide)

end Text

namespace Binding

theorem isClassChar_of_mem_hyphenate {inRun : Bool} {text : List Char} {c : Char}
    (h : c ∈ hyphenate inRun text) : isClassChar c = true := by
  induction text generalizing inRun with
  | nil => simp [hyphenate] at h
  | cons d rest ih =>
    rw [hyphenate] at h
    split_ifs at h with hd hrun
    · rcases List.mem_cons.1 h with rfl | h
      · exact hd
      · exact ih h
    · exact ih h
    · rcases List.mem_cons.1 h with rfl | h
      · decide
      · exact ih h

theorem isBlank_of_isClassChar {c : Char} (h : isClassChar c = true) : Text.isBlank c = false := by
  simp only [isClassChar, Bool.or_eq_true, beq_iff_eq] at h
  rcases h with (h | rfl) | rfl
  · exact Text.isBlank_of_isAsciiWord h
  · decide
  · decide

theorem mem_trimBy {keep : Char → Bool} {text : List Char} {c : Char} (h : c ∈ Text.trimBy keep text) :
    c ∈ text := by
  simp only [Text.trimBy, Text.trimEnd, Text.trimStart, List.mem_reverse] at h
  have := (List.dropWhile_suffix _).subset h
  rw [List.mem_reverse] at this
  exact (List.dropWhile_suffix _).subset this

end Binding

namespace View

theorem isBlank_digitChar (k : Nat) : Text.isBlank (Nat.digitChar k) = false := by
  rcases Nat.lt_or_ge k 16 with hk | hk
  · revert k
    decide
  · have hstar : Nat.digitChar k = '*' := by
      unfold Nat.digitChar
      repeat rw [if_neg (by omega)]
    rw [hstar]
    decide

theorem isBlank_of_mem_toDigitsCore {fuel n : Nat} {ds : List Char}
    (h : ∀ d ∈ ds, Text.isBlank d = false) : ∀ d ∈ Nat.toDigitsCore 16 fuel n ds, Text.isBlank d = false := by
  induction fuel generalizing n ds with
  | zero => exact h
  | succ fuel ih =>
    have hcons : ∀ d ∈ Nat.digitChar (n % 16) :: ds, Text.isBlank d = false :=
      List.forall_mem_cons.2 ⟨isBlank_digitChar _, h⟩
    rw [Nat.toDigitsCore]
    split
    · exact hcons
    · exact ih hcons

theorem isBlank_of_mem_hexDigits {n : Nat} {c : Char} (h : c ∈ Text.hexDigits n) :
    Text.isBlank c = false :=
  isBlank_of_mem_toDigitsCore (fun _ hd => absurd hd List.not_mem_nil) c h

/-- The class of a copy has no blanks, if what it starts with has none. -/
theorem isBlank_of_mem_copyClass {v : View} (hv : ∀ c ∈ v.options.classStart.toList, Text.isBlank c = false)
    (expression : String) {c : Char} (h : c ∈ (v.copyClass expression).toList) : Text.isBlank c = false := by
  simp only [copyClass, String.toList_append, List.mem_append, eightDigits, String.toList_ofList,
    Binding.classSafe] at h
  rcases h with (((h | h) | h) | h) | h | h
  · exact hv c h
  · obtain rfl : c = '-' := by simpa using h
    decide
  · exact Binding.isBlank_of_isClassChar (Binding.isClassChar_of_mem_hyphenate (Binding.mem_trimBy h))
  · obtain rfl : c = '-' := by simpa using h
    decide
  · obtain rfl := List.eq_of_mem_replicate h
    decide
  · exact isBlank_of_mem_hexDigits h

end View

namespace Tree

open Markup

theorem mem_words_intercalate {classes : List String} {cls : String} (hne : cls.toList ≠ [])
    (h : ∀ c ∈ cls.toList, Text.isBlank c = false) :
    cls.toList ∈ Text.words Text.isBlank (" ".intercalate (classes ++ [cls])).toList := by
  rcases classes.eq_nil_or_concat with rfl | ⟨_, _, rfl⟩
  · simp [Text.words_of_forall hne h]
  · rw [String.intercalate_append_of_ne_nil (by simp) (by simp), String.intercalate_singleton]
    have hspace : Text.isBlank ' ' = true := by decide
    have hcons := Text.words_append_cons hspace
    simp only [String.toList_append, List.append_assoc, show " ".toList = [' '] from rfl,
      List.singleton_append]
    rw [hcons, Text.words_of_forall hne h]
    simp

/-- An element that has been given a class carries it. -/
theorem hasClass_addClass {t t' : Tree} (ht : t.WellFormed) {id : NodeId} {cls : String}
    (hne : cls.toList ≠ []) (hblank : ∀ c ∈ cls.toList, Text.isBlank c = false)
    (h : t.addClass id cls = .ok t') : t'.hasClass id cls = true := by
  simp only [addClass, Except.bind, bind] at h
  split at h
  · cases h
  next e he =>
    have he := element?_of_element he
    split at h
    · next hin =>
      cases h
      simpa [hasClass, he] using hin
    · have hattr := attr?_setAttr_self ht h
      rw [attr?, show Text.asciiLower "class" = "class" by decide +kernel] at hattr
      obtain ⟨e', he', hget⟩ := Option.bind_eq_some_iff.1 hattr
      rw [hasClass, he', Option.any_some, List.contains_iff_mem, Element.classes, hget]
      exact List.mem_map.2 ⟨cls.toList, mem_words_intercalate hne hblank, String.ofList_toList⟩

end Tree

end ViewBinding
