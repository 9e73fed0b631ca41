import Mathlib.Tactic
import ViewBinding.Number.Decimal
import ViewBinding.Number.Reader

/-! The characters in the texts of finite numbers. -/
namespace ViewBinding.Number

/-- Digits, and a point with more digits behind it or nothing. -/
def IsPositional (text : List Char) : Prop :=
  ∃ whole fraction, text = whole ++ fraction ∧ whole ≠ [] ∧ (∀ c ∈ whole, isDigit c = true) ∧
    (fraction = [] ∨ ∃ places, fraction = '.' :: places ∧ ∀ c ∈ places, isDigit c = true)

theorem isDigit_of_mem_digitChars {n : Nat} {c : Char} (h : c ∈ digitChars n) : isDigit c = true := by
  have hdigit := Nat.isDigit_of_mem_toDigits (by decide) (by decide) h
  simpa [Char.isDigit, isDigit, Char.le_def] using hdigit

theorem isDigit_of_mem_zeros {n : Nat} {c : Char} (h : c ∈ zeros n) : isDigit c = true := by
  rw [List.eq_of_mem_replicate h]
  decide

theorem digitChars_ne_nil (n : Nat) : digitChars n ≠ [] := Nat.toDigits_ne_nil

/-- A decimal shows at least one digit in front of its point. -/
theorem Decimal.positional_spec (d : Decimal) :
    d.positional.1 ≠ [] ∧ (∀ c ∈ d.positional.1, isDigit c = true) ∧ ∀ c ∈ d.positional.2, isDigit c = true := by
  unfold positional
  split
  · refine ⟨by simp [digitChars_ne_nil], fun c hc => ?_, fun c hc => by cases hc⟩
    rcases List.mem_append.1 hc with hc | hc
    · exact isDigit_of_mem_digitChars hc
    · exact isDigit_of_mem_zeros hc
  · have hdigits : ∀ c ∈ zeros ((-d.exponent).toNat + 1 - (digitChars d.digits).length) ++ digitChars d.digits,
        isDigit c = true := fun c hc => by
      rcases List.mem_append.1 hc with hc | hc
      · exact isDigit_of_mem_zeros hc
      · exact isDigit_of_mem_digitChars hc
    simp only [List.splitAt_eq]
    refine ⟨fun hnil => ?_, fun c hc => hdigits c (List.mem_of_mem_take hc), fun c hc => hdigits c (List.mem_of_mem_drop hc)⟩
    have hlength := congrArg List.length hnil
    simp only [List.length_take, List.length_append, zeros, List.length_replicate, List.length_nil] at hlength
    omega

theorem isPositional_of_digits {text : List Char} (h : text ≠ []) (hdigits : ∀ c ∈ text, isDigit c = true) :
    IsPositional text :=
  ⟨text, [], (List.append_nil text).symm, h, hdigits, .inl rfl⟩

/-- The text of a finite number is positional, behind a minus sign if the number has one and is not zero. -/
theorem exists_text_eq {x : Float} {negative : Bool} {m : Nat} {e : Int} (h : decode x = .finite negative m e) :
    ∃ digits, IsPositional digits ∧
      ((text x).toList = digits ∨ negative = true ∧ (text x).toList = '-' :: digits) := by
  have hsigned : ∀ digits, IsPositional digits → ∃ digits', IsPositional digits' ∧
      ((signed negative digits).toList = digits' ∨ negative = true ∧ (signed negative digits).toList = '-' :: digits') := by
    intro digits hdigits
    refine ⟨digits, hdigits, ?_⟩
    rw [signed, String.toList_ofList]
    cases negative with
    | false => exact .inl rfl
    | true => exact .inr ⟨rfl, rfl⟩
  rw [text, h]
  dsimp only
  split
  · exact ⟨['0'], isPositional_of_digits (List.cons_ne_nil _ _) (List.forall_mem_singleton.2 rfl), .inl rfl⟩
  · split
    · exact hsigned _ (isPositional_of_digits (digitChars_ne_nil _) fun c hc => isDigit_of_mem_digitChars hc)
    · obtain ⟨hwhole, hdigits, hplaces⟩ := (shortest m e).positional_spec
      unfold positionalText
      split
      · next whole heq =>
        rw [heq] at hwhole hdigits
        exact hsigned _ (isPositional_of_digits hwhole hdigits)
      · next whole fraction _ heq =>
        rw [heq] at hwhole hdigits hplaces
        exact hsigned _ ⟨whole, '.' :: fraction, rfl, hwhole, hdigits, .inr ⟨fraction, rfl, hplaces⟩⟩

theorem isPositional_text {x : Float} {m : Nat} {e : Int} (h : decode x = .finite false m e) :
    IsPositional (text x).toList := by
  obtain ⟨digits, hdigits, heq | ⟨hsign, -⟩⟩ := exists_text_eq h
  · rwa [heq]
  · cases hsign

theorem IsPositional.exists_digit {text : List Char} (h : IsPositional text) :
    ∃ c rest, text = c :: rest ∧ isDigit c = true := by
  obtain ⟨whole, fraction, rfl, hne, hwhole, -⟩ := h
  obtain ⟨c, whole, rfl⟩ := List.exists_cons_of_ne_nil hne
  exact ⟨c, whole ++ fraction, rfl, hwhole c List.mem_cons_self⟩

/-- A minus sign in front of digits negates the number that is read from them. -/
theorem decimal?_minus {text : List Char} (h : IsPositional text) :
    decimal? ('-' :: text) = (decimal? text).map (-·) := by
  obtain ⟨c, rest, rfl, hc⟩ := h.exists_digit
  have hsign : c ≠ '-' ∧ c ≠ '+' := by
    constructor <;> rintro rfl <;> exact absurd hc (by decide)
  rw [decimal?, decimal?.eq_def (c :: rest)]
  split
  · next heq => exact absurd (List.cons_eq_cons.1 heq).1 hsign.1
  · next heq => exact absurd (List.cons_eq_cons.1 heq).1 hsign.2
  · rfl

end ViewBinding.Number
