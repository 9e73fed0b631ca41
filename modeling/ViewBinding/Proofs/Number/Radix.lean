import Mathlib.Tactic
import ViewBinding.Builtin.Global
import ViewBinding.Proofs.Expr.Run
import ViewBinding.Proofs.Number.Whole

/-! Whole numbers are written in a base and read back. What is written are the digits of the number, and the reader
multiplies them in one by one as doubles, none of which is above the number itself. -/
namespace ViewBinding

namespace Number

variable {base d n : ℕ} {digits : List ℕ}

/-- The digits of a number in the order in which they are written; zero has one. -/
def writtenDigits (base n : ℕ) : List ℕ := if n = 0 then [0] else (Nat.digits base n).reverse

/-- The number that digits are read as. -/
def readDigits (base : ℕ) (digits : List ℕ) : ℕ := digits.foldl (fun value d => value * base + d) 0

theorem writtenDigits_lt (hbase : 2 ≤ base) (hd : d ∈ writtenDigits base n) : d < base := by
  unfold writtenDigits at hd
  split at hd
  · rw [List.mem_singleton.1 hd]
    omega
  · exact Nat.digits_lt_base hbase (List.mem_reverse.1 hd)

theorem writtenDigits_ne_nil (base n : ℕ) : writtenDigits base n ≠ [] := by
  unfold writtenDigits
  split
  · exact List.cons_ne_nil _ _
  · next hn => exact List.reverse_ne_nil_iff.2 (Nat.digits_ne_nil_iff_ne_zero.2 hn)

theorem eq_zero_of_head?_writtenDigits (h : (writtenDigits base n).head? = some 0) : n = 0 := by
  unfold writtenDigits at h
  split at h
  · assumption
  · next hn =>
    rw [List.head?_reverse, List.getLast?_eq_getLast_of_ne_nil (Nat.digits_ne_nil_iff_ne_zero.2 hn), Option.some_inj] at h
    exact absurd h (Nat.getLast_digit_ne_zero base hn)

theorem readDigits_writtenDigits (base n : ℕ) : readDigits base (writtenDigits base n) = n := by
  unfold readDigits writtenDigits
  split
  · next hn => simp [hn]
  · rw [List.foldl_reverse]
    conv_rhs => rw [← Nat.ofDigits_digits base n, Nat.ofDigits_eq_foldr]
    congr 1
    funext d value
    simp [Nat.add_comm, Nat.mul_comm]

/-! ### Writing -/

theorem digit?_letter (hd : d < base) (hbase : base ≤ 36) : digit? base (radixText.letter d) = some d := by
  have hall : ∀ base : Fin 37, ∀ d : Fin 36, d.1 < base.1 → digit? base.1 (radixText.letter d.1) = some d.1 := by
    decide +kernel
  exact hall ⟨base, by omega⟩ ⟨d, by omega⟩ hd

theorem radixText_go_eq (hbase : 2 ≤ base) {fuel : ℕ} (hfuel : n ≤ fuel) (acc : List ℕ) :
    radixText.go base fuel n acc = (Nat.digits base n).reverse ++ acc := by
  induction fuel generalizing n acc with
  | zero =>
    obtain rfl : n = 0 := by omega
    rw [radixText.go, Nat.digits_zero, List.reverse_nil, List.nil_append]
  | succ fuel ih =>
    rw [radixText.go]
    split
    · next hn => rw [hn, Nat.digits_zero, List.reverse_nil, List.nil_append]
    · next hn =>
      have hlt := Nat.div_lt_self (Nat.pos_of_ne_zero hn) hbase
      rw [ih (by omega), Nat.digits_def' hbase (Nat.pos_of_ne_zero hn), List.reverse_cons, List.append_assoc,
        List.singleton_append]

theorem digitChars_eq (n : ℕ) : digitChars n = (writtenDigits 10 n).map radixText.letter := by
  induction n using Nat.strongRecOn with
  | ind n ih =>
    have hsmall : ∀ d : Fin 10, Nat.toDigits 10 d.1 = [radixText.letter d.1] := by decide
    rcases lt_or_ge n 10 with hlt | hge
    · rw [digitChars, hsmall ⟨n, hlt⟩, writtenDigits]
      split
      · next hn => simp [hn]
      · next hn => rw [Nat.digits_of_lt 10 n hn hlt, List.reverse_singleton, List.map_singleton]
    · -- all digits but the last are those of a tenth of the number
      have hsplit := Nat.toDigits_append_toDigits (b := 10) (by decide) (Nat.div_pos hge (by decide))
        (Nat.mod_lt n (by decide))
      rw [Nat.div_add_mod] at hsplit
      have hfront := ih (n / 10) (Nat.div_lt_self (by omega) (by decide))
      rw [writtenDigits, if_neg (by omega)] at hfront
      rw [digitChars, ← hsplit, hsmall ⟨n % 10, Nat.mod_lt n (by decide)⟩, writtenDigits, if_neg (by omega),
        Nat.digits_def' (by decide) (by omega), List.reverse_cons, List.map_append, List.map_singleton, ← hfront]
      rfl

/-- The parts of a double that stands for a whole number. -/
theorem whole_of_denotes {x : Float} {n : ℤ} (h : Denotes x n) : ∃ negative m e,
    decode x = .finite negative m e ∧ isWhole m e = true ∧ wholePart m e = n.natAbs ∧ (m = 0 ↔ n = 0) ∧
      (n ≠ 0 → negative = decide (n < 0)) := by
  obtain ⟨negative, m, e, hdecode, hvalue⟩ := h
  have hpow : (0 : ℚ) < 2 ^ e := zpow_pos two_pos e
  have hnat : (n.natAbs : ℚ) * 2 ^ (0 : ℤ) = m * 2 ^ e := by
    rw [zpow_zero, mul_one, Nat.cast_natAbs, Int.cast_abs, hvalue]
    cases negative <;> simp [abs_mul, abs_of_pos hpow]
  refine ⟨negative, m, e, hdecode, ?_, ?_, ?_, fun hn => ?_⟩
  · rcases le_total 0 e with he | he
    · simp [isWhole, he]
    · have hm := eq_mul_two_pow hnat.symm he
      rw [Int.zero_sub] at hm
      simp [isWhole, hm]
  · rcases le_or_gt 0 e with he | he
    · rw [wholePart, if_pos he, eq_mul_two_pow hnat he, Int.sub_zero]
      rfl
    · rw [wholePart, if_neg (by omega), eq_mul_two_pow hnat.symm he.le, Int.zero_sub]
      exact Nat.mul_div_cancel _ (Nat.pow_pos (by decide))
  · rw [← Int.natAbs_eq_zero, ← Nat.cast_eq_zero (R := ℚ), ← Nat.cast_eq_zero (R := ℚ) (n := n.natAbs)]
    rw [zpow_zero, mul_one] at hnat
    rw [hnat, mul_eq_zero, or_iff_left hpow.ne']
  · have hm : (0 : ℚ) < m * 2 ^ e := by
      rw [← hnat, zpow_zero, mul_one]
      exact_mod_cast Int.natAbs_pos.2 hn
    cases negative with
    | true =>
      have hlt : (n : ℚ) < 0 := by rw [hvalue]; simpa using hm
      exact (decide_eq_true (by exact_mod_cast hlt)).symm
    | false =>
      have hlt : (0 : ℚ) < n := by rw [hvalue]; simpa using hm
      exact (decide_eq_false (by have : 0 < n := by exact_mod_cast hlt
                                 omega)).symm

/-- The text of a whole number in a base: the digits of its amount, behind a minus sign if it is below zero. -/
def wholeText (base : ℕ) (n : ℤ) : String :=
  signed (decide (n < 0)) ((writtenDigits base n.natAbs).map radixText.letter)

theorem text_of_denotes {x : Float} {n : ℤ} (h : Denotes x n) (hle : n.natAbs ≤ 2 ^ 53) : text x = wholeText 10 n := by
  obtain ⟨negative, m, e, hdecode, hwhole, hpart, hzero, hsign⟩ := whole_of_denotes h
  have hbound : n.natAbs < Nat.pow 10 21 := lt_of_le_of_lt hle (by decide)
  rw [text, hdecode]
  dsimp only
  rcases eq_or_ne n 0 with rfl | hn
  · rw [if_pos (hzero.2 rfl)]
    rfl
  · rw [if_neg (mt hzero.1 hn), hwhole, hpart, decide_eq_true hbound, Bool.and_self, if_pos rfl, hsign hn, digitChars_eq]
    rfl

theorem radixText_of_denotes {x : Float} {n : ℤ} (h : Denotes x n) (hle : n.natAbs ≤ 2 ^ 53) (hbase : 2 ≤ base) :
    radixText base x = wholeText base n := by
  obtain ⟨negative, m, e, hdecode, -, hpart, -, hsign⟩ := whole_of_denotes h
  have hbound : n.natAbs < Nat.pow 2 128 := lt_of_le_of_lt hle (by decide)
  rw [radixText, hdecode]
  simp only [hpart, if_pos hbound]
  rcases eq_or_ne n 0 with rfl | hn
  · rfl
  · rw [if_neg (Int.natAbs_ne_zero.2 hn), hsign hn, radixText.radixDigits, radixText_go_eq hbase le_rfl, List.append_nil,
      wholeText, writtenDigits, if_neg (Int.natAbs_ne_zero.2 hn)]

/-! ### Reading -/

theorem leadingDigits_letters (hbase : base ≤ 36) (hdigits : ∀ d ∈ digits, d < base) :
    leadingDigits base (digits.map radixText.letter) = digits := by
  induction digits with
  | nil => rfl
  | cons d digits ih =>
    rw [List.map_cons, leadingDigits, digit?_letter (hdigits d List.mem_cons_self) hbase]
    exact congrArg (d :: ·) (ih fun d hd => hdigits d (List.mem_cons_of_mem _ hd))

/-- No digit in base sixteen or below looks like the mark of a hexadecimal number. -/
theorem stripHexMark?_letters (hdigits : ∀ d ∈ digits, d < 16) :
    stripHexMark? (digits.map radixText.letter) = none := by
  have hmark : ∀ d : Fin 16, radixText.letter d.1 ≠ 'x' ∧ radixText.letter d.1 ≠ 'X' := by decide
  unfold stripHexMark?
  split
  · next heq =>
    obtain ⟨_, digits, rfl, -, htail⟩ := List.map_eq_cons_iff.1 heq
    obtain ⟨d, _, rfl, hd, -⟩ := List.map_eq_cons_iff.1 htail
    exact absurd hd (hmark ⟨d, hdigits d (by simp)⟩).1
  · next heq =>
    obtain ⟨_, digits, rfl, -, htail⟩ := List.map_eq_cons_iff.1 heq
    obtain ⟨d, _, rfl, hd, -⟩ := List.map_eq_cons_iff.1 htail
    exact absurd hd (hmark ⟨d, hdigits d (by simp)⟩).2
  · rfl

theorem le_foldl_digits (hbase : 1 ≤ base) (digits : List ℕ) (v : ℕ) :
    v ≤ digits.foldl (fun value d => value * base + d) v := by
  induction digits generalizing v with
  | nil => exact le_rfl
  | cons d digits ih => exact ((Nat.le_mul_of_pos_right v hbase).trans (Nat.le_add_right _ d)).trans (ih _)

/-- Reading on from a value is exact as long as the value of all digits is not too big: what is read on the way is never
above that. -/
theorem denotes_foldl (hbase : 1 ≤ base) (hmost : base ≤ 2 ^ 53) {x : Float} {v : ℕ} (hx : Denotes x v)
    (hle : digits.foldl (fun value d => value * base + d) v ≤ 2 ^ 53) :
    Denotes (digits.foldl (fun value d => value * ofNat base + ofNat d) x)
      (digits.foldl (fun value d => value * base + d) v : ℕ) := by
  induction digits generalizing x v with
  | nil => exact hx
  | cons d digits ih =>
    have hnext : v * base + d ≤ 2 ^ 53 := (le_foldl_digits hbase digits _).trans hle
    have hproduct : Denotes (x * ofNat base) ((v * base : ℕ) : ℤ) := by
      have hmul := Denotes.mul (a := v) (b := base) (by exact_mod_cast hx) (by exact_mod_cast denotes_ofNat hmost)
        (by rw [← Nat.cast_mul, Int.natAbs_natCast]; omega)
      exact_mod_cast hmul
    have hsum : Denotes (x * ofNat base + ofNat d) ((v * base + d : ℕ) : ℤ) := by
      have hadd := hproduct.add (b := d) (by exact_mod_cast denotes_ofNat (n := d) (by omega))
        (by rw [← Nat.cast_add, Int.natAbs_natCast]; exact hnext)
      exact_mod_cast hadd
    exact ih (by exact_mod_cast hsum) hle

theorem denotes_accumulate (hbase : 1 ≤ base) (hmost : base ≤ 2 ^ 53) (hle : readDigits base digits ≤ 2 ^ 53) :
    Denotes (accumulate base digits) (readDigits base digits : ℕ) :=
  denotes_foldl hbase hmost ⟨false, 0, -1074, by decide +kernel, by simp⟩ hle

theorem denotes_sign (negative : Bool) : Denotes (if negative then -1 else 1) ((if negative then -1 else 1 : ℤ) : ℚ) := by
  cases negative with
  | true => exact ⟨true, 2 ^ 52, -52, by decide +kernel, by norm_num⟩
  | false => exact ⟨false, 2 ^ 52, -52, by decide +kernel, by norm_num⟩

/-- What is read behind an optional minus sign. -/
theorem leadingInteger_signed (hleast : 2 ≤ base) (hmost : base ≤ 36) (negative : Bool) {text : List Char}
    (hsign : ∀ rest, text ≠ '-' :: rest ∧ text ≠ '+' :: rest)
    (hmark : (if base = 0 ∨ base = 16 then stripHexMark? text else none) = none)
    (hread : leadingDigits base text = digits) (hdigits : digits ≠ []) :
    leadingInteger base (signed negative text).toList = (if negative then -1 else 1) * accumulate base digits := by
  have hbase : base ≠ 0 ∧ ¬ (base < 2 ∨ 36 < base) := by omega
  obtain ⟨d, digits, rfl⟩ := List.exists_cons_of_ne_nil hdigits
  rw [signed, String.toList_ofList]
  cases negative with
  | true =>
    rw [if_pos rfl, leadingInteger]
    simp only [hmark, hread, if_neg hbase.1, if_neg hbase.2]
  | false =>
    rw [if_neg Bool.false_ne_true, leadingInteger]
    · simp only [hmark, hread, if_neg hbase.1, if_neg hbase.2]
    · exact fun rest => (hsign rest).1
    · exact fun rest => (hsign rest).2

/-- A whole number is read back from its text. -/
theorem denotes_leadingInteger {n : ℤ} (hleast : 2 ≤ base) (hmost : base ≤ 36) (hle : n.natAbs ≤ 2 ^ 53) :
    Denotes (leadingInteger base (wholeText base n).toList) n := by
  have hlt : ∀ d ∈ writtenDigits base n.natAbs, d < base := fun d hd => writtenDigits_lt hleast hd
  have hread := leadingDigits_letters hmost hlt
  have hvalue : Denotes (accumulate base (writtenDigits base n.natAbs)) ((n.natAbs : ℤ) : ℚ) := by
    have hdigits := readDigits_writtenDigits base n.natAbs
    have haccumulate := denotes_accumulate (by omega) (by omega) (hdigits.trans_le hle)
    rwa [hdigits] at haccumulate
  have hmark : (if base = 0 ∨ base = 16 then
      stripHexMark? ((writtenDigits base n.natAbs).map radixText.letter) else none) = none := by
    split
    · next hbase => exact stripHexMark?_letters fun d hd => (hlt d hd).trans_le (by omega)
    · rfl
  have hsign : ∀ rest, (writtenDigits base n.natAbs).map radixText.letter ≠ '-' :: rest ∧
      (writtenDigits base n.natAbs).map radixText.letter ≠ '+' :: rest := by
    have hletter : ∀ d : Fin 36, radixText.letter d.1 ≠ '-' ∧ radixText.letter d.1 ≠ '+' := by decide
    refine fun rest => ⟨fun heq => ?_, fun heq => ?_⟩
    all_goals
      obtain ⟨d, digits, hwritten, hd, -⟩ := List.map_eq_cons_iff.1 heq
      have hd36 : d < 36 := (hlt d (hwritten ▸ List.mem_cons_self)).trans_le hmost
    · exact (hletter ⟨d, hd36⟩).1 hd
    · exact (hletter ⟨d, hd36⟩).2 hd
  have hamount : (if decide (n < 0) then -1 else 1 : ℤ) * (n.natAbs : ℤ) = n := by
    split
    · next hneg =>
      have := of_decide_eq_true hneg
      omega
    · next hneg =>
      have := of_decide_eq_false (Bool.eq_false_of_not_eq_true hneg)
      omega
  have hproduct := (denotes_sign (decide (n < 0))).mul (b := n.natAbs) hvalue (by rwa [hamount])
  rwa [hamount, ← leadingInteger_signed hleast hmost _ hsign hmark hread (writtenDigits_ne_nil base _)] at hproduct

end Number

namespace Heap

theorem number_number (h : Heap) (x : Float) : h.number (.number x) = x := by
  rw [number]
  cases h.depth <;> rfl

theorem string_string (h : Heap) (s : String) : h.string (.string s) = s := by
  rw [string]
  cases h.depth <;> rfl

end Heap

namespace Builtin

open Number

/-- The text of a whole number: an optional minus sign, and digits below the base, of which the first is not zero unless
the number is zero. -/
def IsNumeral (base : ℕ) (n : ℤ) (text : List Char) : Prop :=
  ∃ digits, text = (if n < 0 then '-' :: digits else digits) ∧ digits ≠ [] ∧
    (∀ c ∈ digits, (digit? base c).isSome = true) ∧ (digits.head? = some '0' → n = 0)

theorem isNumeral_wholeText {base : ℕ} (hleast : 2 ≤ base) (hmost : base ≤ 36) (n : ℤ) :
    IsNumeral base n (wholeText base n).toList := by
  refine ⟨(writtenDigits base n.natAbs).map radixText.letter, ?_, ?_, fun c hc => ?_, fun hhead => ?_⟩
  · simp [wholeText, signed, String.toList_ofList]
  · simpa using writtenDigits_ne_nil base n.natAbs
  · obtain ⟨d, hd, rfl⟩ := List.mem_map.1 hc
    rw [digit?_letter (writtenDigits_lt hleast hd) hmost]
    rfl
  · obtain ⟨d, digits, hwritten⟩ := List.exists_cons_of_ne_nil (writtenDigits_ne_nil base n.natAbs)
    have hzero : ∀ d : Fin 36, radixText.letter d.1 = '0' → d.1 = 0 := by decide
    have hlt : d < base := writtenDigits_lt hleast (hwritten ▸ List.mem_cons_self)
    rw [hwritten, List.map_cons, List.head?_cons, Option.some_inj] at hhead
    obtain rfl : d = 0 := hzero ⟨d, hlt.trans_le hmost⟩ hhead
    exact Int.natAbs_eq_zero.1 (eq_zero_of_head?_writtenDigits (by rw [hwritten, List.head?_cons]))

theorem baseArg_number (h : Heap) {r : Float} {base : ℕ} (hr : Denotes r base) (hmost : base ≤ 36) :
    baseArg h (.number r) = base := by
  obtain ⟨negative, m, e, hdecode, -, hpart, -, hsign⟩ := whole_of_denotes (n := base) (by exact_mod_cast hr)
  rw [Int.natAbs_natCast] at hpart
  have hbound : base < Nat.pow 2 32 := lt_of_le_of_lt hmost (by decide)
  have hpositive : (negative && base != 0) = false := by
    rcases eq_or_ne base 0 with rfl | hbase
    · simp
    · rw [hsign (by exact_mod_cast hbase), decide_eq_false (by omega), Bool.false_and]
  rw [baseArg, Heap.number_number, toNatBelow?, hdecode]
  simp only [hpart, hpositive, hbound, if_true, Bool.false_eq_true, if_false, Option.getD_some]

theorem runIn_toString (x r : Float) (h : Heap) :
    (callMethod (.number x) "toString" [.number r]).runIn h = (toRadix x (baseArg h (.number r)), h) := by
  simp only [callMethod, numberMethod, argument, List.getElem?_cons_zero, Option.getD_some, Eval.runIn_bind,
    Eval.runIn_view, Eval.runIn_ofExcept]

theorem runIn_parseInt (args : List Value) (h : Heap) :
    (callFunction "parseInt" args).runIn h = (.ok (.number (readInteger h args)), h) := rfl

theorem toRadix_of_denotes {x : Float} {n : ℤ} {base : ℕ} (hx : Denotes x n) (hle : n.natAbs ≤ 2 ^ 53)
    (hleast : 2 ≤ base) (hmost : base ≤ 36) : toRadix x base = .ok (.string (wholeText base n)) := by
  obtain ⟨negative, m, e, hdecode, hwhole, -⟩ := whole_of_denotes hx
  have hinteger : isInteger x = true := by
    rw [isInteger, hdecode]
    exact hwhole
  rw [toRadix, if_neg (by omega), hinteger]
  split
  · next hten =>
    obtain rfl : base = 10 := by simpa using hten
    rw [text_of_denotes hx hle]
  · rw [radixText_of_denotes hx hle hleast]

/-- The text of a whole number begins with no blank. -/
theorem trimStart_wholeText {base : ℕ} (hleast : 2 ≤ base) (hmost : base ≤ 36) (n : ℤ) :
    Text.trimStart Text.isBlank (wholeText base n).toList = (wholeText base n).toList := by
  have hdigit : ∀ d : Fin 36, Text.isBlank (radixText.letter d.1) = false := by decide +kernel
  obtain ⟨d, digits, hwritten⟩ := List.exists_cons_of_ne_nil (writtenDigits_ne_nil base n.natAbs)
  have hlt : d < base := writtenDigits_lt hleast (hwritten ▸ List.mem_cons_self)
  rw [wholeText, signed, String.toList_ofList, hwritten, Text.trimStart, List.map_cons]
  split
  · exact List.dropWhile_cons_of_neg (by decide)
  · exact List.dropWhile_cons_of_neg (by rw [hdigit ⟨d, hlt.trans_le hmost⟩]; decide)

/-- Every whole number up to two to the fifty-third is a double, and its text in a base from 2 to 36 is a numeral that is
read back as the same number. -/
theorem parseInt_toString {n : ℤ} {base : ℕ} (hle : n.natAbs ≤ 2 ^ 53) (hleast : 2 ≤ base) (hmost : base ≤ 36) :
    (∃ x, Denotes x n) ∧ ∀ x r, Denotes x n → Denotes r base → ∀ h : Heap, ∃ text y,
      (callMethod (.number x) "toString" [.number r]).runIn h = (.ok (.string text), h) ∧
      (callFunction "parseInt" [.string text, .number r]).runIn h = (.ok (.number y), h) ∧
      Denotes y n ∧ (Value.number y).strictEquals (.number x) = true ∧ IsNumeral base n text.toList := by
  have hread := denotes_leadingInteger hleast hmost hle
  refine ⟨⟨_, hread⟩, fun x r hx hr h => ⟨wholeText base n, _, ?_, ?_, hread, hread.beq hx,
    isNumeral_wholeText hleast hmost n⟩⟩
  · rw [runIn_toString, baseArg_number h hr hmost, toRadix_of_denotes hx hle hleast hmost]
  · rw [runIn_parseInt, readInteger]
    simp only [argument, List.getElem?_cons_zero, List.getElem?_cons_succ, Option.getD_some, Value.isNullish,
      Bool.false_eq_true, if_false, Heap.string_string, baseArg_number h hr hmost, trimStart_wholeText hleast hmost]

theorem parseInt_toString_least : (∃ x, Denotes x (-2 ^ 53 : ℤ)) ∧ ∀ h : Heap, ∃ text y,
    (callMethod (.number (-9007199254740992)) "toString" [.number 36]).runIn h = (.ok (.string text), h) ∧
    (callFunction "parseInt" [.string text, .number 36]).runIn h = (.ok (.number y), h) ∧
    Denotes y (-2 ^ 53 : ℤ) ∧ (Value.number y).strictEquals (.number (-9007199254740992)) = true ∧
    IsNumeral 36 (-2 ^ 53) text.toList := by
  have hn : Denotes (-9007199254740992) (-2 ^ 53 : ℤ) := ⟨true, 2 ^ 52, 1, by decide +kernel, by norm_num⟩
  have hr : Denotes 36 (36 : ℕ) := ⟨false, 36 * 2 ^ 47, -47, by decide +kernel, by norm_num⟩
  obtain ⟨hexists, hread⟩ := parseInt_toString (n := -2 ^ 53) (by decide) (Nat.le_of_lt (by decide)) (le_refl 36)
  exact ⟨hexists, hread _ _ hn hr⟩

end Builtin

end ViewBinding
