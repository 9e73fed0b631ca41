import Mathlib.Tactic
import ViewBinding.Proofs.Number.Unpacked

/-! Whole numbers in doubles. Up to two to the fifty-third every whole number has a double, and the sum and the product
of two such doubles are the doubles of the sum and the product: nothing is rounded away. -/
namespace ViewBinding.Number

open Float.Model Float.Model.UnpackedFloat

variable {x y : Float} {s : Sign} {m : ℕ} {e : ℤ}

/-! ### Rounding what needs none -/

theorem shiftRight_exact (m k : ℕ) :
    (⟨m * 2 ^ k, false, false⟩ : ExtendedMantissa) >>> k = ⟨m, false, false⟩ := by
  induction k generalizing m with
  | zero => simp [HShiftRight.hShiftRight, Nat.repeat]
  | succ k ih =>
    have hlast := ih (m * 2)
    rw [Nat.mul_assoc, ← Nat.pow_succ'] at hlast
    change ExtendedMantissa.shiftRightOne ((⟨m * 2 ^ (k + 1), false, false⟩ : ExtendedMantissa) >>> k) = _
    rw [hlast]
    simp [ExtendedMantissa.shiftRightOne]

theorem log2_mul_two_pow (hm : m ≠ 0) (k : ℕ) : (m * 2 ^ k).log2 = m.log2 + k := by
  rw [Nat.log2_eq_iff (by positivity)]
  have hlow := Nat.log2_self_le hm
  have hhigh := Nat.lt_log2_self (n := m)
  constructor
  · rw [Nat.pow_add]
    exact Nat.mul_le_mul_right _ hlow
  · rw [Nat.add_right_comm, Nat.pow_add]
    exact Nat.mul_lt_mul_of_pos_right hhigh (by positivity)

theorem roundWithAccuracy_exact (hm : 0 < m) (hlog : m.log2 = 52) (hlow : -1074 ≤ e) (k : ℕ) :
    roundWithAccuracy .binary64 s (m * 2 ^ k) (e - k) .exact = .finite s m e hm := by
  have htarget : ∀ j : ℕ, Format.binary64.targetExponent (totalExponent (m * 2 ^ j) (e - j)) = e := by
    intro j
    rw [totalExponent, log2_mul_two_pow hm.ne', hlog]
    simp only [Format.targetExponent, Format.mantissaBits, Format.minExponent]
    push_cast
    omega
  have hshift : ∀ j : ℕ, shiftToTargetExponent .binary64 (m * 2 ^ j) (e - j) .exact = (⟨m, false, false⟩, e) := by
    intro j
    rw [shiftToTargetExponent, htarget, shiftToExponent]
    have hj : (e - (e - j)).toNat = j := by omega
    simp only [hj, ExtendedMantissa.ofMantissaAndAccuracy, shiftRight_exact]
    congr 1
    omega
  have hagain := hshift 0
  rw [Nat.pow_zero, Nat.mul_one, Nat.cast_zero, Int.sub_zero] at hagain
  rw [roundWithAccuracy, hshift k]
  simp only [ExtendedMantissa.roundedMantissa, ExtendedMantissa.accuracy, Accuracy.roundToNearestEven, hagain]
  rw [dif_neg hm.ne']

/-- A whole number that is not too big, with all the digits that a mantissa has. -/
theorem exists_normal {n : ℕ} (hn : 0 < n) (hle : n ≤ 2 ^ 53) :
    ∃ (m : ℕ) (e : ℤ), 0 < m ∧ m.log2 = 52 ∧ -1074 ≤ e ∧ e ≤ 971 ∧ (n : ℚ) = m * 2 ^ e := by
  rcases hle.lt_or_eq with hlt | rfl
  · have hlog : n.log2 ≤ 52 := by
      have := (Nat.log2_lt hn.ne').2 hlt
      omega
    refine ⟨n * 2 ^ (52 - n.log2), (n.log2 : ℤ) - 52, by positivity, ?_, by omega, by omega, ?_⟩
    · rw [log2_mul_two_pow hn.ne']
      omega
    · have he : ((n.log2 : ℤ) - 52) = -((52 - n.log2 : ℕ) : ℤ) := by omega
      rw [he, zpow_neg, zpow_natCast]
      push_cast
      field_simp
  · exact ⟨2 ^ 52, 1, by positivity, Nat.log2_two_pow, by omega, by omega, by norm_num⟩

/-- Equal numbers have the same digits, but for zeros behind them. -/
theorem eq_mul_two_pow {a b : ℕ} {e f : ℤ} (h : (a : ℚ) * 2 ^ e = b * 2 ^ f) (hle : e ≤ f) :
    a = b * 2 ^ (f - e).toNat := by
  have hf : f = ((f - e).toNat : ℤ) + e := by omega
  rw [hf, zpow_add₀ two_ne_zero, ← mul_assoc, zpow_natCast] at h
  exact_mod_cast mul_right_cancel₀ (zpow_ne_zero e two_ne_zero) h

theorem exponent_le {a m : ℕ} {e f : ℤ} (h : (a : ℚ) * 2 ^ e = m * 2 ^ f) (hm : m.log2 = 52) (ha : 52 ≤ a.log2) :
    e ≤ f := by
  by_contra hlt
  have ha0 : a ≠ 0 := by
    rintro rfl
    simp at ha
  have hm0 := eq_mul_two_pow h.symm (by omega)
  rw [hm0, log2_mul_two_pow ha0] at hm
  omega

/-- Rounding a number that a mantissa holds gives that number. -/
theorem round_exact {M : ℕ} {E : ℤ} (hm : 0 < m) (hlog : m.log2 = 52) (hlow : -1074 ≤ e)
    (h : (M : ℚ) * 2 ^ E = m * 2 ^ e) : UnpackedFloat.round .binary64 s M E = .finite s m e hm := by
  have hM : M ≠ 0 := by
    rintro rfl
    have hpos : (0 : ℚ) < m * 2 ^ e := by positivity
    rw [← h, Nat.cast_zero, zero_mul] at hpos
    exact hpos.false
  have htotal : (M.log2 : ℤ) + E = 52 + e := by
    rcases le_total E e with hle | hle
    · rw [eq_mul_two_pow h hle, log2_mul_two_pow hm.ne', hlog]
      push_cast
      omega
    · have hmM := eq_mul_two_pow h.symm hle
      rw [hmM, log2_mul_two_pow hM] at hlog
      omega
  have htarget : Format.binary64.targetExponent (totalExponent M E) = e := by
    simp only [totalExponent, Format.targetExponent, Format.mantissaBits, Format.minExponent]
    push_cast
    omega
  rw [UnpackedFloat.round, htarget, decreaseExponent]
  rcases le_total E e with hle | hle
  · have hk : (E - e).toNat = 0 := by omega
    have hE : e - ((e - E).toNat : ℕ) = E := by omega
    have hround := roundWithAccuracy_exact (s := s) hm hlog hlow (e - E).toNat
    rw [hE, ← eq_mul_two_pow h hle] at hround
    simp only [hk, Nat.shiftLeft_zero, Nat.cast_zero, Int.sub_zero, hround]
  · have hmM : M <<< (E - e).toNat = m := by rw [Nat.shiftLeft_eq, ← eq_mul_two_pow h.symm hle]
    have hE : E - ((E - e).toNat : ℕ) = e := by omega
    have hround := roundWithAccuracy_exact (s := s) hm hlog hlow 0
    rw [Nat.pow_zero, Nat.mul_one, Nat.cast_zero, Int.sub_zero] at hround
    simp only [hmM, hE, hround]

theorem two_pow_le_mul_log2 {a b : ℕ} (ha : a.log2 = 52) (hb : b.log2 = 52) : 52 ≤ (a * b).log2 := by
  have ha0 : a ≠ 0 := by rintro rfl; simp at ha
  have hb0 : b ≠ 0 := by rintro rfl; simp at hb
  rw [Nat.le_log2 (Nat.mul_ne_zero ha0 hb0), ← ha]
  exact (Nat.log2_self_le ha0).trans (Nat.le_mul_of_pos_right a (Nat.pos_of_ne_zero hb0))

theorem apply_value (s : Sign) {a b : ℕ} {e f : ℤ} (h : (a : ℚ) * 2 ^ e = b * 2 ^ f) :
    ((s.apply (a : ℤ) : ℤ) : ℚ) * 2 ^ e = (s.apply (b : ℤ) : ℤ) * 2 ^ f := by
  cases s <;> simp [Sign.apply, h]

theorem natAbs_value {n : ℤ} (h : (n : ℚ) = (s.apply (m : ℤ) : ℤ) * 2 ^ e) : (n.natAbs : ℚ) = m * 2 ^ e := by
  rw [Nat.cast_natAbs, Int.cast_abs, h, abs_mul, abs_of_pos (a := (2 : ℚ) ^ e) (zpow_pos two_pos e)]
  cases s <;> simp [Sign.apply]

/-- The whole numbers as they are unpacked: a zero, or all digits that a mantissa has. -/
inductive IsWhole : UnpackedFloat → ℤ → Prop where
  | zero (s : Sign) : IsWhole (.zero s) 0
  | finite {s : Sign} {m : ℕ} {e n : ℤ} (hm : 0 < m) (hlog : m.log2 = 52) (hlow : -1074 ≤ e) (hhigh : e ≤ 971)
    (hvalue : (n : ℚ) = (s.apply (m : ℤ) : ℤ) * 2 ^ e) : IsWhole (.finite s m e hm) n

theorem natAbs_pos_of_value {n : ℤ} (hm : 0 < m) (h : (n : ℚ) = (s.apply (m : ℤ) : ℤ) * 2 ^ e) : 0 < n.natAbs := by
  have hpos : (0 : ℚ) < m * 2 ^ e := by positivity
  rw [← natAbs_value h] at hpos
  exact_mod_cast hpos

theorem isWhole_of_denotes {n : ℤ} (h : Denotes x n) : IsWhole x.toModel.unpack n := by
  have hvalue := denotes_iff.1 h
  cases hx : x.toModel.unpack with
  | notANumber => simp [hx, valueOf?] at hvalue
  | infinity s => simp [hx, valueOf?] at hvalue
  | zero s =>
    rw [hx, valueOf?, Option.some_inj] at hvalue
    obtain rfl : n = 0 := Int.cast_eq_zero.1 hvalue.symm
    exact .zero s
  | finite s m e hm =>
    rw [hx, valueOf?, Option.some_inj] at hvalue
    have hdecode : decode x = .finite (s == .negative) m e := by rw [decode_eq, hx, Exact.ofUnpacked]
    rcases normal_of_decode hdecode with ⟨hlog, hlow, hhigh⟩ | ⟨hsmall, he⟩
    · exact .finite hm hlog hlow hhigh hvalue.symm
    · -- a smaller mantissa belongs to a number between zero and one
      have hone : (1 : ℚ) ≤ n.natAbs := by exact_mod_cast natAbs_pos_of_value hm hvalue.symm
      have hlt : (m : ℚ) * 2 ^ e < 1 := by
        have hm52 : (m : ℚ) < 2 ^ 52 := by exact_mod_cast hsmall
        rw [he]
        calc (m : ℚ) * 2 ^ (-1074 : ℤ) < 2 ^ 52 * 2 ^ (-1074 : ℤ) := by gcongr
          _ = 2 ^ (-1022 : ℤ) := by
            rw [← zpow_natCast, ← zpow_add₀ two_ne_zero]
            rfl
          _ ≤ 1 := zpow_le_one_of_nonpos₀ one_le_two (by decide)
      rw [natAbs_value hvalue.symm] at hone
      exact absurd hlt (not_lt.2 hone)

/-! ### Arithmetic on whole numbers -/

theorem denotes_of_isWhole {u : UnpackedFloat} {n : ℤ} (h : IsWhole u n) : Denotes ⟨Float.Model.pack u⟩ n := by
  rw [denotes_iff]
  cases h with
  | zero s => rw [unpack_pack_zero, valueOf?, Int.cast_zero]
  | finite hm hlog hlow hhigh hvalue => rw [unpack_pack_finite hm hlog hlow hhigh, valueOf?, hvalue]

theorem denotes_round {M : ℕ} {E : ℤ} (hM : 0 < M) {n : ℤ} (h : (n : ℚ) = (s.apply (M : ℤ) : ℤ) * 2 ^ E)
    (hle : n.natAbs ≤ 2 ^ 53) : Denotes ⟨Float.Model.pack (UnpackedFloat.round .binary64 s M E)⟩ n := by
  obtain ⟨m, e, hm, hlog, hlow, hhigh, hnormal⟩ := exists_normal (natAbs_pos_of_value hM h) hle
  have hsame := (natAbs_value h).symm.trans hnormal
  rw [round_exact hm hlog hlow hsame]
  exact denotes_of_isWhole (.finite hm hlog hlow hhigh (h.trans (apply_value s hsame)))

theorem denotes_normalize {M : ℤ} {E : ℤ} {n : ℤ} (h : (n : ℚ) = M * 2 ^ E) (hle : n.natAbs ≤ 2 ^ 53) (s : Sign) :
    Denotes ⟨Float.Model.pack (UnpackedFloat.normalize .binary64 M E s)⟩ n := by
  rw [UnpackedFloat.normalize]
  split
  · next hcmp =>
    have hM := Int.compare_eq_lt.1 hcmp
    refine denotes_round (by omega) ?_ hle
    rw [h, Sign.apply, Int.toNat_of_nonneg (by omega), Int.neg_neg]
  · next hcmp =>
    have hM := Int.compare_eq_eq.1 hcmp
    obtain rfl : n = 0 := by
      rw [hM, Int.cast_zero, zero_mul] at h
      exact_mod_cast h
    exact denotes_of_isWhole (.zero s)
  · next hcmp =>
    have hM := Int.compare_eq_gt.1 hcmp
    refine denotes_round (by omega) ?_ hle
    rw [h, Sign.apply, Int.toNat_of_nonneg (by omega)]

theorem apply_decreaseExponent (s : Sign) (m : ℕ) {e f : ℤ} (hle : f ≤ e) :
    ((s.apply (m : ℤ) : ℤ) : ℚ) * 2 ^ e = (s.apply ((decreaseExponent m e f).1 : ℤ) : ℤ) * 2 ^ f := by
  refine apply_value s ?_
  have he : e = ((e - f).toNat : ℤ) + f := by omega
  rw [decreaseExponent, Nat.shiftLeft_eq]
  push_cast
  rw [mul_assoc, ← zpow_natCast, ← zpow_add₀ two_ne_zero, ← he]

theorem IsWhole.add {u v : UnpackedFloat} {a b : ℤ} (hu : IsWhole u a) (hv : IsWhole v b)
    (hle : (a + b).natAbs ≤ 2 ^ 53) : Denotes ⟨Float.Model.pack (UnpackedFloat.add .binary64 u v)⟩ (a + b : ℤ) := by
  cases hu with
  | zero s =>
    rw [Int.zero_add]
    cases hv with
    | zero s' => cases s <;> cases s' <;> exact denotes_of_isWhole (.zero _)
    | finite hm hlog hlow hhigh hvalue => exact denotes_of_isWhole (.finite hm hlog hlow hhigh hvalue)
  | @finite s m e _ hm hlog hlow hhigh hvalue =>
    cases hv with
    | zero s' =>
      rw [Int.add_zero]
      exact denotes_of_isWhole (.finite hm hlog hlow hhigh hvalue)
    | @finite s' m' e' _ hm' hlog' hlow' hhigh' hvalue' =>
      refine denotes_normalize ?_ hle _
      rw [Int.cast_add, Int.cast_add, add_mul, hvalue, hvalue', apply_decreaseExponent s m (min_le_left e e'),
        apply_decreaseExponent s' m' (min_le_right e e')]
      rfl

/-- The sum of whole numbers is exact unless it is too big. -/
theorem Denotes.add {a b : ℤ} (hx : Denotes x a) (hy : Denotes y b) (hle : (a + b).natAbs ≤ 2 ^ 53) :
    Denotes (x + y) (a + b : ℤ) :=
  (isWhole_of_denotes hx).add (isWhole_of_denotes hy) hle

theorem apply_mul (s s' : Sign) (a b : ℤ) : (s * s').apply (a * b) = s.apply a * s'.apply b := by
  cases s <;> cases s'
  · exact (neg_mul_neg a b).symm
  · exact (neg_mul a b).symm
  · exact (mul_neg a b).symm
  · rfl

theorem IsWhole.mul {u v : UnpackedFloat} {a b : ℤ} (hu : IsWhole u a) (hv : IsWhole v b)
    (hle : (a * b).natAbs ≤ 2 ^ 53) : Denotes ⟨Float.Model.pack (UnpackedFloat.mul .binary64 u v)⟩ (a * b : ℤ) := by
  cases hu with
  | zero s =>
    rw [Int.zero_mul]
    cases hv <;> exact denotes_of_isWhole (.zero _)
  | @finite s m e _ hm hlog _ _ hvalue =>
    cases hv with
    | zero s' =>
      rw [Int.mul_zero]
      exact denotes_of_isWhole (.zero _)
    | @finite s' m' e' _ hm' hlog' _ _ hvalue' =>
      have hproduct : ((a * b : ℤ) : ℚ) = ((s * s').apply ((m * m' : ℕ) : ℤ) : ℤ) * 2 ^ (e + e') := by
        rw [Int.cast_mul, hvalue, hvalue', zpow_add₀ two_ne_zero, Nat.cast_mul, apply_mul]
        push_cast
        ring
      obtain ⟨n, f, hn, hlogn, hlow, hhigh, hnormal⟩ :=
        exists_normal (natAbs_pos_of_value (Nat.mul_pos hm hm') hproduct) hle
      have hsame := (natAbs_value hproduct).symm.trans hnormal
      -- the product of two mantissas has at least as many digits, so that none is missing
      have hf : e + e' ≤ f := exponent_le hsame hlogn (two_pow_le_mul_log2 hlog hlog')
      have hround := roundWithAccuracy_exact (s := s * s') hn hlogn hlow (f - (e + e')).toNat
      have hexponent : f - ((f - (e + e')).toNat : ℕ) = e + e' := by omega
      rw [← eq_mul_two_pow hsame hf, hexponent] at hround
      rw [UnpackedFloat.mul, hround]
      exact denotes_of_isWhole (.finite hn hlogn hlow hhigh (hproduct.trans (apply_value (s * s') hsame)))

/-- The product of whole numbers is exact unless it is too big. -/
theorem Denotes.mul {a b : ℤ} (hx : Denotes x a) (hy : Denotes y b) (hle : (a * b).natAbs ≤ 2 ^ 53) :
    Denotes (x * y) (a * b : ℤ) :=
  (isWhole_of_denotes hx).mul (isWhole_of_denotes hy) hle

/-- A number that is not too big is written down exactly. -/
theorem denotes_ofNat {n : ℕ} (hle : n ≤ 2 ^ 53) : Denotes (ofNat n) n := by
  rcases Nat.eq_zero_or_pos n with rfl | hn
  · exact ⟨false, 0, -1074, by decide +kernel, by simp⟩
  rcases hle.lt_or_eq with hlt | rfl
  · have hlog : n.log2 ≤ 52 := by
      have := (Nat.log2_lt hn.ne').2 hlt
      omega
    generalize hk : 52 - n.log2 = k
    have hunit : max ((0 : ℤ) + bitLength n - 53) (-1074) = -(k : ℤ) := by
      rw [bitLength, if_neg hn.ne']
      omega
    have hmantissa : (n * 2 ^ k).log2 = 52 := by
      rw [log2_mul_two_pow hn.ne']
      omega
    obtain ⟨hlow, hhigh⟩ := (Nat.log2_eq_iff (by positivity)).1 hmantissa
    have hexact : ofNat n = ofFields false (1075 - k) (n * 2 ^ k - 2 ^ 52) := by
      have hshift : ((0 : ℤ) - -(k : ℤ)).toNat = k := by omega
      have hfield : (-(k : ℤ) + 1075).toNat = 1075 - k := by omega
      have hnot : -(k : ℤ) ≤ 0 ∧ ¬ -(k : ℤ) > 971 := by omega
      have hdigits : ¬ n * 2 ^ k = 2 ^ 53 ∧ ¬ n * 2 ^ k < 2 ^ 52 := by omega
      rw [ofNat, ofScaled]
      simp only [hunit, hshift, show ∀ j, Nat.pow 2 j = 2 ^ j from fun _ => rfl, hnot.1, hnot.2, hdigits.1, hdigits.2,
        if_true, if_false, hfield]
    have hvalue : ((2 ^ 52 + (n * 2 ^ k - 2 ^ 52) : ℕ) : ℚ) * 2 ^ (((1075 - k : ℕ) : ℤ) - 1075) = n := by
      have hexponent : ((1075 - k : ℕ) : ℤ) - 1075 = -(k : ℤ) := by omega
      rw [Nat.add_sub_cancel' hlow, hexponent, zpow_neg, zpow_natCast]
      push_cast
      field_simp
    rw [hexact, ← hvalue]
    exact denotes_ofFields (by omega) (by omega) (by omega)
  · exact ⟨false, 2 ^ 52, 1, by decide +kernel, by norm_num⟩

/-- A whole number is unpacked in one way, but for the sign of zero. -/
theorem IsWhole.unique {u v : UnpackedFloat} {n : ℤ} (hu : IsWhole u n) (hv : IsWhole v n) :
    u = v ∨ (∃ s, u = .zero s) ∧ ∃ s, v = .zero s := by
  cases hu with
  | zero s =>
    cases hv with
    | zero s' => exact .inr ⟨⟨s, rfl⟩, s', rfl⟩
    | finite hm _ _ _ hvalue => exact absurd (natAbs_pos_of_value hm hvalue) (by simp)
  | @finite s m e _ hm hlog _ _ hvalue =>
    cases hv with
    | zero s' => exact absurd (natAbs_pos_of_value hm hvalue) (by simp)
    | @finite s' m' e' _ hm' hlog' _ _ hvalue' =>
      have hsame := (natAbs_value hvalue).symm.trans (natAbs_value hvalue')
      obtain rfl : e = e' := (exponent_le hsame hlog' hlog.ge).antisymm (exponent_le hsame.symm hlog hlog'.ge)
      obtain rfl : m = m' := by simpa using eq_mul_two_pow hsame le_rfl
      have hpos : (0 : ℚ) < m * 2 ^ e := by positivity
      have hsign : s = s' := by
        rw [hvalue] at hvalue'
        cases s <;> cases s' <;> simp only [Sign.apply, Int.cast_neg, Int.cast_natCast, neg_mul] at hvalue' <;>
          first | rfl | linarith
      exact .inl (by rw [hsign])

/-- Doubles that stand for the same whole number are equal. -/
theorem Denotes.beq {n : ℤ} (hx : Denotes x n) (hy : Denotes y n) : (x == y) = true := by
  have hfirst := isWhole_of_denotes hx
  refine beq_iff.2 ⟨fun hnot => ?_, hfirst.unique (isWhole_of_denotes hy)⟩
  rw [hnot] at hfirst
  cases hfirst

end ViewBinding.Number
