import Mathlib
import ViewBinding.Number.Exact

/-! Doubles as numbers. The bits of a double are unpacked into a sign, a mantissa and an exponent; what they say and
the number that they stand for are read off from there, and packing gives the bits back. -/
namespace ViewBinding.Number

open Float.Model Float.Model.UnpackedFloat

variable {x y z : Float} {s : Sign} {m : ℕ} {e : ℤ}

/-- What an unpacked double says. -/
def Exact.ofUnpacked : UnpackedFloat → Exact
  | .notANumber => .nan
  | .infinity s => .infinite (s == .negative)
  | .zero s => .finite (s == .negative) 0 (-1074)
  | .finite s m e _ => .finite (s == .negative) m e

theorem toNat_unpackMantissa (b : BitVec 64) :
    (@unpackMantissa .binary64 b).toNat = b.toNat % Nat.pow 2 52 := by
  simp [unpackMantissa, BitVec.extractLsb_toNat]

theorem toNat_unpackExponent (b : BitVec 64) :
    (@unpackExponent .binary64 b).toNat = b.toNat / Nat.pow 2 52 % 2048 := by
  simp [unpackExponent, BitVec.extractLsb_toNat, Nat.shiftRight_eq_div_pow]

theorem ofBitVec_unpackSign (b : BitVec 64) :
    (Sign.ofBitVec (@unpackSign .binary64 b) == .negative) = (b.toNat / Nat.pow 2 63 == 1) := by
  have hsign : (@unpackSign .binary64 b).toNat = b.toNat / Nat.pow 2 63 := by
    have hlt := b.isLt
    simp [unpackSign, BitVec.extractLsb_toNat, Nat.shiftRight_eq_div_pow]
    omega
  rw [Sign.ofBitVec, ← hsign]
  generalize @unpackSign .binary64 b = c
  have : ∀ c : BitVec 1, ((if c = 0#1 then Sign.positive else Sign.negative) == Sign.negative) = (c.toNat == 1) := by decide
  exact this c

theorem toNat_one_append (b : BitVec 64) :
    (1#1 ++ @unpackMantissa .binary64 b).toNat = Nat.pow 2 52 + b.toNat % Nat.pow 2 52 := by
  rw [BitVec.toNat_append, ← Nat.shiftLeft_add_eq_or_of_lt (@unpackMantissa .binary64 b).isLt,
    toNat_unpackMantissa]
  rfl

theorem unpackExponent_eq_ones (b : BitVec 64) :
    @unpackExponent .binary64 b = -1#11 ↔ b.toNat / Nat.pow 2 52 % 2048 = 2047 := by
  rw [← toNat_unpackExponent, ← BitVec.toNat_inj]
  rfl

theorem unpackExponent_eq_zero (b : BitVec 64) :
    @unpackExponent .binary64 b = 0#11 ↔ b.toNat / Nat.pow 2 52 % 2048 = 0 := by
  rw [← toNat_unpackExponent, ← BitVec.toNat_inj]
  rfl

theorem unpackMantissa_eq_zero (b : BitVec 64) :
    @unpackMantissa .binary64 b = 0#52 ↔ b.toNat % Nat.pow 2 52 = 0 := by
  rw [← toNat_unpackMantissa, ← BitVec.toNat_inj]
  rfl

/-- Between the least and the greatest exponent field all digits are there. -/
theorem unpack_normal {b : BitVec 64} (hmost : b.toNat / Nat.pow 2 52 % 2048 ≠ 2047)
    (hleast : b.toNat / Nat.pow 2 52 % 2048 ≠ 0) (hm : 0 < Nat.pow 2 52 + b.toNat % Nat.pow 2 52) :
    UnpackedFloat.unpack .binary64 b = .finite (.ofBitVec (@unpackSign .binary64 b))
      (Nat.pow 2 52 + b.toNat % Nat.pow 2 52) ((b.toNat / Nat.pow 2 52 % 2048 : ℕ) - 1075) hm := by
  unfold UnpackedFloat.unpack
  dsimp only
  rw [if_neg (mt (unpackExponent_eq_ones b).1 hmost), if_neg (mt (unpackExponent_eq_zero b).1 hleast)]
  congr 1
  · exact toNat_one_append b
  · rw [toNat_unpackExponent]
    rfl

theorem decode_eq (x : Float) : decode x = .ofUnpacked x.toModel.unpack := by
  have hbits : x.toBits.toNat = x.toModel.toBits.toBitVec.toNat := rfl
  rw [decode, hbits, Float.Model.unpack]
  generalize x.toModel.toBits.toBitVec = b
  by_cases hmost : b.toNat / Nat.pow 2 52 % 2048 = 2047
  · unfold UnpackedFloat.unpack
    dsimp only
    rw [if_pos ((unpackExponent_eq_ones b).2 hmost), if_pos (beq_iff_eq.2 hmost), ← ofBitVec_unpackSign]
    by_cases hm : b.toNat % Nat.pow 2 52 = 0
    · rw [if_pos ((unpackMantissa_eq_zero b).2 hm), if_pos (beq_iff_eq.2 hm), Exact.ofUnpacked]
    · rw [if_neg (mt (unpackMantissa_eq_zero b).1 hm), if_neg (mt beq_iff_eq.1 hm), Exact.ofUnpacked]
  · rw [if_neg (mt beq_iff_eq.1 hmost)]
    by_cases hleast : b.toNat / Nat.pow 2 52 % 2048 = 0
    · have hexponent := (unpackExponent_eq_zero b).2 hleast
      unfold UnpackedFloat.unpack
      dsimp only
      rw [if_neg (mt (unpackExponent_eq_ones b).1 hmost), if_pos hexponent,
        if_pos (beq_iff_eq.2 hleast), ← ofBitVec_unpackSign]
      by_cases hm : b.toNat % Nat.pow 2 52 = 0
      · rw [dif_pos ((unpackMantissa_eq_zero b).2 hm), hm, Exact.ofUnpacked]
      · rw [dif_neg (mt (unpackMantissa_eq_zero b).1 hm), Exact.ofUnpacked, toNat_unpackMantissa, hexponent]
        rfl
    · rw [if_neg (mt beq_iff_eq.1 hleast), unpack_normal hmost hleast (Nat.add_pos_left (by decide) _),
        ← ofBitVec_unpackSign, Exact.ofUnpacked]
      rfl

/-- The number that a double stands for. -/
def Denotes (x : Float) (q : ℚ) : Prop :=
  ∃ negative m e, decode x = .finite negative m e ∧ q = (if negative then -1 else 1) * m * 2 ^ e

/-- The number that an unpacked double stands for. -/
def valueOf? : UnpackedFloat → Option ℚ
  | .zero _ => some 0
  | .finite s m e _ => some (s.apply m * 2 ^ e)
  | _ => none

theorem value_finite (s : Sign) (m : ℕ) (e : ℤ) :
    (if s == .negative then -1 else 1) * (m : ℚ) * 2 ^ e = (s.apply (m : ℤ) : ℤ) * 2 ^ e := by
  cases s with
  | negative =>
    rw [show (Sign.negative == Sign.negative) = true from rfl]
    simp [Sign.apply]
  | positive =>
    rw [show (Sign.positive == Sign.negative) = false from rfl]
    simp [Sign.apply]

theorem denotes_iff {q : ℚ} : Denotes x q ↔ valueOf? x.toModel.unpack = some q := by
  have hexact : Denotes x q ↔ ∃ negative m e, Exact.ofUnpacked x.toModel.unpack = .finite negative m e ∧
      q = (if negative then -1 else 1) * m * 2 ^ e := by rw [Denotes, decode_eq]
  rw [hexact]
  cases x.toModel.unpack with
  | notANumber => simp [Exact.ofUnpacked, valueOf?]
  | infinity s => simp [Exact.ofUnpacked, valueOf?]
  | zero s =>
    rw [valueOf?, Option.some_inj]
    constructor
    · rintro ⟨_, _, _, heq, rfl⟩
      cases heq
      simp
    · rintro rfl
      exact ⟨_, _, _, rfl, by simp⟩
  | finite s m e hm =>
    rw [valueOf?, Option.some_inj]
    constructor
    · rintro ⟨_, _, _, heq, rfl⟩
      cases heq
      exact (value_finite s m e).symm
    · rintro rfl
      exact ⟨_, _, _, rfl, (value_finite s m e).symm⟩

theorem unpackSign_packComponents (s : Sign) (exponent : BitVec 11) (mantissa : BitVec 52) :
    @unpackSign .binary64 (packComponents .binary64 s exponent mantissa) = s.toBitVec := by
  apply BitVec.eq_of_toNat_eq
  have hexponent := exponent.isLt
  have hmantissa := mantissa.isLt
  have hs := s.toBitVec.isLt
  simp only [unpackSign, packComponents, BitVec.toNat_cast, BitVec.extractLsb_toNat, BitVec.toNat_append,
    Nat.shiftRight_eq_div_pow]
  rw [← Nat.shiftLeft_add_eq_or_of_lt hmantissa, ← Nat.shiftLeft_add_eq_or_of_lt hexponent, Nat.shiftLeft_eq,
    Nat.shiftLeft_eq]
  simp
  omega

theorem unpack_pack_zero (s : Sign) : (Float.Model.pack (.zero s)).unpack = .zero s := by
  cases s <;> rfl

theorem unpack_pack_finite (hm : 0 < m) (hlog : m.log2 = 52) (hlow : -1074 ≤ e) (hhigh : e ≤ 971) :
    (Float.Model.pack (.finite s m e hm)).unpack = .finite s m e hm := by
  obtain ⟨hmlow, hmhigh⟩ := (Nat.log2_eq_iff hm.ne').1 hlog
  have hbiased : ((e + Format.binary64.exponentBias + (52 : ℕ)).toNat : ℤ) = e + 1075 := by
    simp [Format.exponentBias]
    omega
  generalize hfield : (e + Format.binary64.exponentBias + (52 : ℕ)).toNat = field at hbiased
  have hpack : UnpackedFloat.pack .binary64 (.finite s m e hm) =
      packComponents .binary64 s (BitVec.ofNat 11 field) (BitVec.ofNat 52 m) := by
    have hmost : ¬ 2 ^ 11 ≤ field + 1 := by omega
    simp only [UnpackedFloat.pack, hfield, hmost, if_false, hlog]
    rfl
  have hfieldNat : (BitVec.ofNat 11 field).toNat = field := by
    rw [BitVec.toNat_ofNat, Nat.mod_eq_of_lt (by omega)]
  have hother : ∀ b : BitVec 11, field ≠ b.toNat → ¬ BitVec.ofNat 11 field = b := fun b hb h => hb (by rw [← h, hfieldNat])
  have hone : ¬ BitVec.ofNat 11 field = -1#11 := hother _ (show field ≠ 2047 by omega)
  have hzero : ¬ BitVec.ofNat 11 field = 0#11 := hother _ (show field ≠ 0 by omega)
  have hmant : (1#1 ++ BitVec.ofNat 52 m).toNat = m := by
    rw [BitVec.toNat_append, ← Nat.shiftLeft_add_eq_or_of_lt (BitVec.isLt _), BitVec.toNat_ofNat, Nat.shiftLeft_eq]
    change 1 * 2 ^ 52 + m % 2 ^ 52 = m
    omega
  change UnpackedFloat.unpack .binary64 (UnpackedFloat.pack .binary64 (.finite s m e hm)) = _
  rw [hpack, UnpackedFloat.unpack]
  simp only [unpackExponent_packComponents, unpackMantissa_packComponents]
  rw [if_neg hone, if_neg hzero]
  congr 1
  · rw [unpackSign_packComponents]
    cases s <;> rfl
  · rw [hfieldNat, hbiased]
    simp [Format.exponentBias]

/-- The mantissa of a number has all its digits unless the number is very small. -/
theorem normal_of_decode {negative : Bool} (h : decode x = .finite negative m e) :
    m.log2 = 52 ∧ -1074 ≤ e ∧ e ≤ 971 ∨ m < 2 ^ 52 ∧ e = -1074 := by
  have hfraction : x.toBits.toNat % Nat.pow 2 52 < 2 ^ 52 := Nat.mod_lt _ (by decide)
  have hfield : x.toBits.toNat / Nat.pow 2 52 % 2048 < 2048 := Nat.mod_lt _ (by decide)
  unfold decode at h
  dsimp only at h
  split at h
  · split at h <;> cases h
  · next hmost =>
    split at h
    · cases h
      exact .inr ⟨hfraction, rfl⟩
    · next hleast =>
      cases h
      rw [beq_iff_eq] at hmost hleast
      have hbounds : 2 ^ 52 ≤ Nat.pow 2 52 + x.toBits.toNat % Nat.pow 2 52 ∧
          Nat.pow 2 52 + x.toBits.toNat % Nat.pow 2 52 < 2 ^ (52 + 1) := by
        change 2 ^ 52 ≤ 2 ^ 52 + _ ∧ 2 ^ 52 + _ < 2 ^ 53
        omega
      refine .inl ⟨(Nat.log2_eq_iff (by omega)).2 hbounds, ?_, ?_⟩ <;> rw [Int.ofNat_eq_natCast] <;> omega

theorem toNat_fields {field fraction : ℕ} (hmost : field < 2048) (hfraction : fraction < 2 ^ 52) :
    (UInt64.ofNat (0 + field * Nat.pow 2 52 + fraction)).toBitVec.toNat = field * 2 ^ 52 + fraction := by
  have hlt : 0 + field * 2 ^ 52 + fraction < 2 ^ 64 := by omega
  rw [UInt64.toNat_toBitVec, show Nat.pow 2 52 = 2 ^ 52 from rfl, UInt64.toNat_ofNat_of_lt' hlt, Nat.zero_add]

/-- The number that the fields of the binary format say. -/
theorem denotes_ofFields {field fraction : ℕ} (hleast : 0 < field) (hmost : field < 2047) (hfraction : fraction < 2 ^ 52) :
    Denotes (ofFields false field fraction) ((2 ^ 52 + fraction : ℕ) * 2 ^ ((field : ℤ) - 1075)) := by
  have hbits := toNat_fields (hmost.trans (by decide)) hfraction
  have hvalue : (ofFields false field fraction).toModel = Float.Model.pack (UnpackedFloat.unpack .binary64
    (UInt64.ofNat (0 + field * Nat.pow 2 52 + fraction)).toBitVec) := rfl
  rw [denotes_iff, hvalue]
  generalize (UInt64.ofNat (0 + field * Nat.pow 2 52 + fraction)).toBitVec = b at hbits
  have hfield : b.toNat / Nat.pow 2 52 % 2048 = field := by
    rw [hbits, show Nat.pow 2 52 = 2 ^ 52 from rfl]
    omega
  have hmantissa : Nat.pow 2 52 + b.toNat % Nat.pow 2 52 = 2 ^ 52 + fraction := by
    rw [hbits, show Nat.pow 2 52 = 2 ^ 52 from rfl]
    omega
  have hsign : Sign.ofBitVec (@unpackSign .binary64 b) = .positive := by
    have hneg := ofBitVec_unpackSign b
    rw [hbits, show Nat.pow 2 63 = 2 ^ 63 from rfl, Nat.div_eq_of_lt (by omega)] at hneg
    cases hs : Sign.ofBitVec (@unpackSign .binary64 b) with
    | positive => rfl
    | negative =>
      rw [hs] at hneg
      cases hneg
  have hm : 0 < Nat.pow 2 52 + b.toNat % Nat.pow 2 52 := by omega
  have hlog : (Nat.pow 2 52 + b.toNat % Nat.pow 2 52).log2 = 52 :=
    (Nat.log2_eq_iff hm.ne').2 (by rw [hmantissa]; omega)
  rw [unpack_normal (by omega) (by omega) hm, unpack_pack_finite hm hlog (by omega) (by omega), valueOf?, hsign, hfield,
    hmantissa, Sign.apply, Int.cast_natCast]

/-! ### Equality -/

/-- Two doubles compare as equal if they are the same or both zero, and a number. -/
theorem compare_eq_some_eq {a b : UnpackedFloat} :
    a.compare b = some .eq ↔ a ≠ .notANumber ∧ (a = b ∨ (∃ s, a = .zero s) ∧ ∃ s, b = .zero s) := by
  rcases a with (_ | _) | _ | (_ | _) | ⟨_ | _, m, e, hm⟩ <;>
    rcases b with (_ | _) | _ | (_ | _) | ⟨_ | _, n, f, hn⟩ <;>
    simp [UnpackedFloat.compare, and_comm] <;> rfl

theorem beq_iff : (x == y) = true ↔ x.toModel.unpack ≠ .notANumber ∧ (x.toModel.unpack = y.toModel.unpack ∨
    (∃ s, x.toModel.unpack = .zero s) ∧ ∃ s, y.toModel.unpack = .zero s) := by
  rw [← compare_eq_some_eq]
  exact @beq_iff_eq (Option Ordering) _ _ _ _

theorem beq_symm (h : (x == y) = true) : (y == x) = true := by
  rw [beq_iff] at h ⊢
  rcases h with ⟨hx, he | ⟨⟨s, hs⟩, t, ht⟩⟩
  · exact ⟨he ▸ hx, .inl he.symm⟩
  · exact ⟨by simp [ht], .inr ⟨⟨t, ht⟩, s, hs⟩⟩

theorem beq_trans (h : (x == y) = true) (h' : (y == z) = true) : (x == z) = true := by
  rw [beq_iff] at h h' ⊢
  rcases h with ⟨hx, he | ⟨hs, ht⟩⟩
  · rw [he] at hx ⊢
    exact ⟨hx, h'.2⟩
  · rcases h' with ⟨-, he' | ⟨-, ht'⟩⟩
    · exact ⟨hx, .inr ⟨hs, he' ▸ ht⟩⟩
    · exact ⟨hx, .inr ⟨hs, ht'⟩⟩

end ViewBinding.Number
