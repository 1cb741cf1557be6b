import Mathlib.Algebra.Order.Field.Power
import Mathlib.Algebra.Order.Field.Rat
import Mathlib.Tactic.FieldSimp
import KeyedRows.Proofs.Decimal.Text

/-!
# Decimals as rationals

* `Decimal.toRat` : the rational `mantissa * 10 ^ exponent`;
* `toRat_ofScaled`, `toRat_ofMantissa` : bringing a pair to lowest terms keeps its value;
* `gap_toNat`, `mantissaAt_eq`, `mantissaAt_max` : two scales brought together, where the gap fits its
  32-bit word;
* `toRat_add`, `toRat_sub`, `toRat_neg`, `toRat_abs`, `toRat_mul` : the value of each exact operation.
-/

namespace KeyedRows.Decimal

def toRat (d : Decimal) : ℚ := d.mantissa * 10 ^ d.exponent

theorem toRat_eq_div (d : Decimal) : d.toRat = d.mantissa / 10 ^ d.scale := by
  rw [toRat, exponent, zpow_neg, zpow_natCast, div_eq_mul_inv]

theorem toRat_zero : (0 : Decimal).toRat = 0 := by
  rw [toRat_eq_div]
  show ((0 : Int) : ℚ) / 10 ^ 0 = 0
  rw [Int.cast_zero, zero_div]

theorem isZero_eq_true {d : Decimal} : d.isZero = true ↔ d.toRat = 0 := by
  have hpow : (10 : ℚ) ^ d.exponent ≠ 0 := zpow_ne_zero _ (by norm_num)
  rw [isZero, decide_eq_true_eq, toRat, mul_eq_zero_iff_right hpow]
  exact_mod_cast Iff.rfl

/-! ## Lowest terms -/

theorem strip_div (m : Int) (s : Nat) : ((strip m s).1 : ℚ) / 10 ^ (strip m s).2 = m / 10 ^ s := by
  fun_induction strip m s with
  | case1 m => rfl
  | case2 m s hm ih =>
    have hten : m / 10 * 10 = m := Int.ediv_mul_cancel (Int.dvd_of_emod_eq_zero hm)
    have hcast : (m : ℚ) = (m / 10 : Int) * 10 := by exact_mod_cast hten.symm
    rw [ih, hcast, pow_succ]
    field_simp
  | case3 m s hm => rfl

theorem toRat_ofScaled (m : Int) (s : Nat) (h : s ≤ maxScale) :
    (ofScaled m s h).toRat = m / 10 ^ s := by
  unfold ofScaled
  by_cases hm : m = 0
  · rw [if_pos hm, toRat_zero, hm, Int.cast_zero, zero_div]
  · rw [if_neg hm, toRat_eq_div, strip_div]

/-- The decimal of a mantissa and an exponent has their value, whatever the sign of the exponent. -/
theorem toRat_ofMantissa (m : Int) (e : Int32) : (ofMantissa m e).toRat = m * 10 ^ e.toInt := by
  unfold ofMantissa
  by_cases hm : m = 0
  · rw [if_pos hm, toRat_zero, hm, Int.cast_zero, zero_mul]
  · rw [if_neg hm]
    by_cases he : 0 < e.toInt
    · obtain ⟨n, hn⟩ := Int.eq_ofNat_of_zero_le he.le
      have hpow : ((Int.pow 10 n : Int) : ℚ) = 10 ^ n := Int.cast_pow 10 n
      rw [if_pos he, toRat_ofScaled, hn, Int.toNat_natCast, Int.cast_mul, hpow, pow_zero, div_one,
        zpow_natCast]
    · obtain ⟨n, hn⟩ := Int.eq_ofNat_of_zero_le (by omega : 0 ≤ -e.toInt)
      have hneg : e.toInt = -(n : Int) := by omega
      rw [if_neg he, toRat_ofScaled, hn, Int.toNat_natCast, hneg, zpow_neg, zpow_natCast,
        div_eq_mul_inv]

/-! ## One scale for two decimals -/

theorem gap_toNat {s t : Nat} (hs : s ≤ t) (ht : t ≤ maxScale) :
    (UInt32.ofInt ((t : Int) - s)).toNat = t - s := by
  unfold maxScale at ht
  rw [UInt32.ofInt, UInt32.toNat_ofNat']
  omega

theorem mantissaAt_eq {d : Decimal} {s : Nat} (h : d.scale ≤ s) (hs : s ≤ maxScale) :
    d.mantissaAt s = d.mantissa * 10 ^ (s - d.scale) := by
  rw [mantissaAt, pow10, gap_toNat h hs]
  rfl

theorem mantissaAt_div {d : Decimal} {s : Nat} (h : d.scale ≤ s) (hs : s ≤ maxScale) :
    (d.mantissaAt s : ℚ) / 10 ^ s = d.toRat := by
  have hpow : (10 : ℚ) ^ s = 10 ^ (s - d.scale) * 10 ^ d.scale := by
    rw [← pow_add, Nat.sub_add_cancel h]
  rw [mantissaAt_eq h hs, toRat_eq_div, hpow, Int.cast_mul, Int.cast_pow, Int.cast_ofNat]
  field_simp

/-! ## Exact operations -/

section
variable (a b : Decimal)

theorem mantissaAt_max :
    (a.mantissaAt (max a.scale b.scale) : ℚ) / 10 ^ max a.scale b.scale = a.toRat ∧
      (b.mantissaAt (max a.scale b.scale) : ℚ) / 10 ^ max a.scale b.scale = b.toRat := by
  have hle := max_scale_le a b
  exact ⟨mantissaAt_div (Nat.le_max_left _ _) hle, mantissaAt_div (Nat.le_max_right _ _) hle⟩

theorem toRat_add : (a + b).toRat = a.toRat + b.toRat := by
  obtain ⟨ha, hb⟩ := mantissaAt_max a b
  show (add a b).toRat = _
  rw [add, toRat_ofScaled, Int.cast_add, add_div, ha, hb]

theorem toRat_sub : (a - b).toRat = a.toRat - b.toRat := by
  obtain ⟨ha, hb⟩ := mantissaAt_max a b
  show (sub a b).toRat = _
  rw [sub, toRat_ofScaled, Int.cast_sub, sub_div, ha, hb]

theorem toRat_neg : (-a).toRat = -a.toRat := by
  show ((-a.mantissa : Int) : ℚ) * 10 ^ a.exponent = _
  rw [Int.cast_neg, neg_mul, toRat]

theorem toRat_abs : a.abs.toRat = |a.toRat| := by
  have hpow : (0 : ℚ) < 10 ^ a.exponent := zpow_pos (by norm_num) _
  unfold abs
  by_cases hm : a.mantissa < 0
  · have hneg : a.toRat < 0 := mul_neg_of_neg_of_pos (Int.cast_lt_zero.2 hm) hpow
    rw [if_pos hm, abs_of_neg hneg]
    exact toRat_neg a
  · have hnonneg : 0 ≤ a.toRat := mul_nonneg (Int.cast_nonneg (not_lt.1 hm)) hpow.le
    rw [if_neg hm, abs_of_nonneg hnonneg]

variable {a b}

theorem toRat_mul {d : Decimal} (h : a.mul? b = .ok d) : d.toRat = a.toRat * b.toRat := by
  unfold mul? at h
  split at h
  · cases h
    rw [toRat_ofScaled, toRat_eq_div, toRat_eq_div, Int.cast_mul, pow_add, div_mul_div_comm]
  · cases h

/-- There is a product as long as the exponents add up to a 32-bit integer. -/
theorem exists_mul_iff : (∃ d, a.mul? b = .ok d) ↔ Int32.minValue.toInt ≤ a.exponent + b.exponent := by
  have hmin : Int32.minValue.toInt = -(maxScale : Int) := rfl
  rw [hmin, exponent, exponent]
  unfold mul?
  split
  · next h => exact ⟨fun _ => by omega, fun _ => ⟨_, rfl⟩⟩
  · next h =>
    constructor
    · rintro ⟨_, ⟨⟩⟩
    · intro hsum
      omega

end

end KeyedRows.Decimal
