import Mathlib.Data.Rat.Floor
import Mathlib.Data.Sign.Basic
import KeyedRows.Proofs.Decimal.Rational

/-!
# Quotients

* `trunc` : a rational without its fraction;
* `trunc_div` : the integer quotient is the rational one without its fraction;
* `abs_trunc_le`, `abs_sub_trunc_lt`, `sign_trunc` : it is nearer to zero than the rational, by less than
  one, and on the same side;
* `cutAt` : a rational without what follows a digit, with the same bounds;
* `shift`, `shiftedQuotient` : the power of ten between two mantissas, and their quotient at that power;
* `shiftedQuotient_eq` : that quotient is the rational one at the digits asked for, without its fraction;
* `toNat_ofNat_scale`, `natCast_le_maxValue` : a scale fits a 32-bit word, and all but the largest one with a sign;
* `toNat_clamp` : a shift fits its 32-bit word, also that of the smallest exponent by the most digits;
* `div_eq_ite`, `exists_div_error_iff`, `toRat_div` : so a division is stopped by zero or by too many digits
  alone, and otherwise cuts the rational quotient;
* `div_truncates` : what a quotient is, and how far it is from the rational one.
-/

namespace KeyedRows.Decimal

/-! ## Towards zero -/

/-- A rational without its fraction: the nearest integer on the way to zero. -/
def trunc (q : ℚ) : ℤ := if 0 ≤ q then ⌊q⌋ else ⌈q⌉

theorem trunc_neg (q : ℚ) : trunc (-q) = -trunc q := by
  unfold trunc
  rcases lt_trichotomy q 0 with hneg | rfl | hpos
  · rw [if_pos (by linarith), if_neg (by linarith), Int.floor_neg]
  · rw [neg_zero, if_pos le_rfl, Int.floor_zero, neg_zero]
  · rw [if_neg (by linarith), if_pos hpos.le, Int.ceil_neg]

/-- The integer quotient is the rational one without its fraction. -/
theorem trunc_div (m n : ℤ) : trunc (m / n) = m.tdiv n := by
  have hnat (k l : ℕ) : trunc ((k : ℤ) / (l : ℤ) : ℚ) = (k : ℤ).tdiv l := by
    have hnonneg : (0 : ℚ) ≤ (k : ℤ) / (l : ℤ) := by positivity
    rw [trunc, if_pos hnonneg, Int.tdiv_eq_ediv_of_nonneg (Int.natCast_nonneg k)]
    exact Rat.floor_intCast_div_natCast k l
  -- A sign of either one comes out of both quotients.
  obtain ⟨k, rfl | rfl⟩ := m.eq_nat_or_neg <;> obtain ⟨l, rfl | rfl⟩ := n.eq_nat_or_neg
  · exact hnat k l
  · rw [Int.cast_neg, div_neg, trunc_neg, Int.tdiv_neg, hnat]
  · rw [Int.cast_neg, neg_div, trunc_neg, Int.neg_tdiv, hnat]
  · rw [Int.cast_neg, Int.cast_neg, neg_div_neg_eq, Int.neg_tdiv, Int.tdiv_neg, neg_neg, hnat]

theorem trunc_of_nonneg {q : ℚ} (h : 0 ≤ q) : 0 ≤ trunc q ∧ (trunc q : ℚ) ≤ q ∧ q < trunc q + 1 := by
  rw [trunc, if_pos h]
  exact ⟨Int.floor_nonneg.2 h, Int.floor_le q, Int.lt_floor_add_one q⟩

theorem trunc_of_nonpos {q : ℚ} (h : q ≤ 0) : trunc q ≤ 0 ∧ q ≤ trunc q ∧ (trunc q : ℚ) < q + 1 := by
  obtain ⟨hsign, hle, hlt⟩ := trunc_of_nonneg (neg_nonneg.2 h)
  rw [trunc_neg] at hsign hle hlt
  push_cast at hle hlt
  exact ⟨neg_nonneg.1 hsign, by linarith, by linarith⟩

theorem abs_trunc_le (q : ℚ) : |(trunc q : ℚ)| ≤ |q| := by
  rcases le_total 0 q with h | h
  · obtain ⟨hsign, hle, _⟩ := trunc_of_nonneg h
    rwa [abs_of_nonneg h, abs_of_nonneg (Int.cast_nonneg hsign)]
  · obtain ⟨hsign, hle, _⟩ := trunc_of_nonpos h
    rw [abs_of_nonpos h, abs_of_nonpos (Int.cast_nonpos.2 hsign)]
    exact neg_le_neg hle

theorem abs_sub_trunc_lt (q : ℚ) : |q - trunc q| < 1 := by
  rw [abs_lt]
  rcases le_total 0 q with h | h
  · obtain ⟨_, hle, hlt⟩ := trunc_of_nonneg h
    constructor <;> linarith
  · obtain ⟨_, hle, hlt⟩ := trunc_of_nonpos h
    constructor <;> linarith

theorem sign_trunc (q : ℚ) : trunc q = 0 ∨ SignType.sign (trunc q : ℚ) = SignType.sign q := by
  rw [or_iff_not_imp_left]
  intro hne
  rcases lt_trichotomy q 0 with h | rfl | h
  · have hneg : trunc q < 0 := lt_of_le_of_ne (trunc_of_nonpos h.le).1 hne
    rw [sign_neg h, sign_neg (Int.cast_lt_zero.2 hneg)]
  · exact absurd (by rw [trunc, if_pos le_rfl, Int.floor_zero]) hne
  · have hpos : 0 < trunc q := lt_of_le_of_ne (trunc_of_nonneg h.le).1 (Ne.symm hne)
    rw [sign_pos h, sign_pos (Int.cast_pos.2 hpos)]

/-! ## At a digit after the point -/

/-- A rational without its digits beyond the first `n` after the point. -/
def cutAt (n : Nat) (q : ℚ) : ℚ := trunc (q * 10 ^ n) / 10 ^ n

theorem abs_cutAt_le (n : Nat) (q : ℚ) : |cutAt n q| ≤ |q| := by
  have hpow : (0 : ℚ) < 10 ^ n := by positivity
  rw [cutAt, abs_div, abs_of_pos hpow, div_le_iff₀ hpow]
  calc |(trunc (q * 10 ^ n) : ℚ)| ≤ |q * 10 ^ n| := abs_trunc_le _
    _ = |q| * 10 ^ n := by rw [abs_mul, abs_of_pos hpow]

theorem abs_sub_cutAt_lt (n : Nat) (q : ℚ) : |q - cutAt n q| < 10 ^ (-n : ℤ) := by
  have hpow : (0 : ℚ) < 10 ^ n := by positivity
  have hsub : q - cutAt n q = (q * 10 ^ n - trunc (q * 10 ^ n)) / 10 ^ n := by
    rw [cutAt, sub_div, mul_div_cancel_right₀ _ hpow.ne']
  rw [hsub, abs_div, abs_of_pos hpow, zpow_neg, zpow_natCast, ← one_div]
  exact div_lt_div_of_pos_right (abs_sub_trunc_lt _) hpow

theorem sign_cutAt (n : Nat) (q : ℚ) :
    cutAt n q = 0 ∨ SignType.sign (cutAt n q) = SignType.sign q := by
  have hpow : (0 : ℚ) < 10 ^ n := by positivity
  rcases sign_trunc (q * 10 ^ n) with hzero | hsign
  · left
    rw [cutAt, hzero, Int.cast_zero, zero_div]
  · right
    rw [cutAt, div_eq_mul_inv, sign_mul, sign_pos (inv_pos.2 hpow), mul_one, hsign, sign_mul,
      sign_pos hpow, mul_one]

/-! ## The shift -/

/-- The power of ten between the mantissas of two decimals and a quotient of `n` digits. -/
def shift (a b : Decimal) (n : Nat) : Int := a.exponent - b.exponent + n

/-- The quotient of the mantissas, the one or the other at a power of ten. -/
def shiftedQuotient (a b : Decimal) (n : Nat) : Int :=
  if 0 ≤ a.shift b n then (a.mantissa * 10 ^ (a.shift b n).toNat).tdiv b.mantissa
  else a.mantissa.tdiv (b.mantissa * 10 ^ (-a.shift b n).toNat)

/-- The quotient of the mantissas is that of the values, at `n` digits and without the rest. -/
theorem shiftedQuotient_eq (a b : Decimal) (n : Nat) :
    a.shiftedQuotient b n = trunc (a.toRat / b.toRat * 10 ^ n) := by
  have hten : (10 : ℚ) ≠ 0 := by norm_num
  have hvalue : a.toRat / b.toRat * 10 ^ n = a.mantissa / b.mantissa * 10 ^ a.shift b n := by
    rw [toRat, toRat, mul_div_mul_comm, ← zpow_sub₀ hten, mul_assoc, ← zpow_natCast,
      ← zpow_add₀ hten, shift]
  rw [hvalue, shiftedQuotient]
  by_cases hshift : 0 ≤ a.shift b n
  · obtain ⟨k, hk⟩ := Int.eq_ofNat_of_zero_le hshift
    rw [if_pos hshift, hk, Int.toNat_natCast, zpow_natCast, div_mul_eq_mul_div, ← trunc_div]
    push_cast
    rfl
  · obtain ⟨k, hk⟩ := Int.eq_ofNat_of_zero_le (by omega : 0 ≤ -a.shift b n)
    have hneg : a.shift b n = -(k : Int) := by omega
    rw [if_neg hshift, hk, Int.toNat_natCast, hneg, zpow_neg, zpow_natCast, ← trunc_div]
    push_cast
    rw [div_mul_eq_div_div, div_eq_mul_inv (_ / _)]

/-! ## The word of the shift -/

/-- The digits of a quotient: as many as the dividend has, unless a count is given. -/
def digitCount (a : Decimal) (digits : Option UInt32) : Nat := (digits.map UInt32.toNat).getD a.scale

theorem toNat_ofNat_scale (d : Decimal) : (UInt32.ofNat d.scale).toNat = d.scale := by
  have hscale : d.scale ≤ 2147483648 := d.scale_le
  rw [UInt32.toNat_ofNat']
  omega

theorem toNat_getD (a : Decimal) (digits : Option UInt32) :
    (digits.getD (UInt32.ofNat a.scale)).toNat = a.digitCount digits := by
  cases digits with
  | some n => rfl
  | none => exact toNat_ofNat_scale a

theorem natCast_le_maxValue {n : Nat} : (n : Int) ≤ Int32.maxValue.toInt ↔ n < maxScale := by
  rw [show Int32.maxValue.toInt = 2147483647 from rfl, maxScale]
  omega

theorem toNat_ofNatClamp {k : Nat} (h : k < UInt32.size) : (UInt32.ofNatClamp k).toNat = k := by
  rw [UInt32.ofNatClamp, dif_pos h, UInt32.toNat_ofNatLT]

/-- A shift in either direction fits its word, as long as the digits fit an exponent. -/
theorem toNat_clamp (a b : Decimal) {n : Nat} (hn : n < maxScale) :
    (UInt32.ofNatClamp (a.shift b n).toNat).toNat = (a.shift b n).toNat ∧
      (UInt32.ofNatClamp (-a.shift b n).toNat).toNat = (-a.shift b n).toNat := by
  have ha : a.scale ≤ 2147483648 := a.scale_le
  have hb : b.scale ≤ 2147483648 := b.scale_le
  have hn : n < 2147483648 := hn
  constructor
  all_goals
    apply toNat_ofNatClamp
    rw [shift, exponent, exponent, UInt32.size]
    omega

/-- A division is stopped by zero or by more digits than an exponent can tell, and by nothing else. -/
theorem div_eq_ite (a b : Decimal) (digits : Option UInt32) : a.div? b digits =
    if b.isZero then .error (.divisionByZero a)
    else if h : a.digitCount digits < maxScale then
      .ok (ofScaled (a.shiftedQuotient b (a.digitCount digits)) (a.digitCount digits) h.le)
    else .error (.quotientScale (digits.getD (UInt32.ofNat a.scale))) := by
  unfold div?
  split
  · rfl
  · dsimp only
    simp only [toNat_getD]
    split
    · next h =>
      obtain ⟨hleft, hright⟩ := toNat_clamp a b h
      rw [shift] at hleft hright
      rw [Except.ok.injEq, shiftedQuotient, shift]
      split
      · rw [pow10, hleft]
        rfl
      · rw [pow10, hright]
        rfl
    · rfl

/-! ## Quotients -/

section
variable {a b q : Decimal} {digits : Option UInt32}

theorem exists_div_error_iff : (∃ err, a.div? b digits = .error err) ↔
    b.toRat = 0 ∨ Int32.maxValue.toInt < a.digitCount digits := by
  rw [← not_le, natCast_le_maxValue, ← isZero_eq_true, div_eq_ite]
  split
  · next hzero => exact iff_of_true ⟨_, rfl⟩ (.inl hzero)
  · next hzero =>
    split
    · next h => exact iff_of_false (by rintro ⟨_, ⟨⟩⟩) (not_or.2 ⟨hzero, not_not.2 h⟩)
    · next h => exact iff_of_true ⟨_, rfl⟩ (.inr h)

theorem div_eq_ok (h : a.div? b digits = .ok q) : b.toRat ≠ 0 ∧ ∃ hn : a.digitCount digits ≤ maxScale,
    q = ofScaled (a.shiftedQuotient b (a.digitCount digits)) (a.digitCount digits) hn := by
  rw [div_eq_ite] at h
  split at h
  · cases h
  · next hzero =>
    split at h
    · next hn =>
      cases h
      exact ⟨fun hb => hzero (isZero_eq_true.2 hb), hn.le, rfl⟩
    · cases h

theorem toRat_div (h : a.div? b digits = .ok q) :
    q.toRat = cutAt (a.digitCount digits) (a.toRat / b.toRat) := by
  obtain ⟨_, _, rfl⟩ := div_eq_ok h
  rw [toRat_ofScaled, shiftedQuotient_eq, cutAt]

end

/-- **A quotient is cut off at the digit asked for, towards zero.** There is none exactly if the divisor
is zero or the digits are more than a 32-bit exponent can tell. Otherwise it is the rational quotient
without what follows its last digit: it has no more digits than asked for, times the divisor it does not
exceed the dividend and misses it by less than one unit of the last digit times the divisor, and it is
zero or has the sign of the rational quotient. It is the quotient of the mantissas at the full shift, so
no shift is held to its 32-bit word. -/
theorem div_truncates (a b : Decimal) (digits : Option UInt32) :
    let n := a.digitCount digits
    ((∃ err, a.div? b digits = .error err) ↔ b.toRat = 0 ∨ Int32.maxValue.toInt < n) ∧
      ∀ q, a.div? b digits = .ok q →
        q.toRat = trunc (a.toRat / b.toRat * 10 ^ n) / 10 ^ n ∧ q.scale ≤ n ∧
        |q.toRat * b.toRat| ≤ |a.toRat| ∧
        |a.toRat - q.toRat * b.toRat| < |b.toRat| * 10 ^ (-n : ℤ) ∧
        (q.toRat = 0 ∨ SignType.sign q.toRat = SignType.sign (a.toRat / b.toRat)) ∧
        ∃ hn, q = ofScaled (a.shiftedQuotient b n) n hn := by
  intro n
  refine ⟨exists_div_error_iff, fun q h => ?_⟩
  obtain ⟨hb, hn, hq⟩ := div_eq_ok h
  have hvalue : q.toRat = cutAt n (a.toRat / b.toRat) := toRat_div h
  have hpos : 0 < |b.toRat| := abs_pos.2 hb
  refine ⟨hvalue, hq ▸ scale_ofScaled_le hn, ?_, ?_, hvalue ▸ sign_cutAt n _, hn, hq⟩
  · rw [abs_mul, ← le_div_iff₀ hpos, ← abs_div, hvalue]
    exact abs_cutAt_le n _
  · have hrest : a.toRat - q.toRat * b.toRat = b.toRat * (a.toRat / b.toRat - q.toRat) := by
      field_simp
    rw [hrest, abs_mul, hvalue]
    exact mul_lt_mul_of_pos_left (abs_sub_cutAt_lt n _) hpos

/-- Of a negative dividend too the digits are cut off towards zero. -/
example : (ofMantissa (-10) 0).div? (ofMantissa 3 (-1)) (some 2) = .ok (ofMantissa (-3333) (-2)) := rfl

/-- The longest shift, of one by the decimal of the largest scale to the most digits: it is the largest
32-bit word, and there is a quotient. -/
theorem div_truncates_longest :
    let b : Decimal := ⟨1, 2147483648, by decide, by decide⟩
    (ofInt64 1).shift b 2147483647 = UInt32.size - 1 ∧ ∃ q, (ofInt64 1).div? b (some 2147483647) = .ok q ∧
      q.scale ≤ 2147483647 ∧ |q.toRat * b.toRat| ≤ |(ofInt64 1).toRat| := by
  intro b
  obtain ⟨herror, hok⟩ := div_truncates (ofInt64 1) b (some 2147483647)
  refine ⟨rfl, ?_⟩
  cases h : (ofInt64 1).div? b (some 2147483647) with
  | error err =>
    exfalso
    rcases herror.1 ⟨err, h⟩ with hzero | hdigits
    · exact absurd (isZero_eq_true.2 hzero) (by decide)
    · exact absurd hdigits (by decide)
  | ok q =>
    obtain ⟨_, hscale, hle, _⟩ := hok q h
    exact ⟨q, rfl, hscale, hle⟩

end KeyedRows.Decimal
