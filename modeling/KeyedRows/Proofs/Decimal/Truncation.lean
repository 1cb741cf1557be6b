import KeyedRows.Proofs.Decimal.Quotient
import KeyedRows.Proofs.Decimal.Spelling

/-!
# Fewer digits, and a fixed count of them

* `trunc_mono`, `cutAt_mono` : cutting a rational keeps the order;
* `cutAt_of_scale_le`, `cutAt_of_le_scale` : a fraction of a power of ten is kept, or loses digits;
* `cutAt_cutAt` : of two cuts the shorter one counts;
* `toRat_truncate`, `scale_truncate_le` : what a decimal is cut to, and how many digits it has left;
* `isLE_compare_iff` : decimals compare as the rationals that they denote;
* `truncate_truncate`, `truncate_mono` : so decimals have both laws;
* `mantissaAt_truncate`, `read?_toFixed` : the text of a fixed count of digits reads as the cut decimal;
* `parts_toFixed` : the digits that it has before and behind the point;
* `truncate_cuts` : what cutting does, and what the text of what is left looks like.
-/

namespace KeyedRows.Decimal

/-! ## Cutting rationals -/

theorem trunc_mono {p q : ℚ} (h : p ≤ q) : trunc p ≤ trunc q := by
  unfold trunc
  split
  · next hp =>
    rw [if_pos (hp.trans h)]
    exact Int.floor_mono h
  · next hp =>
    split
    · next hq =>
      exact (Int.ceil_le.2 (by exact_mod_cast (not_le.1 hp).le)).trans (Int.floor_nonneg.2 hq)
    · exact Int.ceil_mono h

theorem trunc_intCast (z : ℤ) : trunc z = z := by
  rw [trunc, Int.floor_intCast, Int.ceil_intCast, ite_self]

/-- A quotient by a whole number loses nothing if the fraction of the dividend goes first. -/
theorem trunc_trunc_div (q : ℚ) (k : ℕ) : trunc (trunc q / k) = trunc (q / k) := by
  have hfloor {q : ℚ} (h : 0 ≤ q) : trunc q = ⌊q⌋ := if_pos h
  have hpos {q : ℚ} (h : 0 ≤ q) : trunc (trunc q / k) = trunc (q / k) := by
    have hk : (0 : ℚ) ≤ k := Nat.cast_nonneg k
    have hleft : (0 : ℚ) ≤ trunc q / k := div_nonneg (Int.cast_nonneg (trunc_of_nonneg h).1) hk
    rw [hfloor hleft, hfloor (div_nonneg h hk), hfloor h, Int.floor_div_natCast, Int.floor_intCast,
      Int.floor_div_natCast]
  rcases le_total 0 q with h | h
  · exact hpos h
  · have hneg := hpos (neg_nonneg.2 h)
    rwa [trunc_neg, Int.cast_neg, neg_div, neg_div, trunc_neg, trunc_neg, neg_inj] at hneg

theorem cutAt_mono (n : Nat) : Monotone (cutAt n) := by
  intro p q h
  have hpow : (0 : ℚ) < 10 ^ n := by positivity
  apply div_le_div_of_nonneg_right _ hpow.le
  exact_mod_cast trunc_mono (mul_le_mul_of_nonneg_right h hpow.le)

section
variable {m n : Nat}

theorem cutAt_of_scale_le (h : n ≤ m) (z : ℤ) : cutAt m (z / 10 ^ n) = z / 10 ^ n := by
  obtain ⟨k, rfl⟩ := Nat.exists_eq_add_of_le h
  have hwhole : (z / 10 ^ n * 10 ^ (n + k) : ℚ) = (z * 10 ^ k : ℤ) := by
    rw [pow_add]
    push_cast
    field_simp
  rw [cutAt, hwhole, trunc_intCast, pow_add]
  push_cast
  field_simp

theorem cutAt_of_le_scale (h : m ≤ n) (q : ℚ) :
    cutAt m (q / 10 ^ n) = trunc (q / (10 ^ (n - m) : ℕ)) / 10 ^ m := by
  obtain ⟨k, rfl⟩ := Nat.exists_eq_add_of_le h
  have hshift : (q / 10 ^ (m + k) * 10 ^ m : ℚ) = q / (10 ^ k : ℕ) := by
    rw [pow_add]
    push_cast
    field_simp
  rw [cutAt, hshift, Nat.add_sub_cancel_left]

/-- Of two cuts the one that leaves fewer digits counts. -/
theorem cutAt_cutAt (m n : Nat) (q : ℚ) : cutAt m (cutAt n q) = cutAt (min m n) q := by
  rcases le_total n m with h | h
  · rw [Nat.min_eq_right h]
    exact cutAt_of_scale_le h _
  · have hpow : (10 : ℚ) ^ n ≠ 0 := by positivity
    rw [Nat.min_eq_left h]
    calc cutAt m (cutAt n q)
        = trunc (trunc (q * 10 ^ n) / (10 ^ (n - m) : ℕ)) / 10 ^ m := cutAt_of_le_scale h _
      _ = trunc (q * 10 ^ n / (10 ^ (n - m) : ℕ)) / 10 ^ m := by rw [trunc_trunc_div]
      _ = cutAt m (q * 10 ^ n / 10 ^ n) := (cutAt_of_le_scale h _).symm
      _ = cutAt m q := by rw [mul_div_cancel_right₀ q hpow]

end

/-! ## Cutting decimals -/

section
variable (a b : Decimal) (digits : UInt32)

theorem toRat_truncate : (a.truncate digits).toRat = cutAt digits.toNat a.toRat := by
  unfold truncate
  rw [toRat_eq_div a]
  split
  · next h => rw [cutAt_of_scale_le h, toRat_eq_div]
  · next h =>
    rw [cutAt_of_le_scale (Nat.le_of_not_le h), toRat_ofScaled, ← Int.cast_natCast, trunc_div,
      Nat.cast_pow]
    rfl

theorem scale_truncate_le : (a.truncate digits).scale ≤ digits.toNat := by
  unfold truncate
  split
  · next h => exact h
  · exact scale_ofScaled_le _

theorem truncate_truncate (m : UInt32) :
    (a.truncate digits).truncate m = a.truncate (min m digits) := by
  apply toRat_injective
  rw [toRat_truncate, toRat_truncate, toRat_truncate, cutAt_cutAt, UInt32.toNat_min]

variable {a b}

theorem isLE_compare_iff : (compare a b).isLE ↔ a.toRat ≤ b.toRat := by
  rw [compare_eq]
  exact Std.LawfulBCmp.isLE_iff_le

theorem truncate_mono (h : (compare a b).isLE) :
    (compare (a.truncate digits) (b.truncate digits)).isLE := by
  rw [isLE_compare_iff] at h ⊢
  rw [toRat_truncate, toRat_truncate]
  exact cutAt_mono _ h

end

/-! ## A fixed count of digits -/

section
variable (a : Decimal) {digits : UInt32}

/-- The mantissa that is written out has the value of the cut decimal. -/
theorem mantissaAt_truncate (h : digits.toNat ≤ maxScale) :
    ((a.truncate digits).mantissaAt digits.toNat : ℚ) / 10 ^ digits.toNat = (a.truncate digits).toRat :=
  mantissaAt_div (scale_truncate_le a digits) h

theorem toList_toFixed : (a.toFixed digits).toList =
    render ((a.truncate digits).mantissaAt digits.toNat) digits.toNat := String.toList_ofList

theorem read?_toFixed (h : digits.toNat < maxScale) :
    read? (a.toFixed digits) = some (a.truncate digits) := by
  rw [read?, toList_toFixed, readChars?_render, dif_pos h, Option.some.injEq]
  apply toRat_injective
  rw [toRat_ofScaled, mantissaAt_truncate a h.le]

theorem parts_toFixed (h : digits.toNat ≤ maxScale) : ∃ whole fraction,
    Parts (decide ((a.truncate digits).toRat < 0)) whole fraction (a.toFixed digits).toList ∧
      fraction.length = digits.toNat := by
  have hpow : (0 : ℚ) < 10 ^ digits.toNat := by positivity
  have hsign : (a.truncate digits).mantissaAt digits.toNat < 0 ↔ (a.truncate digits).toRat < 0 := by
    rw [← mantissaAt_truncate a h, div_lt_iff₀ hpow, zero_mul, Int.cast_lt_zero]
  simp only [← hsign, toList_toFixed]
  exact ⟨_, _, parts_render _ _, length_fractionChars _ _⟩

end

/-- **Digits are cut off towards zero, and a fixed count of them is written out.** The cut decimal is the
rational of the decimal without what follows its last digit; of two cuts the one that leaves fewer digits
counts, and a cut keeps the order of decimals. The text with a fixed count of digits, as many as a 32-bit
integer counts at most, has that many behind the point, and no point without them, one digit at least
before it and no zero there that could be left out, a minus sign only if what is left is below zero; and it
reads as the cut decimal. -/
theorem truncate_cuts (a : Decimal) (digits : UInt32) :
    let n := digits.toNat
    let cut := a.truncate digits
    cut.toRat = trunc (a.toRat * 10 ^ n) / 10 ^ n ∧
      (∀ m, cut.truncate m = a.truncate (min m digits)) ∧
      (∀ b, (compare a b).isLE → (compare cut (b.truncate digits)).isLE) ∧
      ((n : Int) ≤ Int32.maxValue.toInt → (∃ whole fraction,
        Parts (decide (cut.toRat < 0)) whole fraction (a.toFixed digits).toList ∧ fraction.length = n) ∧
          read? (a.toFixed digits) = some cut) := by
  refine ⟨toRat_truncate a digits, truncate_truncate a digits, fun b => truncate_mono digits, ?_⟩
  intro hn
  have hlt : digits.toNat < maxScale := by
    rw [show Int32.maxValue.toInt = 2147483647 from rfl] at hn
    unfold maxScale
    omega
  exact ⟨parts_toFixed a hlt.le, read?_toFixed a hlt⟩

/-- A value below zero that is cut to zero, beside one that keeps a digit. -/
theorem truncate_cuts_toZero :
    let a := ofMantissa (-5) (-2)
    let b := ofMantissa 1999 (-3)
    (compare a b).isLE ∧ (compare (a.truncate 1) (b.truncate 1)).isLE ∧
      ((1 : UInt32).toNat : Int) ≤ Int32.maxValue.toInt ∧ a.truncate 1 = 0 ∧ a.toFixed 1 = "0.0" ∧
      read? "0.0" = some (a.truncate 1) := by
  intro a b
  obtain ⟨_, _, hmono, hfixed⟩ := truncate_cuts a 1
  have hle : (compare a b).isLE := by decide
  have hn : ((1 : UInt32).toNat : Int) ≤ Int32.maxValue.toInt := by decide
  have htext : a.toFixed 1 = "0.0" := by decide
  obtain ⟨_, hread⟩ := hfixed hn
  rw [htext] at hread
  exact ⟨hle, hmono b hle, hn, by decide, htext, hread⟩

end KeyedRows.Decimal
