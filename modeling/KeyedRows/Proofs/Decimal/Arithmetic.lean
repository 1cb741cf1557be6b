import Mathlib.Order.Compare
import KeyedRows.Proofs.Decimal.Normal

/-!
# Exact arithmetic

* `ofMantissa_exponent`, `returned` : every decimal comes of its own mantissa and exponent, so some call returns it;
* `toRat_injective` : decimals are the same if their values are;
* `compare_eq` : decimals are ordered as their values;
* `add_sub_cancel`, `mul_assoc` : laws of the rationals, of decimals as they are;
* `exactArithmetic` : each operation gives the value that the rationals give, and so has their laws.
-/

namespace KeyedRows.Decimal

theorem toInt_ofInt_neg {n : Nat} (h : n ≤ maxScale) : (Int32.ofInt (-(n : Int))).toInt = -n := by
  unfold maxScale at h
  apply Int32.toInt_ofInt_of_le
  all_goals omega

theorem ofMantissa_exponent (d : Decimal) : ofMantissa d.mantissa (Int32.ofInt d.exponent) = d := by
  apply eq_of_toRat_eq (isNormal_ofMantissa _ _) (isNormal_of_reduced d.reduced)
  rw [toRat_ofMantissa, exponent, toInt_ofInt_neg d.scale_le]
  rfl

theorem returned (d : Decimal) : Returned d := by
  rw [← ofMantissa_exponent d]
  exact .made _ _

theorem toRat_injective : Function.Injective toRat := fun a b h =>
  eq_of_toRat_eq (returned a).isNormal (returned b).isNormal h

/-! ## Order -/

/-- Decimals are ordered as their values: the difference has the sign of its mantissa. -/
theorem compare_eq (a b : Decimal) : compare a b = compare a.toRat b.toRat := by
  have hpow : (0 : ℚ) < 10 ^ (a - b).exponent := zpow_pos (by norm_num) _
  have hsign : cmp (a - b).mantissa 0 = cmp (a - b).toRat 0 := by
    rw [← Int.cast_strictMono.cmp_map_eq (β := ℚ), Int.cast_zero, ← cmp_mul_pos_right hpow, zero_mul]
    rfl
  show compare (a - b).mantissa 0 = _
  rw [← cmp_eq_compare, ← cmp_eq_compare, hsign, toRat_sub, cmp_sub_zero]

instance : Std.TransOrd Decimal where
  eq_swap {a b} := by
    rw [compare_eq, compare_eq]
    exact Std.OrientedOrd.eq_swap
  isLE_trans {a b c} hab hbc := by
    rw [compare_eq] at hab hbc ⊢
    exact Std.TransOrd.isLE_trans hab hbc

instance : Std.LawfulEqOrd Decimal where
  compare_self {a} := by
    rw [compare_eq]
    exact compare_eq_iff_eq.2 rfl
  eq_of_compare {a b} h := by
    rw [compare_eq, compare_eq_iff_eq] at h
    exact toRat_injective h

/-! ## Laws of the operations -/

section
variable {a b c ab bc x y : Decimal}

theorem add_comm (a b : Decimal) : a + b = b + a := by
  apply toRat_injective
  rw [toRat_add, toRat_add, Rat.add_comm]

theorem add_assoc (a b c : Decimal) : a + b + c = a + (b + c) := by
  apply toRat_injective
  rw [toRat_add, toRat_add, toRat_add, toRat_add, Rat.add_assoc]

theorem add_sub_cancel (a b : Decimal) : a + b - b = a := by
  apply toRat_injective
  rw [toRat_sub, toRat_add, add_sub_cancel_right]

theorem mul_comm (a b d : Decimal) : a.mul? b = .ok d ↔ b.mul? a = .ok d := by
  have hswap {a b d : Decimal} (h : a.mul? b = .ok d) : b.mul? a = .ok d := by
    obtain ⟨d', hd'⟩ : ∃ d', b.mul? a = .ok d' := by
      rw [exists_mul_iff, Int.add_comm, ← exists_mul_iff]
      exact ⟨d, h⟩
    rw [hd', Except.ok.injEq]
    apply toRat_injective
    rw [toRat_mul hd', toRat_mul h, Rat.mul_comm]
  exact ⟨hswap, hswap⟩

/-- Two products of the same three factors are the same. There may be only one of the two: zeros at the
end of the first product leave room for the exponent of the second. -/
theorem mul_assoc (hab : a.mul? b = .ok ab) (hx : ab.mul? c = .ok x) (hbc : b.mul? c = .ok bc)
    (hy : a.mul? bc = .ok y) : x = y := by
  apply toRat_injective
  rw [toRat_mul hx, toRat_mul hab, toRat_mul hy, toRat_mul hbc, Rat.mul_assoc]

end

/-- **Arithmetic is exact.** A mantissa and an exponent give the decimal of their value; sum,
difference, negation and absolute value are those of the rationals, and so is the product, which there
is exactly if the two exponents add up to a 32-bit integer; decimals are in the total order of their
values, in which only a decimal itself is its equal; and so the laws of the rationals hold of decimals
as they are. -/
theorem exactArithmetic (a b c : Decimal) :
    (∀ (m : Int) (e : Int32), (ofMantissa m e).toRat = m * 10 ^ e.toInt) ∧
      (a + b).toRat = a.toRat + b.toRat ∧ (a - b).toRat = a.toRat - b.toRat ∧
      (-a).toRat = -a.toRat ∧ a.abs.toRat = |a.toRat| ∧
      ((∃ d, a.mul? b = .ok d) ↔ Int32.minValue.toInt ≤ a.exponent + b.exponent) ∧
      (∀ d, a.mul? b = .ok d → d.toRat = a.toRat * b.toRat) ∧
      compare a b = compare a.toRat b.toRat ∧ Std.TransOrd Decimal ∧ Std.LawfulEqOrd Decimal ∧
      a + b = b + a ∧ a + b + c = a + (b + c) ∧ a + b - b = a ∧
      (∀ d, a.mul? b = .ok d ↔ b.mul? a = .ok d) ∧
      ∀ ab bc x y, a.mul? b = .ok ab → ab.mul? c = .ok x → b.mul? c = .ok bc → a.mul? bc = .ok y →
        x = y := by
  refine ⟨toRat_ofMantissa, toRat_add a b, toRat_sub a b, toRat_neg a, toRat_abs a, exists_mul_iff,
    ?_, compare_eq a b, inferInstance, inferInstance, add_comm a b, add_assoc a b c,
    add_sub_cancel a b, mul_comm a b, ?_⟩
  · intro d hd
    exact toRat_mul hd
  · intro ab bc x y hab hx hbc hy
    exact mul_assoc hab hx hbc hy

end KeyedRows.Decimal
