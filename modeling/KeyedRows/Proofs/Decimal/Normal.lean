import Mathlib.Tactic.Ring
import KeyedRows.Proofs.Decimal.Rational
import KeyedRows.Value.Json

/-!
# Lowest terms

* `IsNormal` : a mantissa without a trailing zero that its exponent could take in;
* `IsNormal.eq_of_value_eq` : each rational has at most one such form;
* `isNormal_ofScaled`, `isNormal_ofMantissa` : what comes of bringing a pair to lowest terms;
* `Returned` : what any calls of the operations return;
* `Returned.isNormal` : that is in lowest terms;
* `Returned.normal_form` : so it is the only form of its value.
-/

namespace KeyedRows.Decimal

/-- A mantissa and an exponent in lowest terms. -/
structure IsNormal (m e : Int) : Prop where
  nonpos : e ≤ 0
  /-- With digits after the point, the last one is not zero. -/
  reduced : e < 0 → ¬(10 : Int) ∣ m
  zero : m = 0 → e = 0

/-! ## One form for each value -/

/-- A form with a smaller exponent than another one of its value has zeros at its end. -/
theorem IsNormal.exponent_le {m m' e e' : Int} (h : IsNormal m e) (he' : e' ≤ 0)
    (heq : (m : ℚ) * 10 ^ e = m' * 10 ^ e') : e' ≤ e := by
  by_contra hlt
  obtain ⟨n, hn⟩ : ∃ n : Nat, e' = e + (n + 1 : Nat) := ⟨(e' - e - 1).toNat, by omega⟩
  have hpow : (10 : ℚ) ^ e ≠ 0 := zpow_ne_zero _ (by norm_num)
  have hcast : (m : ℚ) = (m' * 10 ^ (n + 1) : Int) := by
    rw [hn, zpow_add₀ (by norm_num), zpow_natCast] at heq
    apply mul_right_cancel₀ hpow
    rw [heq]
    push_cast
    ring
  have hm : m = m' * 10 ^ (n + 1) := by exact_mod_cast hcast
  apply h.reduced (by omega)
  rw [hm]
  exact Dvd.dvd.mul_left (dvd_pow_self 10 (by omega)) m'

/-- **Two forms in lowest terms of one value are the same.** -/
theorem IsNormal.eq_of_value_eq {m m' e e' : Int} (h : IsNormal m e) (h' : IsNormal m' e')
    (heq : (m : ℚ) * 10 ^ e = m' * 10 ^ e') : m = m' ∧ e = e' := by
  have he : e = e' := le_antisymm (h'.exponent_le h.nonpos heq.symm) (h.exponent_le h'.nonpos heq)
  subst he
  have hpow : (10 : ℚ) ^ e ≠ 0 := zpow_ne_zero _ (by norm_num)
  exact ⟨by exact_mod_cast mul_right_cancel₀ hpow heq, rfl⟩

theorem eq_of_toRat_eq {a b : Decimal} (ha : IsNormal a.mantissa a.exponent)
    (hb : IsNormal b.mantissa b.exponent) (h : a.toRat = b.toRat) : a = b := by
  obtain ⟨m, s, _, _⟩ := a
  obtain ⟨m', s', _, _⟩ := b
  obtain ⟨rfl, hexponent⟩ := ha.eq_of_value_eq hb h
  obtain rfl : s = s' := by exact_mod_cast neg_inj.1 hexponent
  rfl

/-! ## Operations -/

theorem isNormal_of_reduced {m : Int} {s : Nat} (h : s = 0 ∨ m % 10 ≠ 0) : IsNormal m (-(s : Int)) where
  nonpos := by omega
  reduced := by omega
  zero := by omega

theorem isNormal_zero : IsNormal (0 : Decimal).mantissa (0 : Decimal).exponent :=
  isNormal_of_reduced (.inl rfl)

/-- Zeros are taken off up to the point or to another digit, of a mantissa of either sign. -/
theorem isNormal_ofScaled (m : Int) (s : Nat) (h : s ≤ maxScale) :
    IsNormal (ofScaled m s h).mantissa (ofScaled m s h).exponent := by
  unfold ofScaled
  split
  · exact isNormal_zero
  · exact isNormal_of_reduced (strip_reduced m s)

theorem isNormal_ofMantissa (m : Int) (e : Int32) :
    IsNormal (ofMantissa m e).mantissa (ofMantissa m e).exponent := by
  unfold ofMantissa
  split
  · exact isNormal_zero
  · split
    · exact isNormal_ofScaled _ _ _
    · exact isNormal_ofScaled _ _ _

theorem isNormal_of_readChars? {cs : List Char} {d : Decimal} (h : readChars? cs = some d) :
    IsNormal d.mantissa d.exponent := by
  obtain ⟨_, _, h⟩ := Option.bind_eq_some_iff.1 h
  dsimp only at h
  split at h
  · cases h
    exact isNormal_ofScaled _ _ _
  · cases h

section
variable {a b d : Decimal}

theorem isNormal_neg (h : IsNormal a.mantissa a.exponent) : IsNormal (-a).mantissa (-a).exponent where
  nonpos := h.nonpos
  reduced he := fun hdvd => h.reduced he (Int.dvd_neg.1 hdvd)
  zero hm := h.zero (neg_eq_zero.1 hm)

theorem isNormal_abs (h : IsNormal a.mantissa a.exponent) : IsNormal a.abs.mantissa a.abs.exponent := by
  unfold abs
  split
  · exact isNormal_neg h
  · exact h

theorem isNormal_mul (h : a.mul? b = .ok d) : IsNormal d.mantissa d.exponent := by
  unfold mul? at h
  split at h
  · cases h
    exact isNormal_ofScaled _ _ _
  · cases h

theorem isNormal_div {digits : Option UInt32} (h : a.div? b digits = .ok d) :
    IsNormal d.mantissa d.exponent := by
  unfold div? at h
  split at h
  · cases h
  · dsimp only at h
    split at h
    · cases h
      split
      · exact isNormal_ofScaled _ _ _
      · exact isNormal_ofScaled _ _ _
    · cases h

theorem isNormal_truncate (h : IsNormal a.mantissa a.exponent) (digits : UInt32) :
    IsNormal (a.truncate digits).mantissa (a.truncate digits).exponent := by
  unfold truncate
  split
  · exact h
  · exact isNormal_ofScaled _ _ _

end

/-! ## Any calls -/

/-- What calls of the operations return, one after another. -/
inductive Returned : Decimal → Prop
  | zero : Returned 0
  | made (m : Int) (e : Int32) : Returned (ofMantissa m e)
  | whole (i : Int64) : Returned (ofInt64 i)
  | read {s : String} {d : Decimal} (h : read? s = some d) : Returned d
  | loaded {j : Json} {d : Decimal} (h : Value.ofJson? j = some (.decimal d)) : Returned d
  | sum {a b : Decimal} (ha : Returned a) (hb : Returned b) : Returned (a + b)
  | difference {a b : Decimal} (ha : Returned a) (hb : Returned b) : Returned (a - b)
  | negation {a : Decimal} (ha : Returned a) : Returned (-a)
  | absolute {a : Decimal} (ha : Returned a) : Returned a.abs
  | product {a b d : Decimal} (ha : Returned a) (hb : Returned b) (h : a.mul? b = .ok d) : Returned d
  | quotient {a b d : Decimal} {digits : Option UInt32} (ha : Returned a) (hb : Returned b)
      (h : a.div? b digits = .ok d) : Returned d
  | truncated {a : Decimal} (ha : Returned a) (digits : UInt32) : Returned (a.truncate digits)
  | normalized {a : Decimal} (ha : Returned a) : Returned a.normalize

theorem read?_of_ofParts? {kind : String} {payload : Option Json} {d : Decimal}
    (h : Value.ofParts? kind payload = some (.decimal d)) : ∃ s, read? s = some d := by
  unfold Value.ofParts? at h
  split at h <;> simp only [Option.map_eq_some_iff, Option.some.injEq, reduceCtorEq, and_false,
    exists_false] at h
  obtain ⟨_, hread, heq⟩ := h
  cases heq
  exact ⟨_, hread⟩

theorem read?_of_ofJson? {j : Json} {d : Decimal} (h : Value.ofJson? j = some (.decimal d)) :
    ∃ s, read? s = some d := by
  unfold Value.ofJson? at h
  split at h
  · exact read?_of_ofParts? h
  · obtain ⟨_, _, h⟩ := Option.bind_eq_some_iff.1 h
    obtain ⟨_, _, h⟩ := Option.bind_eq_some_iff.1 h
    obtain ⟨_, _, h⟩ := Option.bind_eq_some_iff.1 h
    exact read?_of_ofParts? h
  · cases h

/-- Every result is in lowest terms: most operations bring it there, and the others keep the form of
their operand. -/
theorem Returned.isNormal {d : Decimal} (h : Returned d) : IsNormal d.mantissa d.exponent := by
  induction h with
  | zero => exact isNormal_zero
  | made m e => exact isNormal_ofMantissa m e
  | whole i => exact isNormal_ofMantissa i.toInt 0
  | read h => exact isNormal_of_readChars? h
  | loaded h =>
    obtain ⟨s, hs⟩ := read?_of_ofJson? h
    exact isNormal_of_readChars? hs
  | sum => exact isNormal_ofScaled _ _ (max_scale_le _ _)
  | difference => exact isNormal_ofScaled _ _ (max_scale_le _ _)
  | negation _ ih => exact isNormal_neg ih
  | absolute _ ih => exact isNormal_abs ih
  | product _ _ h => exact isNormal_mul h
  | quotient _ _ h => exact isNormal_div h
  | truncated _ digits ih => exact isNormal_truncate ih digits
  | normalized => exact isNormal_ofScaled _ _ _

/-- **Every value has one form.** What any calls of the operations return is in lowest terms, zero as
`0 * 10 ^ 0`; two such decimals are the same exactly if their values are; and a pair of the same
value, brought to lowest terms, gives the decimal again, as its own parts do. -/
theorem Returned.normal_form {a : Decimal} (ha : Returned a) :
    IsNormal a.mantissa a.exponent ∧ (a.toRat = 0 → a.mantissa = 0 ∧ a.exponent = 0) ∧
      (∀ b, Returned b → (a = b ↔ a.toRat = b.toRat)) ∧
      (∀ (m : Int) (e : Int32), m * 10 ^ e.toInt = a.toRat → ofMantissa m e = a) ∧
      a.normalize = a := by
  refine ⟨ha.isNormal, fun hzero => ?_, fun b hb => ⟨congrArg toRat, ?_⟩, fun m e hvalue => ?_, ?_⟩
  · exact ha.isNormal.eq_of_value_eq isNormal_zero (hzero.trans toRat_zero.symm)
  · intro hvalue
    exact eq_of_toRat_eq ha.isNormal hb.isNormal hvalue
  · apply eq_of_toRat_eq (isNormal_ofMantissa m e) ha.isNormal
    rw [toRat_ofMantissa, hvalue]
  · exact ofScaled_eq_self a a.scale_le

/-- A sum of a negative mantissa with zeros at its end and a positive exponent, with its sign turned
round and no digit to drop. -/
theorem Returned.normal_form_sum :
    let a : Decimal := (-(ofMantissa (-1200) (-3) + ofMantissa 5 1)).truncate 4
    Returned a ∧ a.mantissa = -488 ∧ a.exponent = -1 ∧ IsNormal a.mantissa a.exponent ∧
      a.normalize = a := by
  intro a
  have ha : Returned a := .truncated (.negation (.sum (.made _ _) (.made _ _))) 4
  obtain ⟨hnormal, _, _, _, hsame⟩ := normal_form ha
  exact ⟨ha, by decide, by decide, hnormal, hsame⟩

end KeyedRows.Decimal
