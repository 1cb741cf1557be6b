import KeyedRows.Proofs.Decimal.Truncation
import KeyedRows.Proofs.Decimal.Words

/-!
# No word wraps

* `Traced.Gives` : exact steps lead to a result, with rules for each way to put steps together;
* `Words.gives_new`, `Words.gives_combine`, … : each operation on the words of decimals gives the words of what
  the operation on decimals gives;
* `Words.reached_iff` : calls return the words of decimals, and no other words;
* `Words.Reached.never_wraps` : so no step of any call wraps.
-/

namespace KeyedRows.Decimal

/-! ## Exact steps -/

namespace Traced

variable {α β : Type}

/-- Exact steps lead to the result. -/
structure Gives (t : Traced α) (v : α) : Prop where
  value_eq : t.value = v
  exact : ∀ s ∈ t.steps, s.Exact

namespace Gives

theorem pure (v : α) : (Pure.pure v : Traced α).Gives v := ⟨rfl, fun _ h => absurd h List.not_mem_nil⟩

theorem bind {t : Traced α} {f : α → Traced β} {v : α} {u : β} (ht : t.Gives v) (hf : (f v).Gives u) :
    (t >>= f).Gives u := by
  obtain ⟨rfl, hexact⟩ := ht
  exact ⟨hf.value_eq, List.forall_mem_append.2 ⟨hexact, hf.exact⟩⟩

/-- A signed word has room for what it holds, so only zero is left to be tested. -/
theorem exponent {word : Int32} {exact : Int} (h : word.toInt = exact) (hle : exact ≤ 0) :
    (Traced.exponent word exact).Gives word := by
  have hmin : -2147483648 ≤ word.toInt := word.le_toInt
  exact ⟨rfl, List.forall_mem_singleton.2 ⟨h, h ▸ hmin, hle⟩⟩

theorem count {word : Int32} {exact : Int} (h : word.toInt = exact) (hle : 0 ≤ exact) :
    (Traced.count word exact).Gives word :=
  ⟨rfl, List.forall_mem_singleton.2 ⟨h, hle, h ▸ word.toInt_le⟩⟩

theorem power {word : UInt32} {exact : Int} (h : word.toNat = exact) (hle : exact ≤ maxScale) :
    (Traced.power word exact).Gives word :=
  ⟨rfl, List.forall_mem_singleton.2 ⟨h, h ▸ Int.natCast_nonneg _, hle⟩⟩

theorem wide {word : Int64} {exact : Int} (h : word.toInt = exact) : (Traced.wide word exact).Gives word :=
  ⟨rfl, List.forall_mem_singleton.2 ⟨h, h ▸ word.minValue_le_toInt, h ▸ word.toInt_le⟩⟩

end Gives
end Traced

open Traced (Gives)

namespace Words

/-! ## Lowest terms -/

theorem toInt_words (d : Decimal) : d.words.exponent.toInt = -d.scale := toInt_ofInt_neg d.scale_le

theorem eq_ofInt {e : Int32} {n : Int} (h : e.toInt = n) : e = Int32.ofInt n := by
  rw [← h, Int32.ofInt_toInt]

/-- Zeros are taken off in words as they are without, one more in the exponent for each: an exponent below
zero does not pass zero. -/
theorem gives_strip {s : Nat} : ∀ {m : Int} {e : Int32}, e.toInt = -s →
    (strip m e).Gives ⟨(Decimal.strip m s).1, .ofInt (-(Decimal.strip m s).2)⟩ := by
  -- On the digits after the point: with none left the exponent is zero, and the test stops the loop.
  induction s with
  | zero =>
    intro m e he
    have hneg : ¬(e < 0 ∧ m % 10 = 0) := by
      rintro ⟨hlt, -⟩
      have hlt : e.toInt < 0 := Int32.lt_iff_toInt_lt.1 hlt
      omega
    rw [strip, dif_neg hneg, Decimal.strip, eq_ofInt he]
    exact .pure _
  | succ s ih =>
    intro m e he
    have hlt : e < 0 := Int32.lt_iff_toInt_lt.2 (show e.toInt < 0 by omega)
    have hnext := toInt_add_one hlt
    rw [strip, Decimal.strip]
    by_cases hm : m % 10 = 0
    · rw [dif_pos ⟨hlt, hm⟩, if_pos hm]
      exact (Gives.exponent hnext (by omega)).bind (ih (by omega))
    · rw [dif_neg (fun h => hm h.2), if_neg hm, eq_ofInt he]
      exact .pure _

theorem words_ofScaled {m : Int} {s : Nat} (hm : m ≠ 0) (hs : s ≤ maxScale) :
    (ofScaled m s hs).words = ⟨(Decimal.strip m s).1, .ofInt (-(Decimal.strip m s).2)⟩ := by
  unfold ofScaled
  rw [if_neg hm]
  rfl

theorem gives_ofScaled {m : Int} {s : Nat} {e : Int32} (he : e.toInt = -s) (hs : s ≤ maxScale) :
    (new m e).Gives (ofScaled m s hs).words := by
  unfold new normalize
  dsimp only
  by_cases hm : m = 0
  · rw [if_pos hm, ofScaled, if_pos hm]
    exact .pure _
  · have hpos : ¬0 < e := by
      rw [Int32.lt_iff_toInt_lt, he, Int32.toInt_zero]
      omega
    rw [if_neg hm, if_neg hpos, words_ofScaled hm]
    exact gives_strip he

theorem natAbs_toInt_le (e : Int32) : e.toInt.natAbs ≤ maxScale := by
  have hmin : -2147483648 ≤ e.toInt := e.le_toInt
  have hmax : e.toInt < 2147483648 := e.toInt_lt
  unfold maxScale
  omega

theorem toNat_magnitude (e : Int32) : (UInt32.ofNat e.toInt.natAbs).toNat = e.toInt.natAbs := by
  have hle : e.toInt.natAbs ≤ 2147483648 := natAbs_toInt_le e
  rw [UInt32.toNat_ofNat']
  omega

theorem gives_magnitude (e : Int32) : (magnitude e).Gives (.ofNat e.toInt.natAbs) :=
  .power (congrArg Nat.cast (toNat_magnitude e)) (Int.ofNat_le.2 (natAbs_toInt_le e))

theorem gives_new (m : Int) (e : Int32) : (new m e).Gives (ofMantissa m e).words := by
  unfold ofMantissa
  by_cases hm : m = 0
  · rw [if_pos hm, new, normalize, if_pos hm]
    exact .pure _
  rw [if_neg hm]
  by_cases he : 0 < e.toInt
  · have hpow : Int.pow 10 e.toInt.toNat ≠ 0 := (Int.pow_pos (by decide)).ne'
    have hpow10 : pow10 (.ofNat e.toInt.natAbs) = Int.pow 10 e.toInt.toNat := by
      rw [pow10, toNat_magnitude, show e.toInt.natAbs = e.toInt.toNat by omega]
    rw [if_pos he, words_ofScaled (mul_ne_zero hm hpow), new, normalize, if_neg hm,
      if_pos (Int32.lt_iff_toInt_lt.2 (show (0 : Int32).toInt < e.toInt from he)), ← hpow10]
    exact (gives_magnitude e).bind (gives_strip rfl)
  · rw [if_neg he]
    exact gives_ofScaled (by omega) _

/-! ## Exact arithmetic -/

theorem gives_scale (d : Decimal) : d.words.scale.Gives (.ofNat d.scale) := by
  have h := gives_magnitude d.words.exponent
  rwa [toInt_words, Int.natAbs_neg, Int.natAbs_natCast] at h

theorem toInt_gap (e f : Int32) : (e.toInt64 - f.toInt64).toInt = e.toInt - f.toInt := by
  have hemin : -2147483648 ≤ e.toInt := e.le_toInt
  have hemax : e.toInt < 2147483648 := e.toInt_lt
  have hfmin : -2147483648 ≤ f.toInt := f.le_toInt
  have hfmax : f.toInt < 2147483648 := f.toInt_lt
  rw [Int64.toInt_sub, Int32.toInt_toInt64, Int32.toInt_toInt64]
  exact Int.bmod_eq_of_le (by omega) (by omega)

/-- The cast of a gap is exact: it is not negative, and no larger than the largest scale. -/
theorem gives_mantissaAt {d : Decimal} {s : Nat} {e : Int32} (he : e.toInt = -s) (hle : d.scale ≤ s)
    (hs : s ≤ maxScale) : (d.words.mantissaAt e).Gives (d.mantissaAt s) := by
  have hgap : d.words.exponent.toInt - e.toInt = s - d.scale := by
    rw [toInt_words, he]
    omega
  refine (Gives.wide (toInt_gap _ e)).bind ((Gives.power ?_ ?_).bind ?_)
  · rw [toInt_gap, hgap, gap_toNat hle hs]
    omega
  · rw [toInt_gap, hgap]
    omega
  · rw [toInt_gap, hgap]
    exact .pure _

theorem toInt_min (e f : Int32) : (min e f).toInt = min e.toInt f.toInt := by
  show (if e ≤ f then e else f).toInt = _
  by_cases h : e ≤ f
  · rw [if_pos h, min_eq_left (Int32.le_iff_toInt_le.1 h)]
  · rw [if_neg h, min_eq_right (le_of_not_ge fun hle => h (Int32.le_iff_toInt_le.2 hle))]

theorem gives_combine (op : Int → Int → Int) (a b : Decimal) : (a.words.combine op b.words).Gives
    (ofScaled (op (a.mantissaAt (max a.scale b.scale)) (b.mantissaAt (max a.scale b.scale))) _
      (max_scale_le a b)).words := by
  have hle := max_scale_le a b
  have hmin : min a.words.exponent.toInt b.words.exponent.toInt = -(max a.scale b.scale : Nat) := by
    rw [toInt_words, toInt_words]
    omega
  have he := (toInt_min a.words.exponent b.words.exponent).trans hmin
  refine (Gives.exponent (toInt_min _ _) (by omega)).bind ?_
  refine (gives_mantissaAt he (Nat.le_max_left _ _) hle).bind ?_
  refine (gives_mantissaAt he (Nat.le_max_right _ _) hle).bind ?_
  exact gives_ofScaled he hle

theorem gives_add (a b : Decimal) : (a.words.add b.words).Gives (a + b).words := gives_combine (· + ·) a b

theorem gives_sub (a b : Decimal) : (a.words.sub b.words).Gives (a - b).words := gives_combine (· - ·) a b

theorem gives_order (a b : Decimal) : (a.words.order b.words).Gives (compare a b) :=
  (gives_sub a b).bind (.pure _)

theorem neg_words (a : Decimal) : a.words.neg = (-a).words := rfl

theorem abs_words (a : Decimal) : a.words.abs = a.abs.words := by
  show (if a.mantissa < 0 then a.words.neg else a.words) = _
  rw [Decimal.abs, apply_ite words]
  rfl

/-! ## Arithmetic that may fail -/

theorem gives_mul (a b : Decimal) : (a.words.mul b.words).Gives ((a.mul? b).toOption.map words) := by
  have hsum : a.words.exponent.toInt + b.words.exponent.toInt = -(a.scale + b.scale : Nat) := by
    rw [toInt_words, toInt_words]
    omega
  have hguard : (Int32.minValue.toInt ≤ a.words.exponent.toInt + b.words.exponent.toInt ∧
      a.words.exponent.toInt + b.words.exponent.toInt ≤ Int32.maxValue.toInt) ↔
      a.scale + b.scale ≤ maxScale := by
    rw [hsum, show Int32.minValue.toInt = -(maxScale : Int) from rfl,
      show Int32.maxValue.toInt = 2147483647 from rfl]
    omega
  unfold mul mul?
  by_cases h : a.scale + b.scale ≤ maxScale
  · have he : (a.words.exponent + b.words.exponent).toInt = -(a.scale + b.scale : Nat) := by
      unfold maxScale at h
      rw [Int32.toInt_add, hsum]
      exact Int.bmod_eq_of_le (by omega) (by omega)
    rw [if_pos (hguard.2 h), dif_pos h]
    refine (Gives.exponent (he.trans hsum.symm) (by omega)).bind ?_
    exact (gives_ofScaled he h).bind (.pure _)
  · rw [if_neg (fun hle => h (hguard.1 hle)), dif_neg h]
    exact .pure _

/-- The negation of a count does not overflow, as long as the count fits a word with a sign. -/
theorem gives_exponentOf {n : Nat} (h : n < maxScale) : (exponentOf n).Gives (.ofInt (-n)) := by
  unfold maxScale at h
  have hcount : (Int32.ofNat n).toInt = n := Int32.toInt_ofNat_of_lt h
  have hneg : (-Int32.ofNat n).toInt = -n := by
    rw [Int32.toInt_neg, hcount]
    exact Int.bmod_eq_of_le (by omega) (by omega)
  refine (Gives.count hcount (Int.natCast_nonneg n)).bind ?_
  rw [hcount, ← eq_ofInt hneg]
  exact .exponent hneg (by omega)

/-- An exponent is handed on only if it fits its word. -/
theorem gives_ofDigits (m : Int) (n : Nat) : (ofDigits m n).Gives
    (if h : n < maxScale then some (ofScaled m n h.le).words else none) := by
  unfold ofDigits
  by_cases h : n < maxScale
  · rw [if_pos (natCast_le_maxValue.2 h), dif_pos h]
    exact (gives_exponentOf h).bind ((gives_ofScaled (toInt_ofInt_neg h.le) h.le).bind (.pure _))
  · rw [if_neg (fun hle => h (natCast_le_maxValue.1 hle)), dif_neg h]
    exact .pure _

/-- 64 bits have room for the shift to any count of digits. -/
theorem gives_shift (a b : Decimal) (digits : UInt32) : ∃ word,
    (a.words.shift b.words digits).Gives word ∧ word.toInt = a.shift b digits.toNat := by
  have ha : a.scale ≤ 2147483648 := a.scale_le
  have hb : b.scale ≤ 2147483648 := b.scale_le
  have hdigits : digits.toNat < 4294967296 := digits.toNat_lt
  have hcount : (Int64.ofNat digits.toNat).toInt = digits.toNat := Int64.toInt_ofNat_of_lt (by omega)
  have hgap := toInt_gap a.words.exponent b.words.exponent
  have hexponents := hgap
  rw [toInt_words, toInt_words] at hexponents
  have hstep : (a.words.exponent.toInt64 - b.words.exponent.toInt64 + .ofNat digits.toNat).toInt =
      (a.words.exponent.toInt64 - b.words.exponent.toInt64).toInt + digits.toNat := by
    rw [Int64.toInt_add, hcount, hexponents]
    exact Int.bmod_eq_of_le (by omega) (by omega)
  refine ⟨_, (Gives.wide hgap).bind (.wide hstep), ?_⟩
  rw [hstep, hexponents]
  rfl

/-- The steps to a quotient are exact for any count of digits. If the count fits an exponent, no power is
clamped. -/
theorem gives_quotient (a b : Decimal) (digits : UInt32) : ∃ m, (a.words.quotient b.words digits).Gives m ∧
    (digits.toNat < maxScale → m = a.shiftedQuotient b digits.toNat) := by
  obtain ⟨word, hgives, hword⟩ := gives_shift a b digits
  have htest : 0 ≤ word ↔ 0 ≤ a.shift b digits.toNat := by
    rw [Int64.le_iff_toInt_le, hword]
    rfl
  by_cases hnonneg : 0 ≤ a.shift b digits.toNat
  · refine ⟨(a.mantissa * pow10 (.ofNatClamp (a.shift b digits.toNat).toNat)).tdiv b.mantissa, ?_, ?_⟩
    · refine hgives.bind ?_
      rw [if_pos (htest.2 hnonneg), hword]
      exact .pure _
    · intro h
      rw [shiftedQuotient, if_pos hnonneg, pow10, (toNat_clamp a b h).1]
      rfl
  · have ha : a.scale ≤ 2147483648 := a.scale_le
    have hshift : a.shift b digits.toNat = -a.scale - -b.scale + digits.toNat := rfl
    have hback : (-word).toInt = -word.toInt := by
      rw [Int64.toInt_neg, hword]
      exact Int.bmod_eq_of_le (by omega) (by omega)
    refine ⟨a.mantissa.tdiv (b.mantissa * pow10 (.ofNatClamp (-a.shift b digits.toNat).toNat)), ?_, ?_⟩
    · refine hgives.bind ?_
      rw [if_neg (fun hle => hnonneg (htest.1 hle))]
      refine (Gives.wide hback).bind ?_
      rw [hback, hword]
      exact .pure _
    · intro h
      rw [shiftedQuotient, if_neg hnonneg, pow10, (toNat_clamp a b h).2]
      rfl

theorem gives_div (a b : Decimal) (digits : Option UInt32) :
    (a.words.div b.words digits).Gives ((a.div? b digits).toOption.map words) := by
  have hdigits : (digits.elim a.words.scale Pure.pure).Gives (digits.getD (.ofNat a.scale)) := by
    cases digits with
    | none => exact gives_scale a
    | some n => exact .pure n
  obtain ⟨m, hm, hquotient⟩ := gives_quotient a b (digits.getD (.ofNat a.scale))
  rw [toNat_getD] at hquotient
  unfold div
  rw [div_eq_ite, isZero]
  by_cases hb : b.mantissa = 0
  · rw [if_pos (show b.words.mantissa = 0 from hb), if_pos (decide_eq_true hb)]
    exact .pure _
  rw [if_neg (show ¬b.words.mantissa = 0 from hb), if_neg (by rwa [decide_eq_true_eq])]
  refine hdigits.bind (hm.bind ?_)
  rw [toNat_getD]
  have hwords := gives_ofDigits m (a.digitCount digits)
  by_cases h : a.digitCount digits < maxScale
  · rw [dif_pos h] at hwords ⊢
    rwa [hquotient h] at hwords ⊢
  · rwa [dif_neg h] at hwords ⊢

/-! ## Fewer digits -/

/-- Digits are dropped only if there are more than asked for, so the count asked for fits a word with a sign. -/
theorem gives_truncate (a : Decimal) (digits : UInt32) :
    (a.words.truncate digits).Gives (a.truncate digits).words := by
  have ha : a.scale ≤ 2147483648 := a.scale_le
  have hscale := toNat_ofNat_scale a
  have hle : UInt32.ofNat a.scale ≤ digits ↔ a.scale ≤ digits.toNat := by
    rw [UInt32.le_iff_toNat_le, hscale]
  refine (gives_scale a).bind ?_
  rw [Decimal.truncate]
  by_cases h : a.scale ≤ digits.toNat
  · rw [if_pos (hle.2 h), dif_pos h]
    exact .pure _
  · have hlt : digits.toNat < maxScale := by
      unfold maxScale
      omega
    have hdropped : (UInt32.ofNat a.scale - digits).toNat = a.scale - digits.toNat := by
      rw [UInt32.toNat_sub_of_le _ _ (UInt32.le_iff_toNat_le.2 (by omega)), hscale]
    rw [if_neg (fun hle' => h (hle.1 hle')), dif_neg h, hscale]
    refine (Gives.power ?_ ?_).bind ((gives_exponentOf hlt).bind ?_)
    · rw [hdropped]
      omega
    · unfold maxScale
      omega
    · rw [pow10, hdropped]
      exact gives_ofScaled (toInt_ofInt_neg hlt.le) _

theorem gives_toFixed (a : Decimal) {digits : UInt32} (h : digits.toNat < maxScale) :
    (a.words.toFixed digits).Gives (a.toFixed digits) := by
  refine (gives_truncate a digits).bind ((gives_exponentOf h).bind ?_)
  exact (gives_mantissaAt (toInt_ofInt_neg h.le) (scale_truncate_le a digits) h.le).bind (.pure _)

theorem gives_normalize (a : Decimal) : a.words.normalize.Gives a.words := by
  have h : (new a.mantissa a.words.exponent).Gives _ := gives_ofScaled (toInt_words a) a.scale_le
  rwa [ofScaled_eq_self] at h

/-! ## Reading -/

theorem gives_read (s : String) : (read s).Gives ((Decimal.read? s).map words) := by
  unfold read Decimal.read? readChars?
  dsimp only
  cases readUnsigned? (Text.splitSign (Text.trim s.toList)).2 with
  | none => exact .pure _
  | some p =>
    obtain ⟨n, digits⟩ := p
    rw [Option.bind_some, apply_dite (Option.map words)]
    exact gives_ofDigits _ digits

/-! ## Any calls -/

theorem eq_words_of_eq_some {x : Option Decimal} {w : Words} (h : x.map words = some w) :
    ∃ d : Decimal, d.words = w := by
  obtain ⟨d, _, h⟩ := Option.map_eq_some_iff.1 h
  exact ⟨d, h⟩

theorem Reached.exists_words {w : Words} (h : Reached w) : ∃ d : Decimal, d.words = w := by
  induction h with
  | zero => exact ⟨0, rfl⟩
  | made m e => exact ⟨_, (gives_new m e).value_eq.symm⟩
  | read h => exact eq_words_of_eq_some ((gives_read _).value_eq.symm.trans h)
  | sum _ _ iha ihb =>
    obtain ⟨⟨a, rfl⟩, b, rfl⟩ := iha, ihb
    exact ⟨_, (gives_add a b).value_eq.symm⟩
  | difference _ _ iha ihb =>
    obtain ⟨⟨a, rfl⟩, b, rfl⟩ := iha, ihb
    exact ⟨_, (gives_sub a b).value_eq.symm⟩
  | negation _ ih =>
    obtain ⟨a, rfl⟩ := ih
    exact ⟨_, (neg_words a).symm⟩
  | absolute _ ih =>
    obtain ⟨a, rfl⟩ := ih
    exact ⟨_, (abs_words a).symm⟩
  | product _ _ h iha ihb =>
    obtain ⟨⟨a, rfl⟩, b, rfl⟩ := iha, ihb
    exact eq_words_of_eq_some ((gives_mul a b).value_eq.symm.trans h)
  | quotient _ _ h iha ihb =>
    obtain ⟨⟨a, rfl⟩, b, rfl⟩ := iha, ihb
    exact eq_words_of_eq_some ((gives_div a b _).value_eq.symm.trans h)
  | truncated _ digits ih =>
    obtain ⟨a, rfl⟩ := ih
    exact ⟨_, (gives_truncate a digits).value_eq.symm⟩
  | normalized _ ih =>
    obtain ⟨a, rfl⟩ := ih
    exact ⟨_, (gives_normalize a).value_eq.symm⟩

theorem reached_words (d : Decimal) : Reached d.words := by
  rw [← ofMantissa_exponent d, ← (gives_new _ _).value_eq]
  exact .made _ _

/-- **Calls return the words of the decimals**, and no others. -/
theorem reached_iff {w : Words} : Reached w ↔ ∃ d : Decimal, d.words = w := by
  refine ⟨Reached.exists_words, ?_⟩
  rintro ⟨d, rfl⟩
  exact reached_words d

/-- **No step on machine integers wraps.** Words that any calls return are those of decimals, so that their
exponent is not positive. Each operation on them gives, by exact steps, the words of what it gives on
decimals: every gap between exponents is from zero to the largest scale before it is cast, the negation of
a count of digits does not overflow, zeros that are taken off do not lead past the exponent zero, and an
exponent that is handed on fits its word. A fixed count of digits is one that a 32-bit integer counts; the
other operations take any count, any mantissa and exponent, and any text. -/
theorem Reached.never_wraps {w v : Words} (hw : Reached w) (hv : Reached v) : ∃ a b : Decimal,
    (a.words = w ∧ b.words = v) ∧
      (w.exponent.toInt ≤ 0 ∧ w.scale.Gives (.ofNat a.scale) ∧ w.normalize.Gives w) ∧
      ((w.add v).Gives (a + b).words ∧ (w.sub v).Gives (a - b).words ∧
        (w.order v).Gives (compare a b) ∧ w.neg = (-a).words ∧ w.abs = a.abs.words) ∧
      ((w.mul v).Gives ((a.mul? b).toOption.map words) ∧
        ∀ digits, (w.div v digits).Gives ((a.div? b digits).toOption.map words)) ∧
      (∀ digits : UInt32, (w.truncate digits).Gives (a.truncate digits).words ∧
        ((digits.toNat : Int) ≤ Int32.maxValue.toInt → (w.toFixed digits).Gives (a.toFixed digits))) ∧
      (∀ m e, (new m e).Gives (ofMantissa m e).words) ∧
      ∀ s, (Words.read s).Gives ((Decimal.read? s).map words) := by
  obtain ⟨a, rfl⟩ := hw.exists_words
  obtain ⟨b, rfl⟩ := hv.exists_words
  refine ⟨a, b, ⟨rfl, rfl⟩, ⟨?_, gives_scale a, gives_normalize a⟩,
    ⟨gives_add a b, gives_sub a b, gives_order a b, neg_words a, abs_words a⟩, ⟨gives_mul a b, gives_div a b⟩,
    fun digits => ⟨gives_truncate a digits, fun h => ?_⟩, gives_new, gives_read⟩
  · rw [toInt_words]
    omega
  · exact gives_toFixed a (natCast_le_maxValue.1 h)

/-- The widest gap, between the smallest exponent and zero: it is the largest scale, and its cast is as exact
as that of any other. -/
theorem Reached.never_wraps_widest :
    let w : Words := ⟨1, Int32.minValue⟩
    let v : Words := ⟨5, 0⟩
    Reached w ∧ Reached v ∧ ((1 : UInt32).toNat : Int) ≤ Int32.maxValue.toInt ∧
      (v.mantissaAt w.exponent).steps.map Step.exact = [maxScale, maxScale] ∧
      (∀ s ∈ (w.add v).steps, s.Exact) ∧ (∀ s ∈ (v.order w).steps, s.Exact) ∧
      (∀ s ∈ (v.div w (some 1)).steps, s.Exact) ∧ ∀ s ∈ (w.toFixed 1).steps, s.Exact := by
  intro w v
  have hw : Reached w := reached_iff.2 ⟨⟨1, 2147483648, by decide, by decide⟩, rfl⟩
  have hv : Reached v := reached_iff.2 ⟨ofMantissa 5 0, rfl⟩
  have hdigits : ((1 : UInt32).toNat : Int) ≤ Int32.maxValue.toInt := by decide
  obtain ⟨_, _, _, _, ⟨hadd, _⟩, _, hcut, _⟩ := never_wraps hw hv
  obtain ⟨_, _, _, _, ⟨_, _, horder, _⟩, ⟨_, hdiv⟩, _⟩ := never_wraps hv hw
  have hfixed := (hcut 1).2 hdigits
  exact ⟨hw, hv, hdigits, by decide, hadd.exact, horder.exact, (hdiv _).exact, hfixed.exact⟩

/-- With one digit more the count has no room for a sign: its cast wraps. -/
example : ¬∀ s ∈ ((ofInt64 1).words.toFixed 2147483648).steps, s.Exact := by decide

end Words
end KeyedRows.Decimal
