import KeyedRows.Proofs.Decimal.Grammar

/-!
# Whole numbers in text

* `toRat_ofInt64`, `toInt64?_eq_some_iff` : a decimal is an integer of 64 bits if it has the value of one;
* `spells_trim` : the blanks around a text have no part in what it spells;
* `spells_of_integer?` : a plain integer spells its value without a point;
* `toInt64?_read?_eq_some_iff` : the texts whose decimal is an integer of 64 bits;
* `readInteger?_eq`, `readInteger?_eq_some_iff` : the reader of integers takes the texts that spell one as a
  decimal, and no others;
* `readInteger?_exact` : both together;
* `readInteger?_tooManyZeros` : a text with so many zeros behind its point that it is no decimal.
-/

namespace KeyedRows

namespace Decimal

/-! ## Integers among the decimals -/

theorem toRat_ofInt64 (i : Int64) : (ofInt64 i).toRat = i.toInt := by
  obtain ⟨hmantissa, hscale⟩ := mantissa_ofInt64 i
  rw [toRat_eq_div, hmantissa, hscale, pow_zero, div_one]

theorem toInt64?_ofInt64 (i : Int64) : (ofInt64 i).toInt64? = some i := by
  obtain ⟨hmantissa, hscale⟩ := mantissa_ofInt64 i
  rw [toInt64?, isInteger, hscale, hmantissa, int64?_toInt]
  rfl

theorem toInt64?_eq_some_iff {d : Decimal} {i : Int64} : d.toInt64? = some i ↔ d.toRat = i.toInt := by
  constructor
  · intro h
    rw [toInt64?, Option.ite_none_right_eq_some, isInteger, decide_eq_true_eq] at h
    obtain ⟨hscale, hi⟩ := h
    rw [toRat_eq_div, hscale, pow_zero, div_one, toInt_of_int64? hi]
  · intro h
    rw [← toRat_ofInt64] at h
    rw [toRat_injective h, toInt64?_ofInt64]

/-! ## Integers in text -/

section
variable {cs : List Char} {n : Nat} {q : ℚ}

theorem spells_trim : Spells (Text.trim cs) n q ↔ Spells cs n q := by
  constructor
  · rintro ⟨front, body, back, htrim, hfront, hback, h⟩
    obtain ⟨front', back', heq, hfront', hback'⟩ := Text.exists_trim cs
    refine ⟨front' ++ front, body, back ++ back', ?_, List.forall_mem_append.2 ⟨hfront', hfront⟩,
      List.forall_mem_append.2 ⟨hback, hback'⟩, h⟩
    rw [heq, htrim]
    simp only [List.append_assoc]
  · intro h
    exact ⟨[], Text.trim cs, [], by simp, by simp, by simp, spells_iff_signed_trim.1 h⟩

theorem spells_of_integer? {i : Int64} (h : Text.integer? (Text.trim cs) = some i) :
    Spells cs 0 i.toInt := by
  obtain ⟨m, hm, hi⟩ := Option.bind_eq_some_iff.1 h
  obtain ⟨⟨hne, hdigits⟩, rfl⟩ := Text.natural?_eq_some_iff.1 hm
  obtain ⟨m, hread, hvalue⟩ := readUnsigned?_of_numeral (.whole hdigits hne)
  rw [pow_zero, div_one, Nat.cast_inj] at hvalue
  refine spells_iff.2 ⟨m, hread, ?_⟩
  rw [toInt_of_int64? hi, hvalue, pow_zero, div_one]

end

theorem toInt64?_read?_eq_some_iff {s : String} {i : Int64} :
    (read? s).bind toInt64? = some i ↔ FewDigits s ∧ ∃ n, Spells s.toList n i.toInt := by
  constructor
  · intro h
    obtain ⟨d, hd, hi⟩ := Option.bind_eq_some_iff.1 h
    obtain ⟨n, hn, hspells⟩ := readChars?_eq_some_iff.1 hd
    rw [toInt64?_eq_some_iff.1 hi] at hspells
    exact ⟨(fewDigits_iff hspells).2 hn, n, hspells⟩
  · rintro ⟨hfew, n, hspells⟩
    have hread : read? s = some (ofInt64 i) := by
      refine readChars?_eq_some_iff.2 ⟨n, (fewDigits_iff hspells).1 hfew, ?_⟩
      rwa [toRat_ofInt64]
    rw [hread, Option.bind_some, toInt64?_ofInt64]

/-- Zeros behind the point add nothing to a number. -/
theorem spells_zeros {ds : List Char} (hdigits : ∀ c ∈ ds, c.isDigit) (hne : ds ≠ []) (n : Nat) :
    Spells (ds ++ '.' :: List.replicate n '0') n (Nat.ofDigitChars 10 ds 0 : ℚ) := by
  have hzeros : ∀ c ∈ List.replicate n '0', c.isDigit := fun c hc => by
    rw [List.eq_of_mem_replicate hc]
    rfl
  have hnumeral : Numeral (ds ++ '.' :: List.replicate n '0') _ _ :=
    .pointed (List.forall_mem_append.2 ⟨hdigits, hzeros⟩) (List.append_ne_nil_of_left_ne_nil hne _)
  rw [List.length_replicate, Nat.ofDigitChars_replicate_zero, Nat.mul_zero, Nat.cast_zero, zero_div,
    add_zero] at hnumeral
  exact ⟨[], _, [], by simp, List.forall_mem_nil _, List.forall_mem_nil _, .bare hnumeral⟩

end Decimal

/-! ## The reader of integers -/

section
variable {s : String}

theorem readInteger?_eq : readInteger? s = (Decimal.read? s).bind Decimal.toInt64? := by
  have htrim : Decimal.readChars? (Text.trim s.toList) = Decimal.read? s := by
    apply Option.ext
    intro d
    rw [Decimal.read?, Decimal.readChars?_eq_some_iff, Decimal.readChars?_eq_some_iff]
    simp only [Decimal.spells_trim]
  unfold readInteger?
  dsimp only
  rw [htrim]
  cases hplain : Text.integer? (Text.trim s.toList) with
  | none => rfl
  | some i =>
    have hspells := Decimal.spells_of_integer? hplain
    have hfew : Decimal.FewDigits s := (Decimal.fewDigits_iff hspells).2 (by decide)
    exact (Decimal.toInt64?_read?_eq_some_iff.2 ⟨hfew, 0, hspells⟩).symm

theorem readInteger?_eq_some_iff {i : Int64} :
    readInteger? s = some i ↔ Decimal.FewDigits s ∧ ∃ n, Decimal.Spells s.toList n i.toInt := by
  rw [readInteger?_eq, Decimal.toInt64?_read?_eq_some_iff]

/-- A text with more digits behind its point than a 32-bit integer counts is no integer, whatever it
spells. -/
theorem readInteger?_eq_none {n : Nat} {q : ℚ} (h : Decimal.Spells s.toList n q) (hn : maxScale ≤ n) :
    readInteger? s = none := by
  refine Option.eq_none_iff_forall_ne_some.2 fun i hi => ?_
  have hfew := (Decimal.fewDigits_iff h).1 (readInteger?_eq_some_iff.1 hi).1
  omega

end

/-- **Integers are read as decimals are.** What a text gives as an integer is what its decimal gives,
whether it is a plain integer or needs the decimal: a text gives an integer of 64 bits exactly if it is in
the grammar of decimals, which has no more digits behind the point than a 32-bit integer counts, and spells
that integer, blanks around it aside. -/
theorem readInteger?_exact (s : String) :
    readInteger? s = (Decimal.read? s).bind Decimal.toInt64? ∧
      ∀ i : Int64, readInteger? s = some i ↔
        Decimal.FewDigits s ∧ ∃ n, Decimal.Spells s.toList n i.toInt :=
  ⟨readInteger?_eq, fun _ => readInteger?_eq_some_iff⟩

/-- A numeral of the integer 1 that is read as no integer: one zero too many behind its point. -/
theorem readInteger?_tooManyZeros :
    let cs := '1' :: '.' :: List.replicate 2147483648 '0'
    Decimal.IsSigned (Text.trim cs) ∧ Decimal.Spells cs 2147483648 (1 : Int64).toInt ∧
      readInteger? (String.ofList cs) = none := by
  intro cs
  have hspells : Decimal.Spells cs 2147483648 (1 : Int64).toInt := by
    have hone : Decimal.Spells (['1'] ++ '.' :: List.replicate 2147483648 '0') _ _ :=
      Decimal.spells_zeros (List.forall_mem_singleton.2 rfl) (List.cons_ne_nil _ _) _
    rwa [show Nat.ofDigitChars 10 ['1'] 0 = 1 from rfl, Nat.cast_one] at hone
  refine ⟨Decimal.exists_spells_iff.1 ⟨_, _, hspells⟩, hspells, ?_⟩
  rw [← String.toList_ofList (l := cs)] at hspells
  exact readInteger?_eq_none hspells (le_refl 2147483648)

/-- Zeros at both ends, either sign, and both ends of the range, as a plain integer and with a point. -/
example : ["\t+007 ", "-0.", "12.000", "9223372036854775807", "-9223372036854775808.0",
    "9223372036854775808", "12.5", "+-1"].map readInteger? =
    [some 7, some 0, some 12, some 9223372036854775807, some (-9223372036854775808), none, none, none] := by
  decide

end KeyedRows
