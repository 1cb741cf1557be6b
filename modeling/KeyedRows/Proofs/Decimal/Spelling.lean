import KeyedRows.Proofs.Decimal.Arithmetic
import KeyedRows.Proofs.Json
import KeyedRows.Proofs.Json.Text

/-!
# What a text spells

* `Numeral` : digits with at most one point, and the number that they make;
* `Signed`, `Spells` : the same with an optional sign, and with blanks around it;
* `spells_iff` : the reader takes a text apart in the one way in which it spells a number;
* `Spells.unique` : so a text spells one number;
* `readChars?_eq_some_iff` : a decimal is read exactly from the texts that spell it with few enough digits;
* `Parts` : a text made of a sign, digits before the point and digits behind it;
* `parts_render`, `parts_toString` : the text of a decimal is made so, without a redundant zero;
* `text_canonical` : a decimal comes back from its text, and numbers have one text each.
-/

namespace KeyedRows.Decimal

/-! ## Numerals -/

/-- Digits with at most one point among them: how many stand behind it, and the number they make. -/
inductive Numeral : List Char → Nat → ℚ → Prop
  | whole {ds : List Char} (hdigits : ∀ c ∈ ds, c.isDigit) (hne : ds ≠ []) :
    Numeral ds 0 (Nat.ofDigitChars 10 ds 0)
  | pointed {ds fs : List Char} (hdigits : ∀ c ∈ ds ++ fs, c.isDigit) (hne : ds ++ fs ≠ []) :
    Numeral (ds ++ '.' :: fs) fs.length
      (Nat.ofDigitChars 10 ds 0 + Nat.ofDigitChars 10 fs 0 / 10 ^ fs.length)

/-- A numeral behind at most one sign. -/
inductive Signed : List Char → Nat → ℚ → Prop
  | bare {cs : List Char} {n : Nat} {q : ℚ} (h : Numeral cs n q) : Signed cs n q
  | plus {cs : List Char} {n : Nat} {q : ℚ} (h : Numeral cs n q) : Signed ('+' :: cs) n q
  | minus {cs : List Char} {n : Nat} {q : ℚ} (h : Numeral cs n q) : Signed ('-' :: cs) n (-q)

/-- A text spells a number, with `n` digits behind the point and with blanks around it. -/
def Spells (cs : List Char) (n : Nat) (q : ℚ) : Prop :=
  ∃ front body back, cs = front ++ body ++ back ∧ (∀ c ∈ front, Text.isBlank c) ∧
    (∀ c ∈ back, Text.isBlank c) ∧ Signed body n q

section
variable {cs : List Char} {n : Nat} {q : ℚ}

theorem Numeral.mem (h : Numeral cs n q) {c : Char} (hc : c ∈ cs) : c.isDigit ∨ c = '.' := by
  cases h with
  | whole hdigits hne => exact .inl (hdigits c hc)
  | pointed hdigits hne =>
    rcases List.mem_append.1 hc with hc | hc
    · exact .inl (hdigits c (List.mem_append_left _ hc))
    · rcases List.mem_cons.1 hc with rfl | hc
      · exact .inr rfl
      · exact .inl (hdigits c (List.mem_append_right _ hc))

theorem Numeral.ne_nil (h : Numeral cs n q) : cs ≠ [] := by
  cases h with
  | whole hdigits hne => exact hne
  | pointed hdigits hne => simp

/-! ## The reader -/

theorem readUnsigned?_of_numeral (h : Numeral cs n q) :
    ∃ m : Nat, readUnsigned? cs = some (m, n) ∧ q = m / 10 ^ n := by
  cases h with
  | whole hdigits hne =>
    have hsplit := splitPoint_append hdigits (by simp : ∀ c ∈ [].head?, c = '.')
    rw [List.append_nil] at hsplit
    refine ⟨Nat.ofDigitChars 10 cs 0, ?_, by simp⟩
    simp [readUnsigned?, hsplit, Text.natural?_eq_some_iff.2 ⟨⟨hne, hdigits⟩, rfl⟩]
  | @pointed ds fs hdigits hne =>
    have hsplit : splitPoint (ds ++ '.' :: fs) = (ds, fs) :=
      splitPoint_append (fun c hc => hdigits c (List.mem_append_left _ hc)) (by simp)
    refine ⟨Nat.ofDigitChars 10 (ds ++ fs) 0, ?_, ?_⟩
    · simp [readUnsigned?, hsplit, Text.natural?_eq_some_iff.2 ⟨⟨hne, hdigits⟩, rfl⟩]
    · have hjoin : Nat.ofDigitChars 10 fs (Nat.ofDigitChars 10 ds 0) =
          10 ^ fs.length * Nat.ofDigitChars 10 ds 0 + Nat.ofDigitChars 10 fs 0 :=
        Nat.ofDigitChars_eq_ofDigitChars_zero
      rw [Nat.ofDigitChars_append, hjoin]
      push_cast
      field_simp

theorem splitPoint_cases (cs : List Char) :
    splitPoint cs = (cs, []) ∨ ∃ ds fs, cs = ds ++ '.' :: fs ∧ splitPoint cs = (ds, fs) := by
  have happend : cs.takeWhile (· ≠ '.') ++ cs.dropWhile (· ≠ '.') = cs :=
    List.takeWhile_append_dropWhile
  have hhead := List.head?_dropWhile_not (· ≠ '.') cs
  unfold splitPoint
  cases hrest : cs.dropWhile (· ≠ '.') with
  | nil =>
    rw [hrest, List.append_nil] at happend
    exact .inl (by rw [happend]; rfl)
  | cons c fs =>
    rw [hrest] at hhead happend
    obtain rfl : c = '.' := by simpa using hhead
    exact .inr ⟨_, fs, happend.symm, rfl⟩

theorem numeral_of_readUnsigned? {m : Nat} (h : readUnsigned? cs = some (m, n)) :
    Numeral cs n (m / 10 ^ n) := by
  rcases splitPoint_cases cs with hsplit | ⟨ds, fs, rfl, hsplit⟩
  · simp only [readUnsigned?, hsplit, List.append_nil, Option.map_eq_some_iff] at h
    obtain ⟨k, hk, heq⟩ := h
    cases heq
    obtain ⟨⟨hne, hdigits⟩, rfl⟩ := Text.natural?_eq_some_iff.1 hk
    rw [List.length_nil, pow_zero, div_one]
    exact .whole hdigits hne
  · have hread := h
    simp only [readUnsigned?, hsplit, Option.map_eq_some_iff] at h
    obtain ⟨k, hk, heq⟩ := h
    cases heq
    obtain ⟨⟨hne, hdigits⟩, -⟩ := Text.natural?_eq_some_iff.1 hk
    obtain ⟨m', hread', hvalue⟩ := readUnsigned?_of_numeral (.pointed hdigits hne)
    rw [hread] at hread'
    cases hread'
    rw [← hvalue]
    exact .pointed hdigits hne

theorem splitSign_of_numeral (h : Numeral cs n q) : Text.splitSign cs = (false, cs) := by
  obtain ⟨c, cs, rfl⟩ := List.exists_cons_of_ne_nil h.ne_nil
  rcases h.mem List.mem_cons_self with hc | rfl
  · exact splitSign_of_isDigit hc
  · rfl

theorem signed_iff : Signed cs n q ↔ ∃ m : Nat, readUnsigned? (Text.splitSign cs).2 = some (m, n) ∧
    q = Text.signed (Text.splitSign cs).1 m / 10 ^ n := by
  constructor
  · intro h
    cases h with
    | bare h =>
      obtain ⟨m, hread, rfl⟩ := readUnsigned?_of_numeral h
      rw [splitSign_of_numeral h]
      exact ⟨m, hread, rfl⟩
    | plus h =>
      obtain ⟨m, hread, rfl⟩ := readUnsigned?_of_numeral h
      exact ⟨m, hread, rfl⟩
    | minus h =>
      obtain ⟨m, hread, rfl⟩ := readUnsigned?_of_numeral h
      refine ⟨m, hread, ?_⟩
      show -(m / 10 ^ n : ℚ) = ((-(m : Int) : Int) : ℚ) / 10 ^ n
      rw [Int.cast_neg, neg_div, Int.cast_natCast]
  · rintro ⟨m, hread, rfl⟩
    unfold Text.splitSign at hread ⊢
    split at hread
    · have hminus := Signed.minus (numeral_of_readUnsigned? hread)
      rw [← neg_div] at hminus
      simpa [Text.signed] using hminus
    · exact .plus (numeral_of_readUnsigned? hread)
    · exact .bare (numeral_of_readUnsigned? hread)

theorem Signed.isBlank_eq_false (h : Signed cs n q) : ∀ c ∈ cs, Text.isBlank c = false := by
  have hnumeral {cs : List Char} {n : Nat} {q : ℚ} (h : Numeral cs n q) :
      ∀ c ∈ cs, Text.isBlank c = false := by
    intro c hc
    rcases h.mem hc with hdigit | rfl
    · exact Text.isBlank_of_isDigit hdigit
    · rfl
  cases h with
  | bare h => exact hnumeral h
  | plus h => exact List.forall_mem_cons.2 ⟨rfl, hnumeral h⟩
  | minus h => exact List.forall_mem_cons.2 ⟨rfl, hnumeral h⟩

theorem Signed.ne_nil (h : Signed cs n q) : cs ≠ [] := by
  cases h with
  | bare h => exact h.ne_nil
  | plus => exact List.cons_ne_nil _ _
  | minus => exact List.cons_ne_nil _ _

theorem spells_iff_signed_trim : Spells cs n q ↔ Signed (Text.trim cs) n q := by
  constructor
  · rintro ⟨front, body, back, rfl, hfront, hback, h⟩
    rwa [Text.trim_append hfront hback h.isBlank_eq_false h.ne_nil]
  · intro h
    obtain ⟨front, back, heq, hfront, hback⟩ := Text.exists_trim cs
    exact ⟨front, _, back, heq, hfront, hback, h⟩

theorem spells_iff : Spells cs n q ↔
    ∃ m : Nat, readUnsigned? (Text.splitSign (Text.trim cs)).2 = some (m, n) ∧
      q = Text.signed (Text.splitSign (Text.trim cs)).1 m / 10 ^ n := by
  rw [spells_iff_signed_trim, signed_iff]

/-- A text spells one number at most, and in one way. -/
theorem Spells.unique {n' : Nat} {q' : ℚ} (h : Spells cs n q) (h' : Spells cs n' q') :
    n = n' ∧ q = q' := by
  obtain ⟨m, hread, rfl⟩ := spells_iff.1 h
  obtain ⟨m', hread', rfl⟩ := spells_iff.1 h'
  rw [hread] at hread'
  obtain ⟨rfl, rfl⟩ := Prod.mk.inj (Option.some.inj hread')
  exact ⟨rfl, rfl⟩

/-- **A decimal is read from the texts that spell it**, unless they have too many digits. -/
theorem readChars?_eq_some_iff {d : Decimal} :
    readChars? cs = some d ↔ ∃ n, n < maxScale ∧ Spells cs n d.toRat := by
  constructor
  · intro h
    obtain ⟨⟨m, n⟩, hread, h⟩ := Option.bind_eq_some_iff.1 h
    dsimp only at h
    split at h
    · next hn =>
      cases h
      exact ⟨n, hn, spells_iff.2 ⟨m, hread, toRat_ofScaled _ _ _⟩⟩
    · cases h
  · rintro ⟨n, hn, h⟩
    obtain ⟨m, hread, hvalue⟩ := spells_iff.1 h
    rw [readChars?]
    simp only [hread, Option.bind_some, dif_pos hn, Option.some.injEq]
    apply toRat_injective
    rw [toRat_ofScaled, hvalue]

end

/-! ## The text of a decimal -/

/-- The text `cs` is made of a minus sign, digits before the point and digits behind it; there is no
point without digits behind it. -/
structure Parts (negative : Bool) (whole fraction cs : List Char) : Prop where
  text : cs = (if negative then ['-'] else []) ++ whole ++
    if fraction = [] then [] else '.' :: fraction
  digits : ∀ c ∈ whole ++ fraction, c.isDigit
  whole_ne_nil : whole ≠ []
  /-- A zero stands in front only as the one digit before the point. -/
  leading : whole.head? = some '0' → whole = ['0']

def wholeChars (m : Int) (s : Nat) : List Char :=
  (Text.padded (s + 1) m.natAbs).take ((Text.padded (s + 1) m.natAbs).length - s)

def fractionChars (m : Int) (s : Nat) : List Char :=
  (Text.padded (s + 1) m.natAbs).drop ((Text.padded (s + 1) m.natAbs).length - s)

theorem length_fractionChars (m : Int) (s : Nat) : (fractionChars m s).length = s := by
  have hlength := lt_length_digits m s
  rw [fractionChars, List.length_drop]
  omega

theorem wholeChars_append (m : Int) (s : Nat) :
    wholeChars m s ++ fractionChars m s = Text.padded (s + 1) m.natAbs := List.take_append_drop _ _

/-- Zeros are put in front of the digits up to the one before the point, and not beyond it. -/
theorem head?_wholeChars {m : Int} {s : Nat} (h : (wholeChars m s).head? = some '0') :
    wholeChars m s = ['0'] := by
  have hlength := lt_length_digits m s
  by_cases hone : (Text.padded (s + 1) m.natAbs).length = s + 1
  · have hwhole : (wholeChars m s).length = 1 := by
      rw [wholeChars, List.length_take]
      omega
    obtain ⟨c, hc⟩ := List.length_eq_one_iff.1 hwhole
    rw [hc] at h ⊢
    rw [Option.some.inj h]
  · have hpadded : Text.padded (s + 1) m.natAbs = Nat.toDigits 10 m.natAbs :=
      Text.padded_of_lt_length (by omega)
    have hpos : 0 < m.natAbs := by
      apply Nat.pos_of_ne_zero
      intro hzero
      rw [hpadded, hzero] at hlength hone
      simp at hlength hone
      omega
    rw [wholeChars, hpadded, List.head?_take, if_neg (by rw [hpadded] at hlength; omega)] at h
    exact absurd h (Text.head?_toDigits hpos)

theorem unsignedChars_eq (m : Int) (s : Nat) : unsignedChars m s =
    wholeChars m s ++ if fractionChars m s = [] then [] else '.' :: fractionChars m s := by
  have hlength := length_fractionChars m s
  unfold unsignedChars
  by_cases hs : s = 0
  · have hnil : fractionChars m s = [] := List.eq_nil_of_length_eq_zero (hlength.trans hs)
    rw [if_pos hs, if_pos hnil, ← hnil, wholeChars_append]
  · have hcons : fractionChars m s ≠ [] := fun hnil => hs (by rw [← hlength, hnil]; rfl)
    rw [if_neg hs, if_neg hcons]
    rfl

theorem parts_render (m : Int) (s : Nat) :
    Parts (decide (m < 0)) (wholeChars m s) (fractionChars m s) (render m s) where
  text := by
    rw [render_eq, unsignedChars_eq, List.append_assoc]
    simp only [decide_eq_true_eq]
  digits := by
    rw [wholeChars_append]
    exact fun _ => Text.isDigit_of_mem_padded
  whole_ne_nil := by
    have hlength := lt_length_digits m s
    apply List.ne_nil_of_length_pos
    rw [wholeChars, List.length_take]
    omega
  leading := head?_wholeChars

/-- In lowest terms the last digit behind the point is not zero. -/
theorem getLast?_fractionChars {m : Int} {s : Nat} (h : s = 0 ∨ m % 10 ≠ 0) :
    (fractionChars m s).getLast? ≠ some '0' := by
  have hlength := lt_length_digits m s
  rw [fractionChars, List.getLast?_drop]
  intro hlast
  split at hlast
  · cases hlast
  · next hlt =>
    rw [Text.getLast?_padded, Option.some.injEq, Nat.digitChar_eq_zero] at hlast
    omega

theorem mantissa_neg_iff {d : Decimal} : d.mantissa < 0 ↔ d.toRat < 0 := by
  have hpow : (0 : ℚ) < 10 ^ d.exponent := zpow_pos (by norm_num) _
  rw [toRat, ← Int.cast_lt_zero (R := ℚ)]
  exact ⟨fun h => mul_neg_of_neg_of_pos h hpow, fun h => neg_of_mul_neg_left h hpow.le⟩

/-- The text of a decimal has a minus sign if its value is negative, and no zero that could be left out. -/
theorem parts_toString (d : Decimal) : ∃ whole fraction,
    Parts (decide (d.toRat < 0)) whole fraction (toString d).toList ∧ fraction.getLast? ≠ some '0' := by
  have hsign : decide (d.toRat < 0) = decide (d.mantissa < 0) := by simp only [mantissa_neg_iff]
  rw [toList_toString, hsign]
  exact ⟨_, _, parts_render d.mantissa d.scale, getLast?_fractionChars d.reduced⟩

theorem parse?_toString (d : Decimal) :
    Json.parse? ("\"" ++ toString d ++ "\"") = some (.text (toString d)) := by
  apply Json.parse?_quoted
  intro c hc
  rw [toList_toString] at hc
  rcases mem_render hc with hdigit | rfl | rfl
  · have := Text.toNat_of_isDigit hdigit
    refine ⟨by omega, ?_, ?_⟩ <;> rintro rfl <;> cases hdigit
  · exact ⟨by decide, by decide, by decide⟩
  · exact ⟨by decide, by decide, by decide⟩

theorem toString_inj {d d' : Decimal} (h : d.scale < maxScale) (h' : d'.scale < maxScale) :
    toString d = toString d' ↔ d = d' := by
  refine ⟨fun heq => ?_, congrArg toString⟩
  have hread := read?_toString d
  rw [heq, read?_toString, if_pos h', if_pos h, Option.some.injEq] at hread
  exact hread.symm

/-- **Numbers and their texts.** A decimal with no more digits behind the point than a 32-bit integer
counts comes back from its text, also as a string of a document and as a value in one; a text that is read
spells the value that is read and no other; two such texts are written out again alike if they spell one
number; and what is written has a digit before the point and no zero in front of it or behind the last
digit that could be left out, and a minus sign if the value is negative. -/
theorem text_canonical :
    (∀ d : Decimal, (d.scale : Int) ≤ Int32.maxValue.toInt → read? (toString d) = some d ∧
      ((Json.parse? ("\"" ++ toString d ++ "\"")).bind Json.text?).bind read? = some d ∧
      Value.ofJson? (Value.toJson (.decimal d)) = some (.decimal d)) ∧
    (∀ s d, read? s = some d → ∀ q, (∃ n, Spells s.toList n q) ↔ q = d.toRat) ∧
    (∀ s s' d d', read? s = some d → read? s' = some d' → (toString d = toString d' ↔
      ∃ q, (∃ n, Spells s.toList n q) ∧ ∃ n, Spells s'.toList n q)) ∧
    ∀ d : Decimal, ∃ whole fraction,
      Parts (decide (d.toRat < 0)) whole fraction (toString d).toList ∧
        fraction.getLast? ≠ some '0' := by
  have hspells {s : String} {d : Decimal} (h : read? s = some d) (q : ℚ) :
      (∃ n, Spells s.toList n q) ↔ q = d.toRat := by
    obtain ⟨n, _, hn⟩ := readChars?_eq_some_iff.1 h
    constructor
    · rintro ⟨n', hn'⟩
      exact (hn'.unique hn).2
    · rintro rfl
      exact ⟨n, hn⟩
  refine ⟨fun d hd => ?_, fun s d h => hspells h, fun s s' d d' h h' => ?_, parts_toString⟩
  · have hread : read? (toString d) = some d := by
      have hmax : Int32.maxValue.toInt = 2147483647 := rfl
      have hscale : d.scale < maxScale := by
        unfold maxScale
        omega
      rw [read?_toString, if_pos hscale]
    refine ⟨hread, ?_, ?_⟩
    · rw [parse?_toString, Option.bind_some, Json.text?, Option.bind_some, hread]
    · rw [ofJson?_toJson_decimal, hread]
      rfl
  · rw [toString_inj (scale_lt_of_readChars? h) (scale_lt_of_readChars? h')]
    simp only [hspells h, hspells h', exists_eq_left, toRat_injective.eq_iff]

/-- Zeros at both ends, blanks and the number written without them. -/
theorem text_canonical_zeros :
    let d : Decimal := ⟨-725, 2, by decide, by decide⟩
    read? "\t-007.250 " = some d ∧ read? "-7.25" = some d ∧ read? (toString d) = some d ∧
      (∃ n, Spells "\t-007.250 ".toList n d.toRat) ∧
      ∃ q, (∃ n, Spells "\t-007.250 ".toList n q) ∧ ∃ n, Spells "-7.25".toList n q := by
  intro d
  obtain ⟨hback, hvalue, halike, _⟩ := text_canonical
  have hread : read? "\t-007.250 " = some d := by decide
  have hread' : read? "-7.25" = some d := by decide
  have hscale : (d.scale : Int) ≤ Int32.maxValue.toInt := by decide
  exact ⟨hread, hread', (hback d hscale).1, (hvalue _ d hread _).2 rfl,
    (halike _ _ d d hread hread').1 rfl⟩

end KeyedRows.Decimal
