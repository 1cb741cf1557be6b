import KeyedRows.ColumnType
import KeyedRows.Proofs.Decimal.Spelling

/-!
# The texts that are decimals

* `IsNumeral` : digits and at most one point, told by counting characters;
* `isNumeral_iff` : these are the texts that make a number;
* `IsSigned`, `exists_spells_iff` : the same behind an optional sign, of a text without the blanks around it;
* `fractionDigits` : how many digits stand behind the first point of any text;
* `read_eq_ok`, `read_eq_error` : what the reader makes of a text;
* `read_grammar` : it takes the texts of the grammar, for the numbers that they spell, and rejects every
  other text by its name.
-/

namespace KeyedRows.Decimal

/-! ## The grammar -/

/-- Digits, at least one of them, and at most one point before, between or behind them. -/
structure IsNumeral (cs : List Char) : Prop where
  mem : ∀ c ∈ cs, c.isDigit ∨ c = '.'
  points : cs.count '.' ≤ 1
  digit : ∃ c ∈ cs, c.isDigit

/-- A numeral behind at most one sign. -/
def IsSigned (cs : List Char) : Prop :=
  ∃ sign rest, cs = sign ++ rest ∧ (sign = [] ∨ sign = ['+'] ∨ sign = ['-']) ∧ IsNumeral rest

section
variable {cs : List Char}

theorem not_mem_of_isDigit {c : Char} (h : ∀ d ∈ cs, d.isDigit) (hc : c.isDigit = false) : c ∉ cs := by
  intro hmem
  rw [h c hmem] at hc
  cases hc

theorem append_subset_pointed (ds fs : List Char) : ds ++ fs ⊆ ds ++ '.' :: fs :=
  ((List.sublist_cons_self '.' fs).append_left ds).subset

/-- Counting characters tells the texts that make a number. -/
theorem isNumeral_iff : IsNumeral cs ↔ ∃ n q, Numeral cs n q := by
  constructor
  · rintro ⟨hmem, hpoints, c, hc, hdigit⟩
    by_cases hpoint : '.' ∈ cs
    · obtain ⟨ds, fs, rfl⟩ := List.append_of_mem hpoint
      rw [List.count_append, List.count_cons_self] at hpoints
      have hds : '.' ∉ ds := List.count_eq_zero.1 (by omega)
      have hfs : '.' ∉ fs := List.count_eq_zero.1 (by omega)
      have hdigits : ∀ d ∈ ds ++ fs, d.isDigit := by
        intro d hd
        refine (hmem d (append_subset_pointed ds fs hd)).resolve_right ?_
        rintro rfl
        exact (List.mem_append.1 hd).elim hds hfs
      refine ⟨_, _, .pointed hdigits ?_⟩
      intro hnil
      obtain ⟨rfl, rfl⟩ := List.append_eq_nil_iff.1 hnil
      rw [List.mem_singleton.1 hc] at hdigit
      cases hdigit
    · have hdigits : ∀ d ∈ cs, d.isDigit := by
        intro d hd
        refine (hmem d hd).resolve_right ?_
        rintro rfl
        exact hpoint hd
      exact ⟨_, _, .whole hdigits (List.ne_nil_of_mem hc)⟩
  · rintro ⟨n, q, h⟩
    have hmem : ∀ c ∈ cs, c.isDigit ∨ c = '.' := fun _ => h.mem
    cases h with
    | whole hdigits hne =>
      obtain ⟨c, hc⟩ := List.exists_mem_of_ne_nil cs hne
      have hcount : cs.count '.' = 0 := List.count_eq_zero.2 (not_mem_of_isDigit hdigits rfl)
      exact ⟨hmem, by omega, c, hc, hdigits c hc⟩
    | @pointed ds fs hdigits hne =>
      obtain ⟨c, hc⟩ := List.exists_mem_of_ne_nil _ hne
      have hcount : (ds ++ fs).count '.' = 0 := List.count_eq_zero.2 (not_mem_of_isDigit hdigits rfl)
      rw [List.count_append] at hcount
      refine ⟨hmem, ?_, c, append_subset_pointed ds fs hc, hdigits c hc⟩
      rw [List.count_append, List.count_cons_self]
      omega

theorem isSigned_iff : IsSigned cs ↔ ∃ n q, Signed cs n q := by
  constructor
  · rintro ⟨sign, rest, rfl, hsign, h⟩
    obtain ⟨n, q, h⟩ := isNumeral_iff.1 h
    rcases hsign with rfl | rfl | rfl
    · exact ⟨n, q, .bare h⟩
    · exact ⟨n, q, .plus h⟩
    · exact ⟨n, -q, .minus h⟩
  · rintro ⟨n, q, h⟩
    cases h with
    | bare h => exact ⟨[], _, rfl, .inl rfl, isNumeral_iff.2 ⟨_, _, h⟩⟩
    | plus h => exact ⟨['+'], _, rfl, .inr (.inl rfl), isNumeral_iff.2 ⟨_, _, h⟩⟩
    | minus h => exact ⟨['-'], _, rfl, .inr (.inr rfl), isNumeral_iff.2 ⟨_, _, h⟩⟩

/-- A text spells a number if it is a numeral with a sign, blanks at its ends aside. -/
theorem exists_spells_iff : (∃ n q, Spells cs n q) ↔ IsSigned (Text.trim cs) := by
  simp only [spells_iff_signed_trim, isSigned_iff]

/-! ## Digits behind the point -/

/-- How many digits a text has behind its first point. -/
def fractionDigits (cs : List Char) : Nat := (cs.dropWhile (· ≠ '.')).countP Char.isDigit

theorem fractionDigits_append {front : List Char} (h : '.' ∉ front) (rest : List Char) :
    fractionDigits (front ++ rest) = fractionDigits rest := by
  have hskip : ∀ c ∈ front, decide (c ≠ '.') = true := by
    intro c hc
    rw [decide_eq_true_eq]
    rintro rfl
    exact h hc
  rw [fractionDigits, fractionDigits, List.dropWhile_append_of_pos hskip]

theorem fractionDigits_eq_zero (h : '.' ∉ cs) : fractionDigits cs = 0 := by
  have happend := fractionDigits_append h []
  rwa [List.append_nil] at happend

theorem Numeral.fractionDigits_append {n : Nat} {q : ℚ} (h : Numeral cs n q) {back : List Char}
    (hback : ∀ c ∈ back, Text.isBlank c) : fractionDigits (cs ++ back) = n := by
  have hpoint : '.' ∉ back := fun hmem => by cases hback _ hmem
  cases h with
  | whole hdigits hne =>
    rw [Decimal.fractionDigits_append (not_mem_of_isDigit hdigits rfl), fractionDigits_eq_zero hpoint]
  | @pointed ds fs hdigits hne =>
    have hds : '.' ∉ ds :=
      not_mem_of_isDigit (fun c hc => hdigits c (List.mem_append_left _ hc)) rfl
    have hfs : fs.countP Char.isDigit = fs.length :=
      List.countP_eq_length.2 fun c hc => hdigits c (List.mem_append_right _ hc)
    have hnone : back.countP Char.isDigit = 0 := by
      refine List.countP_eq_zero.2 fun c hc hdigit => ?_
      have hblank := hback c hc
      rw [Text.isBlank_of_isDigit hdigit] at hblank
      cases hblank
    rw [List.append_assoc, Decimal.fractionDigits_append hds]
    show ('.' :: (fs ++ back)).countP Char.isDigit = _
    rw [List.countP_cons_of_neg (by decide), List.countP_append, hfs, hnone, Nat.add_zero]

theorem Spells.fractionDigits_eq {n : Nat} {q : ℚ} (h : Spells cs n q) : fractionDigits cs = n := by
  obtain ⟨front, body, back, rfl, hfront, hback, h⟩ := h
  have hpoint : '.' ∉ front := fun hmem => by cases hfront _ hmem
  rw [List.append_assoc, fractionDigits_append hpoint]
  cases h with
  | bare h => exact h.fractionDigits_append hback
  | plus h => exact h.fractionDigits_append hback
  | minus h => exact h.fractionDigits_append hback

end

/-! ## The reader -/

/-- As many digits behind the point as a 32-bit integer counts. -/
def FewDigits (s : String) : Prop := (fractionDigits s.toList : Int) ≤ Int32.maxValue.toInt

section
variable {s : String} {d : Decimal}

theorem fewDigits_iff {n : Nat} {q : ℚ} (h : Spells s.toList n q) : FewDigits s ↔ n < maxScale := by
  rw [FewDigits, h.fractionDigits_eq, maxScale, show Int32.maxValue.toInt = 2147483647 from rfl]
  omega

theorem read_eq_ok : read s = .ok d ↔ FewDigits s ∧ ∃ n, Spells s.toList n d.toRat := by
  have hread : read s = .ok d ↔ readChars? s.toList = some d := by
    unfold read read?
    cases readChars? s.toList <;> simp
  rw [hread, readChars?_eq_some_iff]
  constructor
  · rintro ⟨n, hn, h⟩
    exact ⟨(fewDigits_iff h).2 hn, n, h⟩
  · rintro ⟨hfew, n, h⟩
    exact ⟨n, (fewDigits_iff h).1 hfew, h⟩

theorem exists_read_iff : (∃ d, read s = .ok d) ↔ FewDigits s ∧ IsSigned (Text.trim s.toList) := by
  simp only [read_eq_ok, exists_and_left, ← exists_spells_iff]
  refine and_congr_right fun hfew => ?_
  constructor
  · rintro ⟨d, n, h⟩
    exact ⟨n, d.toRat, h⟩
  · rintro ⟨n, q, h⟩
    obtain ⟨m, hm, rfl⟩ := spells_iff.1 h
    have hn := (fewDigits_iff h).1 hfew
    exact ⟨ofScaled _ n hn.le, n, by rwa [toRat_ofScaled]⟩

/-- A text that is no decimal is rejected as it is, blanks included. -/
theorem read_eq_error : read s = .error (.invalidDecimal s) ↔ ¬∃ d, read s = .ok d := by
  unfold read
  cases read? s <;> simp

end

/-- **The reader takes the texts of the grammar and no others.** Of texts with no more digits behind the
point than a 32-bit integer counts, those are read that are, without the blanks around them, an optional
sign and then digits with at most one point; each is read as the decimal of the number that it spells; and
any other text is an error that names it, with its blanks. -/
theorem read_grammar (s : String) :
    (∀ d, read s = .ok d ↔ FewDigits s ∧ ∃ n, Spells s.toList n d.toRat) ∧
      ((∃ d, read s = .ok d) ↔ FewDigits s ∧ IsSigned (Text.trim s.toList)) ∧
      (read s = .error (.invalidDecimal s) ↔ ¬(FewDigits s ∧ IsSigned (Text.trim s.toList))) := by
  refine ⟨fun d => read_eq_ok, exists_read_iff, ?_⟩
  rw [read_eq_error, exists_read_iff]

/-- A point may come first or last, and blanks of any kind may stand around the number. -/
example : ["5.", ".5", "+12", "-.05", "\t007.250\u3000"].all (fun s => (read? s).isSome) = true := by
  decide

/-- A sign or a point alone, two of either, blanks inside, exponents, separators and digits of other
scripts. -/
example : ["", "-", "+.", "--1", "1.2.3", "1 2", "+ 1", "1e5", "1_000", "1,5", "\u0663"].all
    (fun s => (read? s).isNone) = true := by
  decide

end KeyedRows.Decimal
