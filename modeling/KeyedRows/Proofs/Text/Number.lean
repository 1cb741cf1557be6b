import Mathlib.Data.List.TakeWhile
import KeyedRows.Text.Blank
import KeyedRows.Text.Number

/-!
# Digits, letters and blanks

* `toNat_of_isDigit`, `toNat_of_isAlpha`, `isBlank_eq_false` : the ranges of characters;
* `takeWhile_append_left`, `takeWhile_append_of_head?`, `dropWhile_append_of_head?` : a stretch of characters
  of one kind;
* `trim_eq_self` : a text without blanks at its ends is its own trim;
* `trimStart_append`, `trim_surround` : what a trim does not see of a longer text;
* `trim_append`, `exists_trim` : a trim takes off the blanks at both ends and nothing else;
* `head?_trim`, `getLast?_trim` : there is none at either end of what it leaves;
* `natural?_toDigits`, `natural?_padded` : the digits of a number spell it;
* `head?_toDigits`, `getLast?_padded` : the first and the last of them;
* `length_padded` : how many digits a padded number has.
-/

namespace KeyedRows.Text

/-! ## Characters -/

theorem toNat_of_isDigit {c : Char} (h : c.isDigit) : 48 ≤ c.toNat ∧ c.toNat ≤ 57 := by
  simp only [Char.isDigit, Bool.and_eq_true, decide_eq_true_eq, UInt32.le_iff_toNat_le] at h
  exact h

theorem toNat_of_isAlpha {c : Char} (h : c.isAlpha) : 65 ≤ c.toNat ∧ c.toNat ≤ 122 := by
  change (decide (65 ≤ c.val ∧ c.val ≤ 90) || (97 ≤ c.val && c.val ≤ 122)) = true at h
  simp only [Bool.or_eq_true, Bool.and_eq_true, decide_eq_true_eq, UInt32.le_iff_toNat_le] at h
  have hc : (65 ≤ c.toNat ∧ c.toNat ≤ 90) ∨ (97 ≤ c.toNat ∧ c.toNat ≤ 122) := h
  omega

theorem isDigit_of_isAlpha {c : Char} (h : c.isAlpha) : c.isDigit = false := by
  rw [Bool.eq_false_iff]
  intro hd
  have := toNat_of_isAlpha h
  have := toNat_of_isDigit hd
  omega

theorem isBlank_eq_false {c : Char} (hlow : 33 ≤ c.toNat) (hhigh : c.toNat ≤ 126) :
    isBlank c = false := by
  simp [isBlank]
  omega

theorem isBlank_of_isDigit {c : Char} (h : c.isDigit) : isBlank c = false := by
  have := toNat_of_isDigit h
  exact isBlank_eq_false (by omega) (by omega)

theorem isWhitespace_eq_false {c : Char} (h : 33 ≤ c.toNat) : c.isWhitespace = false := by
  rw [Bool.eq_false_iff]
  intro hc
  simp only [Char.isWhitespace, Bool.or_eq_true, decide_eq_true_eq] at hc
  rcases hc with ((rfl | rfl) | rfl) | rfl <;> exact absurd h (by decide)

theorem isWhitespace_of_isDigit {c : Char} (h : c.isDigit) : c.isWhitespace = false := by
  have := toNat_of_isDigit h
  exact isWhitespace_eq_false (by omega)

theorem isWhitespace_of_isAlpha {c : Char} (h : c.isAlpha) : c.isWhitespace = false := by
  have := toNat_of_isAlpha h
  exact isWhitespace_eq_false (by omega)

/-! ## A stretch of characters -/

theorem takeWhile_append_left {p : Char → Bool} {rest : List Char} (cs : List Char)
    (hr : ∀ c ∈ rest.head?, p c = false) : (cs ++ rest).takeWhile p = cs.takeWhile p := by
  have hnil : rest.takeWhile p = [] := by
    cases rest with
    | nil => rfl
    | cons c rest => simp [hr c rfl]
  rw [List.takeWhile_append, hnil, List.append_nil, ite_eq_right_iff]
  exact fun hlength => ((List.takeWhile_prefix p).eq_of_length hlength).symm

theorem takeWhile_append_of_head? {p : Char → Bool} {w rest : List Char} (hw : ∀ c ∈ w, p c)
    (hr : ∀ c ∈ rest.head?, p c = false) : (w ++ rest).takeWhile p = w := by
  rw [takeWhile_append_left w hr, List.takeWhile_eq_self_iff.2 hw]

theorem dropWhile_append_of_head? {p : Char → Bool} {w rest : List Char} (hw : ∀ c ∈ w, p c)
    (hr : ∀ c ∈ rest.head?, p c = false) : (w ++ rest).dropWhile p = rest := by
  rw [List.dropWhile_append_of_pos hw]
  cases rest with
  | nil => simp
  | cons c rest => simp [hr c rfl]

/-! ## Blanks at the ends of a text -/

theorem trimStart_eq_self {cs : List Char} (h : ∀ c ∈ cs.head?, isBlank c = false) :
    trimStart cs = cs := by
  cases cs with
  | nil => rfl
  | cons c cs => simp [trimStart, h c rfl]

/-- A text is its own trim if neither its first nor its last character is blank. -/
theorem trim_eq_self {cs : List Char} (hhead : ∀ c ∈ cs.head?, isBlank c = false)
    (hlast : ∀ c ∈ cs.getLast?, isBlank c = false) : trim cs = cs := by
  rw [trim, trimStart_eq_self hhead, trimStart_eq_self (by simpa using hlast), List.reverse_reverse]

theorem trim_append {front body back : List Char} (hfront : ∀ c ∈ front, isBlank c)
    (hback : ∀ c ∈ back, isBlank c) (hbody : ∀ c ∈ body, isBlank c = false) (hne : body ≠ []) :
    trim (front ++ body ++ back) = body := by
  have hhead : ∀ c ∈ (body ++ back).head?, isBlank c = false := by
    obtain ⟨b, bs, rfl⟩ := List.exists_cons_of_ne_nil hne
    intro c hc
    cases hc
    exact hbody b List.mem_cons_self
  have hlast : ∀ c ∈ body.reverse.head?, isBlank c = false := fun c hc =>
    hbody c (List.mem_reverse.1 (List.mem_of_mem_head? hc))
  have hreverse : ∀ c ∈ back.reverse, isBlank c := fun c hc => hback c (List.mem_reverse.1 hc)
  rw [trim, trimStart, trimStart, List.append_assoc, dropWhile_append_of_head? hfront hhead,
    List.reverse_append, dropWhile_append_of_head? hreverse hlast, List.reverse_reverse]

theorem trimStart_eq_nil {cs : List Char} : trimStart cs = [] ↔ ∀ c ∈ cs, isBlank c :=
  List.dropWhile_eq_nil_iff

theorem trimStart_append {cs : List Char} (h : trimStart cs ≠ []) (rest : List Char) :
    trimStart (cs ++ rest) = trimStart cs ++ rest := by
  have hne : (cs.dropWhile isBlank).isEmpty = false := List.isEmpty_eq_false_iff.2 h
  rw [trimStart, List.dropWhile_append, hne]
  rfl

/-- Blanks around a text have no part in its trim. -/
theorem trim_surround {front back : List Char} (cs : List Char) (hfront : ∀ c ∈ front, isBlank c)
    (hback : ∀ c ∈ back, isBlank c) : trim (front ++ cs ++ back) = trim cs := by
  have hstart : trimStart (front ++ cs ++ back) = trimStart (cs ++ back) := by
    rw [trimStart, List.append_assoc, List.dropWhile_append_of_pos hfront]
    rfl
  by_cases hcs : trimStart cs = []
  · have hall : trimStart (cs ++ back) = [] :=
      trimStart_eq_nil.2 (List.forall_mem_append.2 ⟨trimStart_eq_nil.1 hcs, hback⟩)
    rw [trim, trim, hstart, hall, hcs]
  · have hreverse : ∀ c ∈ back.reverse, isBlank c := fun c hc => hback c (List.mem_reverse.1 hc)
    rw [trim, trim, hstart, trimStart_append hcs, List.reverse_append]
    exact congrArg List.reverse (List.dropWhile_append_of_pos hreverse)

theorem head?_trimStart (cs : List Char) : ∀ c ∈ (trimStart cs).head?, isBlank c = false := by
  have hhead := List.head?_dropWhile_not isBlank cs
  intro c hc
  rw [Option.mem_def] at hc
  rw [trimStart] at hc
  rw [hc] at hhead
  simpa using hhead

theorem head?_trim (cs : List Char) : ∀ c ∈ (trim cs).head?, isBlank c = false := by
  have hsuffix : trimStart (trimStart cs).reverse <:+ (trimStart cs).reverse := List.dropWhile_suffix _
  have hprefix : trim cs <+: trimStart cs := by
    rwa [← List.reverse_prefix, List.reverse_reverse] at hsuffix
  obtain ⟨rest, hrest⟩ := hprefix
  intro c hc
  refine head?_trimStart cs c ?_
  rw [← hrest, List.head?_append, hc]
  rfl

theorem getLast?_trim (cs : List Char) : ∀ c ∈ (trim cs).getLast?, isBlank c = false := by
  rw [trim, List.getLast?_reverse]
  exact head?_trimStart _

/-- Nothing but blanks is taken off. -/
theorem exists_trim (cs : List Char) : ∃ front back, cs = front ++ trim cs ++ back ∧
    (∀ c ∈ front, isBlank c) ∧ ∀ c ∈ back, isBlank c := by
  have hblank (cs : List Char) : ∀ c ∈ cs.takeWhile isBlank, isBlank c :=
    List.all_eq_true.1 List.all_takeWhile
  have hstart (cs : List Char) : cs.takeWhile isBlank ++ trimStart cs = cs :=
    List.takeWhile_append_dropWhile
  refine ⟨cs.takeWhile isBlank, ((trimStart cs).reverse.takeWhile isBlank).reverse, ?_, hblank cs, ?_⟩
  · rw [List.append_assoc, trim, ← List.reverse_append, hstart, List.reverse_reverse, hstart]
  · intro c hc
    exact hblank _ c (List.mem_reverse.1 hc)

/-! ## Digits -/

theorem isDigit_of_mem_toDigits {n : Nat} {c : Char} (h : c ∈ Nat.toDigits 10 n) : c.isDigit :=
  Nat.isDigit_of_mem_toDigits (by decide) (by decide) h

theorem head?_toDigits {n : Nat} (h : 0 < n) : (Nat.toDigits 10 n).head? ≠ some '0' := by
  induction n using Nat.strongRecOn with
  | ind n ih =>
    by_cases hn : n < 10
    · rw [Nat.toDigits_of_lt_base hn]
      intro hzero
      exact absurd (Nat.digitChar_eq_zero.1 (Option.some.inj hzero)) (Nat.pos_iff_ne_zero.1 h)
    · obtain ⟨c, cs, hcs⟩ := List.exists_cons_of_ne_nil (Nat.toDigits_ne_nil (n := n / 10) (b := 10))
      have hhead := ih (n / 10) (by omega) (by omega)
      rw [hcs] at hhead
      rwa [Nat.toDigits_of_base_le (by decide) (by omega), hcs]

theorem natural?_eq_some_iff {cs : List Char} {n : Nat} :
    natural? cs = some n ↔ (cs ≠ [] ∧ ∀ c ∈ cs, c.isDigit) ∧ Nat.ofDigitChars 10 cs 0 = n := by
  rw [natural?, Option.ite_none_right_eq_some, List.all_eq_true, Option.some.injEq]

theorem natural?_toDigits (n : Nat) : natural? (Nat.toDigits 10 n) = some n := by
  rw [natural?, if_pos ⟨Nat.toDigits_ne_nil, List.all_eq_true.2 fun _ => isDigit_of_mem_toDigits⟩,
    Nat.ofDigitChars_ten_toDigits]

theorem isDigit_of_mem_padded {width n : Nat} {c : Char} (h : c ∈ padded width n) : c.isDigit := by
  rcases List.mem_append.1 h with h | h
  · rw [List.eq_of_mem_replicate h]
    rfl
  · exact isDigit_of_mem_toDigits h

theorem padded_ne_nil (width n : Nat) : padded width n ≠ [] := by
  simp [padded, Nat.toDigits_ne_nil]

theorem ofDigitChars_padded (width n : Nat) : Nat.ofDigitChars 10 (padded width n) 0 = n := by
  rw [padded, Nat.ofDigitChars_append, Nat.ofDigitChars_replicate_zero, Nat.mul_zero,
    Nat.ofDigitChars_ten_toDigits]

theorem natural?_padded (width n : Nat) : natural? (padded width n) = some n := by
  rw [natural?, if_pos ⟨padded_ne_nil width n, List.all_eq_true.2 fun _ => isDigit_of_mem_padded⟩,
    ofDigitChars_padded]

theorem le_length_padded (width n : Nat) : width ≤ (padded width n).length := by
  rw [padded, List.length_append, List.length_replicate]
  omega

theorem length_padded {width n : Nat} (hwidth : 0 < width) (hn : n < Nat.pow 10 width) :
    (padded width n).length = width := by
  have hlength := (Nat.length_toDigits_le_iff (by decide) hwidth).2 hn
  rw [padded, List.length_append, List.length_replicate]
  omega

/-- Digits beyond the width are those of the number itself. -/
theorem padded_of_lt_length {width n : Nat} (h : width < (padded width n).length) :
    padded width n = Nat.toDigits 10 n := by
  rw [padded, List.length_append, List.length_replicate] at h
  rw [padded, Nat.sub_eq_zero_of_le (by omega), List.replicate_zero, List.nil_append]

theorem getLast?_padded (width n : Nat) : (padded width n).getLast? = some (n % 10).digitChar := by
  have hdigits : (Nat.toDigits 10 n).getLast? = some (n % 10).digitChar := by
    by_cases hn : n < 10
    · rw [Nat.toDigits_of_lt_base hn, Nat.mod_eq_of_lt hn]
      rfl
    · rw [Nat.toDigits_of_base_le (by decide) (by omega), List.getLast?_concat]
  rw [padded, List.getLast?_append, hdigits, Option.some_or]

theorem padded_one (n : Nat) : padded 1 n = Nat.toDigits 10 n := by
  have hlength := Nat.length_toDigits_pos (b := 10) (n := n)
  rw [padded, Nat.sub_eq_zero_of_le (by omega), List.replicate_zero, List.nil_append]

theorem trim_of_all {cs : List Char} (h : ∀ c ∈ cs, isBlank c = false) : trim cs = cs :=
  trim_eq_self (fun c hc => h c (List.mem_of_mem_head? hc))
    fun c hc => h c (List.mem_of_getLast? hc)

end KeyedRows.Text
