import KeyedRows.Calendar.Text
import KeyedRows.Proofs.Text.Number

/-!
# Dates off the start of a text

* `number?_append`, `number?_padded`, `year?_yearText`, `fraction?_padded` : the numbers of a date and where
  they end;
* `LayoutItem.Sets`, `sets_of_step?` : a part of a layout sets its own number and no other;
* `eq_of_scanFrom?` : what no part sets, a whole layout leaves as it is;
* `step?_append`, `scanFrom?_append` : a part that was read is read in a longer text as well, if no digit
  follows, and so is a layout.
-/

namespace KeyedRows

namespace Layout

/-! ## Numbers -/

theorem number?_append {width : Nat} {w rest : List Char} (hne : w ≠ []) (hw : ∀ c ∈ w, c.isDigit)
    (hlength : w.length ≤ width)
    (hstop : w.length = width ∨ ∀ c ∈ rest.head?, c.isDigit = false) :
    number? width (w ++ rest) = some (Nat.ofDigitChars 10 w 0, rest) := by
  have htake : ((w ++ rest).take width).takeWhile Char.isDigit = w := by
    rw [List.take_append, List.take_of_length_le hlength]
    refine Text.takeWhile_append_of_head? hw ?_
    rcases hstop with heq | hrest
    · rw [heq, Nat.sub_self, List.take_zero]
      simp
    · intro c hc
      cases rest with
      | nil => simp at hc
      | cons d rest =>
        cases hn : width - w.length with
        | zero => simp [hn] at hc
        | succ n => exact hrest c (by simpa [hn] using hc)
  unfold number?
  dsimp only
  rw [htake, Text.natural?, if_pos ⟨hne, List.all_eq_true.2 hw⟩, Option.map_some, List.drop_left]

theorem number?_padded {width n : Nat} (hwidth : 0 < width) (hn : n < Nat.pow 10 width)
    (rest : List Char) : number? width (Text.padded width n ++ rest) = some (n, rest) := by
  have hlength := Text.length_padded hwidth hn
  rw [number?_append (Text.padded_ne_nil width n) (fun _ => Text.isDigit_of_mem_padded) (by omega)
    (.inl hlength), Text.ofDigitChars_padded]

theorem trimStart_padded (width n : Nat) (rest : List Char) :
    Text.trimStart (Text.padded width n ++ rest) = Text.padded width n ++ rest := by
  obtain ⟨c, cs, hcs⟩ := List.exists_cons_of_ne_nil (Text.padded_ne_nil width n)
  have hc : c.isDigit := Text.isDigit_of_mem_padded (by rw [hcs]; exact List.mem_cons_self)
  refine Text.trimStart_eq_self ?_
  rw [hcs]
  rintro d ⟨⟩
  exact Text.isBlank_of_isDigit hc

theorem number?_two {n : Nat} (hn : n < 100) (rest : List Char) :
    number? 2 (Text.padded 2 n ++ rest) = some (n, rest) := number?_padded (by decide) hn rest

theorem year?_of_isDigit {c : Char} {cs : List Char} (h : c.isDigit) :
    year? (c :: cs) = (number? 4 (c :: cs)).map fun (n, rest) => (n, rest) := by
  unfold year?
  split
  · cases ‹_ :: _ = _›; cases h
  · cases ‹_ :: _ = _›; cases h
  · rfl

theorem year?_yearText (y : Int) {rest : List Char} (hrest : ∀ c ∈ rest.head?, c.isDigit = false) :
    year? (Text.trimStart (yearText y ++ rest)) = some (y, rest) := by
  have hdigits : ∀ c ∈ Text.padded 4 y.natAbs, c.isDigit := fun _ => Text.isDigit_of_mem_padded
  have hsigned : number? (Text.padded 4 y.natAbs ++ rest).length (Text.padded 4 y.natAbs ++ rest) =
      some (y.natAbs, rest) := by
    rw [number?_append (Text.padded_ne_nil 4 _) hdigits (by simp) (.inr hrest), Text.ofDigitChars_padded]
  unfold yearText
  by_cases hneg : y < 0
  · have hnat : -(y.natAbs : Int) = y := by omega
    rw [if_pos hneg, List.singleton_append, List.cons_append, Text.trimStart_eq_self (by simp; rfl)]
    show (number? _ _).map _ = _
    rw [hsigned]
    simp only [Option.map_some, hnat]
  · have hnat : (y.natAbs : Int) = y := by omega
    rw [if_neg hneg]
    by_cases hlong : 9999 < y
    · rw [if_pos hlong, List.singleton_append, List.cons_append,
        Text.trimStart_eq_self (by simp; rfl)]
      show (number? _ _).map _ = _
      rw [hsigned]
      simp only [Option.map_some, hnat]
    · obtain ⟨c, cs, hcs⟩ := List.exists_cons_of_ne_nil (Text.padded_ne_nil 4 y.natAbs)
      have hc : c.isDigit := hdigits c (by rw [hcs]; exact List.mem_cons_self)
      have hyear : y.natAbs < 10000 := by omega
      have hread := number?_padded (by decide : 0 < 4) hyear rest
      rw [if_neg hlong, List.nil_append, trimStart_padded, hcs, List.cons_append,
        year?_of_isDigit hc, ← List.cons_append, ← hcs, hread]
      simp only [Option.map_some, hnat]

theorem fraction?_padded {width n : Nat} (hwidth : 0 < width) (hnine : width ≤ 9)
    (hn : n < Nat.pow 10 width) :
    fraction? ('.' :: Text.padded width n) = some (n * Nat.pow 10 (9 - width), []) := by
  have hdigits : ∀ c ∈ Text.padded width n, c.isDigit := fun _ => Text.isDigit_of_mem_padded
  have hlength := Text.length_padded hwidth hn
  have htake : (Text.padded width n).takeWhile Char.isDigit = Text.padded width n :=
    List.takeWhile_eq_self_iff.2 hdigits
  simp only [fraction?, htake]
  rw [List.take_of_length_le (by omega), Text.natural?_padded, hlength, Option.map_some,
    List.drop_of_length_le (by omega)]

end Layout

/-! ## What a layout sets -/

/-- What a part of a layout does to the numbers read so far. -/
def LayoutItem.Sets : LayoutItem → Reading → Reading → Prop
  | .year, r, r' => ∃ y, r' = { r with year := y }
  | .month, r, r' => ∃ n, r' = { r with month := n }
  | .day, r, r' => ∃ n, r' = { r with day := n }
  | .hour, r, r' => ∃ n, r' = { r with hour := n }
  | .minute, r, r' => ∃ n, r' = { r with minute := n }
  | .second, r, r' => ∃ n, r' = { r with second := n }
  | .fraction, r, r' => ∃ n, r' = { r with nano := n }
  | .blanks, r, r' | .mark _, r, r' => r' = r

namespace Layout

section
variable {item : LayoutItem} {items : Layout} {r r' : Reading} {cs rest : List Char}

theorem sets_of_step? (h : step? item r cs = some (r', rest)) : item.Sets r r' := by
  cases item with
  | blanks =>
    cases h
    rfl
  | mark c =>
    cases cs with
    | nil => cases h
    | cons d cs =>
      simp only [step?, Option.ite_none_right_eq_some] at h
      cases h.2
      rfl
  | _ =>
    simp only [step?, Option.map_eq_some_iff, Prod.mk.injEq] at h
    obtain ⟨p, _, rfl, _⟩ := h
    exact ⟨p.1, rfl⟩

/-- What no part of a layout changes, the layout leaves as it is. -/
theorem eq_of_scanFrom? {α : Type} (f : Reading → α)
    (hf : ∀ item ∈ items, ∀ r r', item.Sets r r' → f r' = f r)
    (h : scanFrom? items r cs = some r') : f r' = f r := by
  induction items generalizing r cs with
  | nil =>
    cases cs with
    | nil =>
      cases h
      rfl
    | cons c cs => cases h
  | cons item items ih =>
    obtain ⟨⟨r₁, rest⟩, hstep, h⟩ := Option.bind_eq_some_iff.1 h
    calc f r' = f r₁ := ih (fun item hitem => hf item (List.mem_cons_of_mem _ hitem)) h
      _ = f r := hf item List.mem_cons_self r r₁ (sets_of_step? hstep)

theorem year_of_scanFrom? (hitems : .year ∉ items) (h : scanFrom? items r cs = some r') :
    r'.year = r.year := by
  refine eq_of_scanFrom? Reading.year (fun item hitem r r' hsets => ?_) h
  cases item with
  | year => exact absurd hitem hitems
  | blanks => exact congrArg Reading.year hsets
  | mark c => exact congrArg Reading.year hsets
  | _ =>
    obtain ⟨n, rfl⟩ := hsets
    rfl

theorem date?_of_scanFrom? (hitems : ∀ item ∈ items, item ≠ .year ∧ item ≠ .month ∧ item ≠ .day)
    (h : scanFrom? items r cs = some r') : r'.date? = r.date? := by
  refine eq_of_scanFrom? Reading.date? (fun item hitem r r' hsets => ?_) h
  obtain ⟨hyear, hmonth, hday⟩ := hitems item hitem
  cases item with
  | year => exact absurd rfl hyear
  | month => exact absurd rfl hmonth
  | day => exact absurd rfl hday
  | blanks => exact congrArg Reading.date? hsets
  | mark c => exact congrArg Reading.date? hsets
  | _ =>
    obtain ⟨n, rfl⟩ := hsets
    rfl

theorem time?_of_scanFrom?
    (hitems : ∀ item ∈ items, item ≠ .hour ∧ item ≠ .minute ∧ item ≠ .second ∧ item ≠ .fraction)
    (h : scanFrom? items r cs = some r') : r'.time? = r.time? := by
  refine eq_of_scanFrom? Reading.time? (fun item hitem r r' hsets => ?_) h
  obtain ⟨hhour, hminute, hsecond, hfraction⟩ := hitems item hitem
  cases item with
  | hour => exact absurd rfl hhour
  | minute => exact absurd rfl hminute
  | second => exact absurd rfl hsecond
  | fraction => exact absurd rfl hfraction
  | blanks => exact congrArg Reading.time? hsets
  | mark c => exact congrArg Reading.time? hsets
  | _ =>
    obtain ⟨n, rfl⟩ := hsets
    rfl

/-! ## Longer texts -/

variable {tail : List Char} (htail : ∀ c ∈ tail.head?, c.isDigit = false)
include htail

/-- What follows a number without a digit is not a part of it. -/
theorem number?_append_left (width : Nat) (cs : List Char) :
    number? width (cs ++ tail) = (number? width cs).map (Prod.map id (· ++ tail)) := by
  have hdigits : ((cs ++ tail).take width).takeWhile Char.isDigit =
      (cs.take width).takeWhile Char.isDigit := by
    rw [List.take_append]
    refine Text.takeWhile_append_left _ fun c hc => htail c ?_
    rw [List.head?_take] at hc
    split at hc
    · cases hc
    · exact hc
  have hlength : ((cs.take width).takeWhile Char.isDigit).length ≤ cs.length :=
    ((List.takeWhile_sublist _).trans (List.take_sublist _ _)).length_le
  unfold number?
  dsimp only
  rw [hdigits, List.drop_append_of_le_length hlength, Option.map_map]
  rfl

omit htail in
theorem exists_of_number? {width : Nat} {p : Nat × List Char} (h : number? width cs = some p) :
    ∃ c cs', cs = c :: cs' ∧ c.isDigit := by
  obtain ⟨n, hn, _⟩ := Option.map_eq_some_iff.1 h
  obtain ⟨⟨hne, hdigits⟩, _⟩ := Text.natural?_eq_some_iff.1 hn
  obtain ⟨c, w, hw⟩ := List.exists_cons_of_ne_nil hne
  have hc : c.isDigit := hdigits c (hw ▸ List.mem_cons_self)
  have hprefix : c :: w <+: cs := hw ▸ (List.takeWhile_prefix _).trans (List.take_prefix _ _)
  obtain ⟨cs', rfl⟩ := hprefix
  exact ⟨c, w ++ cs', rfl, hc⟩

theorem year?_append {y : Int} (h : year? cs = some (y, rest)) :
    year? (cs ++ tail) = some (y, rest ++ tail) := by
  have hsigned (cs : List Char) : number? (cs ++ tail).length (cs ++ tail) =
      (number? cs.length cs).map (Prod.map id (· ++ tail)) := by
    rw [number?_append_left htail]
    congr 1
    unfold number?
    rw [List.take_of_length_le (by simp), List.take_of_length_le (Nat.le_refl _)]
  unfold year? at h
  split at h
  · next cs =>
    obtain ⟨p, hp, heq⟩ := Option.map_eq_some_iff.1 h
    show (number? (cs ++ tail).length (cs ++ tail)).map _ = _
    rw [hsigned, hp]
    cases heq
    rfl
  · next cs =>
    obtain ⟨p, hp, heq⟩ := Option.map_eq_some_iff.1 h
    show (number? (cs ++ tail).length (cs ++ tail)).map _ = _
    rw [hsigned, hp]
    cases heq
    rfl
  · obtain ⟨p, hp, heq⟩ := Option.map_eq_some_iff.1 h
    obtain ⟨c, cs, rfl, hc⟩ := exists_of_number? hp
    rw [List.cons_append, year?_of_isDigit hc, ← List.cons_append, number?_append_left htail, hp]
    cases heq
    rfl

/-- Numbers and marks that were read are read in a longer text as well, unless a digit follows. -/
theorem step?_append (hitem : item ≠ .blanks ∧ item ≠ .fraction)
    (h : step? item r cs = some (r', rest)) : step? item r (cs ++ tail) = some (r', rest ++ tail) := by
  have hstart {width : Nat} {p : Nat × List Char} (hp : number? width (Text.trimStart cs) = some p) :
      number? width (Text.trimStart (cs ++ tail)) = some (p.1, p.2 ++ tail) := by
    obtain ⟨c, cs', hcs, _⟩ := exists_of_number? hp
    rw [Text.trimStart_append (by rw [hcs]; exact List.cons_ne_nil c cs'), number?_append_left htail, hp]
    rfl
  cases item with
  | blanks => exact absurd rfl hitem.1
  | fraction => exact absurd rfl hitem.2
  | mark c =>
    cases cs with
    | nil => cases h
    | cons d cs =>
      simp only [step?, List.cons_append, Option.ite_none_right_eq_some] at h ⊢
      obtain ⟨rfl, h⟩ := h
      cases h
      exact ⟨rfl, rfl⟩
  | year =>
    obtain ⟨⟨y, rest⟩, hy, heq⟩ := Option.map_eq_some_iff.1 h
    cases heq
    have hne : Text.trimStart cs ≠ [] := by
      intro hnil
      rw [hnil] at hy
      cases hy
    simp only [step?, Text.trimStart_append hne, year?_append htail hy, Option.map_some]
  | _ =>
    simp only [step?] at h ⊢
    obtain ⟨p, hp, heq⟩ := Option.map_eq_some_iff.1 h
    rw [hstart hp]
    cases heq
    rfl

/-- A layout of numbers and marks that fits a text reads the same off the start of a longer one, unless a
digit follows. -/
theorem scanFrom?_append (hitems : ∀ item ∈ items, item ≠ .blanks ∧ item ≠ .fraction) (more : Layout)
    (h : scanFrom? items r cs = some r') :
    scanFrom? (items ++ more) r (cs ++ tail) = scanFrom? more r' tail := by
  induction items generalizing r cs with
  | nil =>
    cases cs with
    | nil =>
      cases h
      rfl
    | cons c cs => cases h
  | cons item items ih =>
    obtain ⟨⟨r₁, rest⟩, hstep, h⟩ := Option.bind_eq_some_iff.1 h
    obtain ⟨hitem, hitems⟩ := List.forall_mem_cons.1 hitems
    rw [List.cons_append, scanFrom?, step?_append htail hitem hstep, Option.bind_some]
    exact ih hitems h

end
end Layout
end KeyedRows
