import Mathlib.Algebra.BigOperators.Intervals
import Mathlib.Algebra.Order.BigOperators.Group.Finset
import Mathlib.Data.String.Basic
import Mathlib.Order.Interval.Finset.Nat
import KeyedRows.Proofs.Calendar.Text

/-!
# The order of time and of its texts

* `Text.lt_iff_ofDigitChars_lt`, `Text.padded_append_lt_iff` : digits of one width are ordered as their
  numbers;
* `Text.fields_append_lt_iff` : so are three such numbers, one after another;
* `Date.number` : the days up to a date, counted from the year zero by the lengths of months and years;
* `Date.number_lt_iff` : so a date comes first by its year, then by its month, then by its day;
* `Time.seconds`, `Time.ticks`, `DateTime.instant` : a count of nanoseconds with room for a leap second after
  every second, so that second 60 stands between second 59 and the next minute;
* `ticks_atNano_lt_iff` : times that a clock tells apart are counted in the order that it shows;
* `toChars_append_lt_iff`, `time_append_lt_iff` : written dates and times are ordered as what they name;
* `slashed_lt_iff`, `toSeconds_lt_iff`, `toMicros_lt_iff` : so are the storage forms, up to what they cut.

Texts are compared by the code points of their characters.
-/

namespace KeyedRows

/-! ## Texts of digits -/

namespace Text

/-- Of texts that start with as many characters, the first difference decides. -/
theorem append_lt_append_iff {xs ys xs' ys' : List Char} (h : xs.length = ys.length) :
    xs ++ xs' < ys ++ ys' ↔ xs < ys ∨ xs = ys ∧ xs' < ys' := by
  induction xs generalizing ys with
  | nil =>
    cases ys with
    | nil => simp
    | cons y ys => cases h
  | cons x xs ih =>
    cases ys with
    | nil => cases h
    | cons y ys =>
      rw [List.cons_append, List.cons_append, List.cons_lt_cons_iff, List.cons_lt_cons_iff,
        ih (Nat.succ.inj h), List.cons.injEq]
      tauto

theorem ofDigitChars_cons_zero (c : Char) (cs : List Char) : Nat.ofDigitChars 10 (c :: cs) 0 =
    10 ^ cs.length * (c.toNat - 48) + Nat.ofDigitChars 10 cs 0 := by
  rw [Nat.ofDigitChars_cons, Nat.ofDigitChars_eq_ofDigitChars_zero, Nat.mul_zero, Nat.zero_add]
  rfl

theorem ofDigitChars_lt {cs : List Char} (h : ∀ c ∈ cs, c.isDigit) :
    Nat.ofDigitChars 10 cs 0 < 10 ^ cs.length := by
  induction cs with
  | nil => simp
  | cons c cs ih =>
    have hc := toNat_of_isDigit (h c List.mem_cons_self)
    have hcs := ih fun d hd => h d (List.mem_cons_of_mem _ hd)
    have hdigit : 10 ^ cs.length * (c.toNat - 48) ≤ 10 ^ cs.length * 9 :=
      Nat.mul_le_mul_left _ (by omega)
    rw [ofDigitChars_cons_zero, List.length_cons, Nat.pow_succ]
    omega

/-- Digits of one count are ordered as the numbers that they make. The induction is on the digits: a
difference in one outweighs all that follow. -/
theorem lt_iff_ofDigitChars_lt {xs ys : List Char} (hx : ∀ c ∈ xs, c.isDigit)
    (hy : ∀ c ∈ ys, c.isDigit) (h : xs.length = ys.length) :
    xs < ys ↔ Nat.ofDigitChars 10 xs 0 < Nat.ofDigitChars 10 ys 0 := by
  induction xs generalizing ys with
  | nil =>
    cases ys with
    | nil => simp
    | cons y ys => cases h
  | cons x xs ih =>
    cases ys with
    | nil => cases h
    | cons y ys =>
      have hxs : ∀ c ∈ xs, c.isDigit := fun c hc => hx c (List.mem_cons_of_mem _ hc)
      have hys : ∀ c ∈ ys, c.isDigit := fun c hc => hy c (List.mem_cons_of_mem _ hc)
      have hlength : xs.length = ys.length := Nat.succ.inj h
      have hxdigit := toNat_of_isDigit (hx x List.mem_cons_self)
      have hydigit := toNat_of_isDigit (hy y List.mem_cons_self)
      have hxlt := ofDigitChars_lt hxs
      have hylt := ofDigitChars_lt hys
      have houtweighs {a b : Nat} (hab : a < b) :
          10 ^ ys.length * a + 10 ^ ys.length ≤ 10 ^ ys.length * b := by
        rw [← Nat.mul_succ]
        exact Nat.mul_le_mul_left _ hab
      rw [List.cons_lt_cons_iff, ih hxs hys hlength, ofDigitChars_cons_zero, ofDigitChars_cons_zero]
      rw [hlength] at hxlt ⊢
      have hlt : x < y ↔ x.toNat < y.toNat := UInt32.lt_iff_toNat_lt
      have heq : x = y ↔ x.toNat = y.toNat := Char.toNat_inj.symm
      rw [hlt, heq]
      rcases Nat.lt_trichotomy x.toNat y.toNat with hxy | hxy | hxy
      · have := houtweighs (by omega : x.toNat - 48 < y.toNat - 48)
        omega
      · rw [hxy]
        omega
      · have := houtweighs (by omega : y.toNat - 48 < x.toNat - 48)
        omega

theorem padded_append_lt_iff {width m n : Nat} (hwidth : 0 < width) (hm : m < Nat.pow 10 width)
    (hn : n < Nat.pow 10 width) (rest rest' : List Char) :
    padded width m ++ rest < padded width n ++ rest' ↔ m < n ∨ m = n ∧ rest < rest' := by
  have hlength : (padded width m).length = (padded width n).length := by
    rw [length_padded hwidth hm, length_padded hwidth hn]
  have hinj : padded width m = padded width n ↔ m = n := by
    refine ⟨fun h => ?_, fun h => by rw [h]⟩
    rw [← ofDigitChars_padded width m, h, ofDigitChars_padded]
  rw [append_lt_append_iff hlength, hinj, lt_iff_ofDigitChars_lt (fun _ => isDigit_of_mem_padded)
    (fun _ => isDigit_of_mem_padded) hlength, ofDigitChars_padded, ofDigitChars_padded]

/-- Three numbers with marks between them, of which the last two have two digits: the first that differs
decides, and what follows them decides between texts of the same numbers. -/
theorem fields_append_lt_iff {width a a' b b' c c' : Nat} (mark : Char) (hwidth : 0 < width)
    (ha : a < Nat.pow 10 width) (ha' : a' < Nat.pow 10 width) (hb : b < 100) (hb' : b' < 100)
    (hc : c < 100) (hc' : c' < 100) (rest rest' : List Char) :
    padded width a ++ mark :: (padded 2 b ++ mark :: (padded 2 c ++ rest)) <
        padded width a' ++ mark :: (padded 2 b' ++ mark :: (padded 2 c' ++ rest')) ↔
      (a < a' ∨ a = a' ∧ (b < b' ∨ b = b' ∧ c < c')) ∨ (a = a' ∧ b = b' ∧ c = c') ∧ rest < rest' := by
  have hpair {m n : Nat} (hm : m < 100) (hn : n < 100) (xs ys : List Char) :
      padded 2 m ++ xs < padded 2 n ++ ys ↔ m < n ∨ m = n ∧ xs < ys :=
    padded_append_lt_iff (by decide) hm hn xs ys
  rw [padded_append_lt_iff hwidth ha ha', List.cons_lt_cons_self, hpair hb hb', List.cons_lt_cons_self,
    hpair hc hc']
  simp only [and_or_left, and_assoc, or_assoc]

end Text

/-! ## Days -/

/-- The days before a year, from the year zero on. Every fourth year so far had one more, except for three
of four full centuries. -/
def daysBeforeYear (y : Int) : Int := 365 * y + (y + 3) / 4 - (y + 99) / 100 + (y + 399) / 400

/-- The days of a year before a month. -/
def daysBeforeMonth (y : Int) (m : Nat) : Nat := ∑ k ∈ Finset.Ico 1 m, daysInMonth y k

theorem daysBeforeYear_succ (y : Int) :
    daysBeforeYear (y + 1) = daysBeforeYear y + daysBeforeMonth y 13 := by
  have hmonths : daysBeforeMonth y 13 = if isLeapYear y then 366 else 365 := by
    cases hy : isLeapYear y <;> simp [daysBeforeMonth, Finset.sum_Ico_succ_top, daysInMonth, hy]
  have hleap : isLeapYear y = true ↔ y % 4 = 0 ∧ (y % 100 ≠ 0 ∨ y % 400 = 0) := by
    simp [isLeapYear]
  rw [hmonths, daysBeforeYear, daysBeforeYear]
  split
  · next h =>
    rw [hleap] at h
    omega
  · next h =>
    rw [hleap] at h
    omega

theorem daysBeforeYear_mono {y y' : Int} (h : y ≤ y') : daysBeforeYear y ≤ daysBeforeYear y' := by
  unfold daysBeforeYear
  omega

theorem daysBeforeMonth_mono (y : Int) {m m' : Nat} (h : m ≤ m') :
    daysBeforeMonth y m ≤ daysBeforeMonth y m' :=
  Finset.sum_le_sum_of_subset (Finset.Ico_subset_Ico_right h)

theorem daysBeforeMonth_succ (y : Int) {m : Nat} (h : 1 ≤ m) :
    daysBeforeMonth y (m + 1) = daysBeforeMonth y m + daysInMonth y m :=
  Finset.sum_Ico_succ_top h _

namespace Date

def number (d : Date) : Int := daysBeforeYear d.year + daysBeforeMonth d.year d.month + d.day

/-- The first number that differs, of year, month and day, is the smaller one. -/
def Before (d d' : Date) : Prop :=
  d.year < d'.year ∨ d.year = d'.year ∧
    (d.month < d'.month ∨ d.month = d'.month ∧ d.day < d'.day)

variable {d d' : Date}

theorem number_lt_of_before (h : d.Before d') : d.number < d'.number := by
  obtain ⟨_, ⟨hmonth, hmonth'⟩, _, hday⟩ := d.isDate
  obtain ⟨_, _, hfirst, _⟩ := d'.isDate
  have hin : daysBeforeMonth d.year d.month + d.day ≤ daysBeforeMonth d.year (d.month + 1) := by
    rw [daysBeforeMonth_succ _ hmonth]
    omega
  unfold number
  rcases h with hyear | ⟨hyear, hmonths | ⟨hmonths, hdays⟩⟩
  · have hrest := daysBeforeMonth_mono d.year (by omega : d.month + 1 ≤ 13)
    have hnext := daysBeforeYear_succ d.year
    have hlater := daysBeforeYear_mono hyear
    omega
  · have hlater := daysBeforeMonth_mono d.year (by omega : d.month + 1 ≤ d'.month)
    rw [← hyear]
    omega
  · rw [← hyear, ← hmonths]
    omega

theorem ext_fields (hy : d.year = d'.year) (hm : d.month = d'.month) (hd : d.day = d'.day) : d = d' := by
  obtain ⟨y, m, n, h⟩ := d
  obtain ⟨y', m', n', h'⟩ := d'
  obtain rfl : y = y' := hy
  obtain rfl : m = m' := hm
  obtain rfl : n = n' := hd
  rfl

theorem before_or_eq (d d' : Date) : d.Before d' ∨ d = d' ∨ d'.Before d := by
  by_cases hsame : d.year = d'.year ∧ d.month = d'.month ∧ d.day = d'.day
  · obtain ⟨hy, hm, hd⟩ := hsame
    exact .inr (.inl (ext_fields hy hm hd))
  · have hone : d.Before d' ∨ d'.Before d := by
      unfold Before
      omega
    exact hone.imp_right .inr

theorem number_lt_iff : d.number < d'.number ↔ d.Before d' := by
  refine ⟨fun h => ?_, number_lt_of_before⟩
  rcases before_or_eq d d' with hbefore | rfl | hafter
  · exact hbefore
  · omega
  · have := number_lt_of_before hafter
    omega

theorem number_inj : d.number = d'.number ↔ d = d' := by
  refine ⟨fun h => ?_, fun h => by rw [h]⟩
  rcases before_or_eq d d' with hbefore | heq | hafter
  · have := number_lt_of_before hbefore
    omega
  · exact heq
  · have := number_lt_of_before hafter
    omega

end Date

/-! ## Times -/

def Time.seconds (t : Time) : Nat := (t.hour * 60 + t.minute) * 60 + t.second

/-- The nanoseconds of a time of day, where every second has room for a leap second after it. -/
def Time.ticks (t : Time) : Nat := t.seconds * 2000000000 + t.nano

/-- A moment, as the nanoseconds before it from the year zero on. A day has 86400 seconds. -/
def DateTime.instant (t : DateTime) : Int := t.date.number * 172800000000000 + t.time.ticks

theorem Time.ticks_lt (t : Time) : t.ticks < 172800000000000 := by
  obtain ⟨hh, hm, hs, hn⟩ := t.isTime
  unfold ticks seconds
  omega

theorem DateTime.instant_lt_iff {t t' : DateTime} : t.instant < t'.instant ↔
    t.date.number < t'.date.number ∨ t.date = t'.date ∧ t.time.ticks < t'.time.ticks := by
  have ht := t.time.ticks_lt
  have ht' := t'.time.ticks_lt
  rw [← Date.number_inj]
  unfold instant
  omega

/-! ## Written dates -/

/-- A year that is written with four digits and no sign. -/
def Date.IsPlain (d : Date) : Prop := 0 ≤ d.year ∧ d.year ≤ 9999

theorem toChars_append {d : Date} (h : d.IsPlain) (rest : List Char) : d.toChars '/' ++ rest =
    Text.padded 4 d.year.toNat ++ '/' ::
      (Text.padded 2 d.month ++ '/' :: (Text.padded 2 d.day ++ rest)) := by
  obtain ⟨hlow, hhigh⟩ := h
  have hnat : d.year.natAbs = d.year.toNat := by omega
  rw [Date.toChars, yearText, if_neg (by omega), if_neg (by omega), hnat]
  simp

/-- Written dates are ordered as the days that they name, and what follows them decides between texts of
one day. -/
theorem toChars_append_lt_iff {d d' : Date} (h : d.IsPlain) (h' : d'.IsPlain)
    (rest rest' : List Char) : d.toChars '/' ++ rest < d'.toChars '/' ++ rest' ↔
      d.number < d'.number ∨ d = d' ∧ rest < rest' := by
  obtain ⟨_, ⟨_, hm⟩, _, hd⟩ := d.isDate
  obtain ⟨_, ⟨_, hm'⟩, _, hd'⟩ := d'.isDate
  have hdays := Layout.daysInMonth_le d.year d.month
  have hdays' := Layout.daysInMonth_le d'.year d'.month
  obtain ⟨hlow, hhigh⟩ := h
  obtain ⟨hlow', hhigh'⟩ := h'
  have hyear : d.year.toNat < d'.year.toNat ↔ d.year < d'.year := by omega
  have hsame : d.year.toNat = d'.year.toNat ↔ d.year = d'.year := by omega
  have heq : d = d' ↔ d.year = d'.year ∧ d.month = d'.month ∧ d.day = d'.day :=
    ⟨fun heq => by simp [heq], fun ⟨hy, hm, hd⟩ => Date.ext_fields hy hm hd⟩
  have hfirst : d.year.toNat < 10000 := by omega
  have hfirst' : d'.year.toNat < 10000 := by omega
  rw [toChars_append ⟨hlow, hhigh⟩, toChars_append ⟨hlow', hhigh'⟩,
    Text.fields_append_lt_iff '/' (by decide) hfirst hfirst' (by omega) (by omega) (by omega)
      (by omega), hyear, hsame, Date.number_lt_iff, heq, Date.Before]

/-! ## Written times -/

/-- The seconds that a clock has shown so far, if every minute has 61 of them. -/
def Time.clockCount (t : Time) : Nat := (t.hour * 60 + t.minute) * 61 + t.clockSecond

/-- Written times of day are ordered as a clock shows them, second 60 after second 59. -/
theorem time_append_lt_iff (t t' : Time) (rest rest' : List Char) :
    t.toChars ++ rest < t'.toChars ++ rest' ↔
      t.clockCount < t'.clockCount ∨ t.clockCount = t'.clockCount ∧ rest < rest' := by
  obtain ⟨hh, hm, hs, _⟩ := t.isClock
  obtain ⟨hh', hm', hs', _⟩ := t'.isClock
  have hlt : t.clockCount < t'.clockCount ↔ t.hour < t'.hour ∨ t.hour = t'.hour ∧
      (t.minute < t'.minute ∨ t.minute = t'.minute ∧ t.clockSecond < t'.clockSecond) := by
    unfold Time.clockCount
    omega
  have heq : t.clockCount = t'.clockCount ↔
      t.hour = t'.hour ∧ t.minute = t'.minute ∧ t.clockSecond = t'.clockSecond := by
    unfold Time.clockCount
    omega
  have hhour : t.hour < 100 := by omega
  have hhour' : t'.hour < 100 := by omega
  rw [hlt, heq, ← Text.fields_append_lt_iff ':' (by decide : 0 < 2) hhour hhour' (by omega) (by omega)
    (by omega) (by omega)]
  simp only [Time.toChars, List.append_assoc, List.cons_append]

/-- Times that a clock tells apart are ordered as the clock shows them. -/
theorem ticks_atNano_lt_iff {t t' : Time} {n n' : Nat} (hn : n < 1000000000) (hn' : n' < 1000000000) :
    (t.atNano n hn).ticks < (t'.atNano n' hn').ticks ↔
      t.clockCount < t'.clockCount ∨ t.clockCount = t'.clockCount ∧ n < n' := by
  obtain ⟨hh, hm, hs, _⟩ := t.isClock
  obtain ⟨hh', hm', hs', _⟩ := t'.isClock
  unfold Time.ticks Time.seconds Time.clockCount
  dsimp only [Time.atNano, Time.ofClock]
  omega

/-! ## Storage forms -/

theorem ofList_lt_iff {cs cs' : List Char} : String.ofList cs < String.ofList cs' ↔ cs < cs' := by
  rw [String.lt_iff_toList_lt, String.toList_ofList, String.toList_ofList]

theorem slashed_lt_iff {d d' : Date} (h : d.IsPlain) (h' : d'.IsPlain) :
    d.slashed < d'.slashed ↔ d.number < d'.number := by
  rw [Date.slashed, Date.slashed, ofList_lt_iff]
  simpa using toChars_append_lt_iff h h' [] []

/-- The first of day, second and fraction that differs decides between two moments. -/
theorem instant_atNano_lt_iff {t t' : DateTime} {n n' : Nat} (hn : n < 1000000000)
    (hn' : n' < 1000000000) :
    DateTime.instant ⟨t.date, t.time.atNano n hn⟩ < DateTime.instant ⟨t'.date, t'.time.atNano n' hn'⟩ ↔
      t.date.number < t'.date.number ∨ t.date = t'.date ∧
        (t.time.clockCount < t'.time.clockCount ∨
          t.time.clockCount = t'.time.clockCount ∧ n < n') := by
  rw [DateTime.instant_lt_iff, ticks_atNano_lt_iff]

section
variable {t t' : DateTime} (h : t.date.IsPlain) (h' : t'.date.IsPlain)
include h h'

theorem toSeconds_lt_iff : t.toSeconds < t'.toSeconds ↔
    DateTime.instant ⟨t.date, t.time.atNano 0 (by decide)⟩ <
      DateTime.instant ⟨t'.date, t'.time.atNano 0 (by decide)⟩ := by
  have htime := time_append_lt_iff t.time t'.time [] []
  rw [List.append_nil, List.append_nil] at htime
  rw [instant_atNano_lt_iff, DateTime.toSeconds, DateTime.toSeconds, ofList_lt_iff,
    toChars_append_lt_iff h h', List.cons_lt_cons_self, htime]
  simp only [List.lt_irrefl, Nat.lt_irrefl]

theorem toMicros_lt_iff : t.toMicros < t'.toMicros ↔
    DateTime.instant ⟨t.date, t.time.atNano (t.time.clockNano / 1000 * 1000) (nano_cut_lt t.time)⟩ <
      DateTime.instant
        ⟨t'.date, t'.time.atNano (t'.time.clockNano / 1000 * 1000) (nano_cut_lt t'.time)⟩ := by
  have hn := t.time.isClock.2.2.2
  have hn' := t'.time.isClock.2.2.2
  have hfraction : Text.padded 6 (t.time.clockNano / 1000) < Text.padded 6 (t'.time.clockNano / 1000) ↔
      t.time.clockNano / 1000 * 1000 < t'.time.clockNano / 1000 * 1000 := by
    have hmicros : t.time.clockNano / 1000 < 1000000 := by omega
    have hmicros' : t'.time.clockNano / 1000 < 1000000 := by omega
    have hpadded := Text.padded_append_lt_iff (by decide : 0 < 6) hmicros hmicros' [] []
    rw [List.append_nil, List.append_nil] at hpadded
    rw [hpadded]
    simp only [List.lt_irrefl, and_false, or_false]
    omega
  rw [instant_atNano_lt_iff, DateTime.toMicros, DateTime.toMicros, ofList_lt_iff]
  simp only [List.append_assoc, List.cons_append]
  rw [toChars_append_lt_iff h h', List.cons_lt_cons_self, time_append_lt_iff, List.cons_lt_cons_self,
    hfraction]

end

end KeyedRows
