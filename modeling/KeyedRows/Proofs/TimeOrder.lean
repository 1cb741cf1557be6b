import KeyedRows.Proofs.Calendar.Order
import KeyedRows.Proofs.Loading
import KeyedRows.Proofs.Sql.Engine

/-!
# Stored days and times in the order of time

* `Value.instant?` : the moment that a value names;
* `ColumnType.time?` : the day and time that a value stands for in a column of days or times;
* `ColumnType.cut`, `ColumnType.timeText` : what such a column keeps of a time, and its text for it;
* `store?_of_time?`, `coerce_of_time?` : the column stores that text and gives back what it keeps;
* `timeText_lt_iff` : the texts are ordered as what the column keeps;
* `store_timeOrder` : so two values are stored in the order of the moments that the column gives back, and
  conditions and sorted rows follow the order of time.

The order of time is that of moments with room for a leap second after every second. Years have four digits
and no sign, as all others are written with one.
-/

namespace KeyedRows

open Sql

/-- The moment that a value names; a bare date is at midnight. -/
def Value.instant? : Value → Option Int
  | date d => some (DateTime.instant ⟨d, .midnight⟩)
  | dateTime t | timestamp t => some t.instant
  | _ => none

/-- Storage orders the texts of a column by the code points of their characters. -/
def Sql.Collation.OrdersTexts (k : Collation) (column : String) : Prop :=
  ∀ s s', k.order (some column) (.text s) (.text s') = compare s s'

theorem Sql.Collation.plain_ordersTexts (column : String) : plain.OrdersTexts column := fun s s' => by
  simp [plain, compareLex, compareOn, Cell.rank, Cell.int, Cell.string]

theorem compare_eq_compare {α β : Type*} [LinearOrder α] [LinearOrder β] {a a' : α} {b b' : β}
    (h : a < a' ↔ b < b') (h' : a' < a ↔ b' < b) : compare a a' = compare b b' := by
  rcases lt_trichotomy b b' with hb | rfl | hb
  · rw [compare_lt_iff_lt.2 hb, compare_lt_iff_lt.2 (h.2 hb)]
  · have ha : a = a' := by
      refine le_antisymm (not_lt.1 fun hlt => ?_) (not_lt.1 fun hlt => ?_)
      · exact lt_irrefl b (h'.1 hlt)
      · exact lt_irrefl b (h.1 hlt)
    rw [compare_eq_iff_eq.2 ha, compare_eq_iff_eq.2 rfl]
  · rw [compare_gt_iff_gt.2 hb, compare_gt_iff_gt.2 (h'.2 hb)]

namespace ColumnType

/-! ## Columns of days and times -/

/-- The day and time that a value stands for in a column of days or times; a day is at midnight. -/
def time? : ColumnType → Value → Option DateTime
  | date, v => (dateOf? v).map fun d => ⟨d, .midnight⟩
  | dateTime, v | timestamp, v => dateTimeOf? v
  | _, _ => none

/-- What a column of days or times keeps of a time. -/
def cut : ColumnType → DateTime → DateTime
  | date, t => ⟨t.date, .midnight⟩
  | dateTime, t => ⟨t.date, t.time.atNano 0 (by decide)⟩
  | _, t => ⟨t.date, t.time.atNano (t.time.clockNano / 1000 * 1000) (nano_cut_lt t.time)⟩

/-- The text of a time in a column of days or times. -/
def timeText : ColumnType → DateTime → String
  | date, t => t.date.slashed
  | dateTime, t => t.toSeconds
  | _, t => t.toMicros

variable {type : ColumnType} {v : Value} {t t' : DateTime}

theorem exists_time_of_day? {d : Date} (h : type.day? v = some d) :
    ∃ t, type.time? v = some t ∧ t.date = d := by
  cases type with
  | date => exact ⟨⟨d, .midnight⟩, Option.map_eq_some_iff.2 ⟨d, h, rfl⟩, rfl⟩
  | dateTime | timestamp => exact Option.map_eq_some_iff.1 h
  | _ => cases h

theorem store?_of_time? (h : type.time? v = some t) :
    type.store? v = some (.text (type.timeText t)) := by
  have hv : v ≠ .null := by
    rintro rfl
    cases type <;> cases h
  cases type with
  | date =>
    obtain ⟨d, hd, rfl⟩ := Option.map_eq_some_iff.1 h
    rw [store?_date hv, hd]
    rfl
  | dateTime =>
    rw [store?_dateTime hv, show dateTimeOf? v = some t from h]
    rfl
  | timestamp =>
    rw [store?_timestamp hv, show dateTimeOf? v = some t from h]
    rfl
  | _ => cases h

theorem coerce_of_time? (h : type.time? v = some t) (hy : 0 ≤ t.date.year) :
    ∃ w, type.coerce v = .ok w ∧ w.instant? = some (type.cut t).instant := by
  simp only [coerce_eq_ok_of_store? (store?_of_time? h)]
  cases type with
  | date =>
    have hload : date.load? (.text t.date.slashed) = some (.date t.date) := by
      rw [load?, readDate?_slashed, if_pos hy, Option.map_some]
    exact ⟨_, hload, rfl⟩
  | dateTime =>
    have hload : dateTime.load? (.text t.toSeconds) = some (.dateTime (cut dateTime t)) := by
      rw [load?, readDateTime?_toSeconds, if_pos hy, Option.map_some, cut]
    exact ⟨_, hload, rfl⟩
  | timestamp =>
    have hload : timestamp.load? (.text t.toMicros) = some (.timestamp (cut timestamp t)) := by
      rw [load?, readDateTime?_toMicros, if_pos hy, Option.map_some]
      rfl
    exact ⟨_, hload, rfl⟩
  | _ => cases h

/-- Texts are ordered as what the column keeps of the times. -/
theorem timeText_lt_iff (h : (type.time? v).isSome) (ht : t.date.IsPlain) (ht' : t'.date.IsPlain) :
    type.timeText t < type.timeText t' ↔ (type.cut t).instant < (type.cut t').instant := by
  cases type with
  | date =>
    rw [timeText, timeText, slashed_lt_iff ht ht', DateTime.instant_lt_iff]
    simp only [cut, Nat.lt_irrefl, and_false, or_false]
  | dateTime => exact toSeconds_lt_iff ht ht'
  | timestamp => exact toMicros_lt_iff ht ht'
  | _ => cases h

/-! ## The order of time -/

/-- The column stores a value as a text, and gives back a value of some moment. -/
structure StoresMoment (type : ColumnType) (v : Value) (s : String) (w : Value) (i : Int) : Prop where
  stored : type.store v = .ok (.text s)
  coerced : type.coerce v = .ok w
  moment : w.instant? = some i

theorem exists_storesMoment (h : type.time? v = some t) (hy : 0 ≤ t.date.year) :
    ∃ w, type.StoresMoment v (type.timeText t) w (type.cut t).instant := by
  obtain ⟨w, hw, hi⟩ := coerce_of_time? h hy
  exact ⟨w, store_eq_ok.2 (store?_of_time? h), hw, hi⟩

/-- **Stored days and times are in the order of time.** Their texts compare as the moments of the values
that the column gives back, and are equal exactly if those values are. Where storage orders texts by code
points, a condition compares a row with a value as the two moments, and sorted rows follow the moments in
the direction of the key. -/
theorem store_timeOrder {v' : Value} {d d' : Date} (hday : type.day? v = some d)
    (hday' : type.day? v' = some d') (hd : d.IsPlain) (hd' : d'.IsPlain) :
    ∃ s s' w w' i i', type.StoresMoment v s w i ∧ type.StoresMoment v' s' w' i' ∧
      compare s s' = compare i i' ∧ (s = s' ↔ w = w') ∧
      ∀ (k : Collation) (column : String), k.OrdersTexts column →
        ∀ row : String → Cell, row column = .text s →
          (∀ (t : Table) (style : Style) (c : Column), t.column? column = some c → c.type = type →
            (View.ofCells k t style row).compare column v' = some (compare i i')) ∧
          ∀ row' : String → Cell, row' column = .text s' → ∀ direction : Direction,
            rowCompare k [⟨column, direction⟩] row row' = direction.apply (compare i i') := by
  obtain ⟨t, ht, rfl⟩ := exists_time_of_day? hday
  obtain ⟨t', ht', rfl⟩ := exists_time_of_day? hday'
  obtain ⟨w, hw⟩ := exists_storesMoment ht hd.1
  obtain ⟨w', hw'⟩ := exists_storesMoment ht' hd'.1
  have hsome : (type.time? v).isSome := by rw [ht]; rfl
  have horder : compare (type.timeText t) (type.timeText t') =
      compare (type.cut t).instant (type.cut t').instant :=
    compare_eq_compare (timeText_lt_iff hsome hd hd') (timeText_lt_iff hsome hd' hd)
  refine ⟨_, _, w, w', _, _, hw, hw', horder, ?_, fun k column hk row hrow => ⟨?_, ?_⟩⟩
  · rw [coerce_inj_iff hw.coerced hw'.coerced, store?_of_time? ht, store?_of_time? ht',
      Option.some.injEq, Cell.text.injEq]
  · rintro table style c hc rfl
    have hcell : table.stored? column v' = some (.text (c.type.timeText t')) := by
      rw [Table.stored?, hc, Option.bind_some, store?_of_time? ht']
    show (table.stored? column v').bind _ = _
    rw [hcell, Option.bind_some, Collation.compare?, ← horder, ← hk]
    simp [Operand.value, Operand.column?, hrow, Cell.isNull]
  · intro row' hrow' direction
    rw [rowCompare, rowCompare, hrow, hrow', hk, horder, Ordering.then_eq]

private def lastDay : Date := ⟨2016, 12, 31, by decide⟩

private def nextDay : Date := ⟨2017, 1, 1, by decide⟩

private def leapSecond : Value := .timestamp ⟨lastDay, ⟨23, 59, 59, 1999999999, by decide⟩⟩

/-- A leap second that is cut to the microsecond, and the midnight after it as a text without a time. -/
theorem store_timeOrder_leapSecond :
    timestamp.day? leapSecond = some lastDay ∧ timestamp.day? (.string "2017-1-1") = some nextDay ∧
      lastDay.IsPlain ∧ nextDay.IsPlain ∧
      ∃ w w' i i', timestamp.StoresMoment leapSecond "2016/12/31 23:59:60.999999" w i ∧
        timestamp.StoresMoment (.string "2017-1-1") "2017/01/01 00:00:00.000000" w' i' ∧
        compare i i' = .lt ∧ w ≠ w' ∧ rowCompare .plain [⟨"at", .descending⟩]
          (fun _ => .text "2016/12/31 23:59:60.999999")
          (fun _ => .text "2017/01/01 00:00:00.000000") = .gt := by
  have hday : timestamp.day? leapSecond = some lastDay := rfl
  have hday' : timestamp.day? (.string "2017-1-1") = some nextDay := rfl
  have hd : lastDay.IsPlain := ⟨by decide, by decide⟩
  have hd' : nextDay.IsPlain := ⟨by decide, by decide⟩
  obtain ⟨s, s', w, w', i, i', hv, hv', hcompare, hsame, hstorage⟩ := store_timeOrder hday hday' hd hd'
  have hs : timestamp.store leapSecond = .ok (.text "2016/12/31 23:59:60.999999") := rfl
  have hs' : timestamp.store (.string "2017-1-1") = .ok (.text "2017/01/01 00:00:00.000000") := rfl
  obtain rfl := Cell.text.inj (Except.ok.inj (hv.stored.symm.trans hs))
  obtain rfl := Cell.text.inj (Except.ok.inj (hv'.stored.symm.trans hs'))
  have hlt : compare i i' = .lt := by
    rw [← hcompare]
    decide
  have hne : w ≠ w' := fun h => absurd (hsame.2 h) (by decide)
  have hstored := hstorage .plain "at" (Collation.plain_ordersTexts "at")
    (fun _ => .text "2016/12/31 23:59:60.999999") rfl
  have hrows := hstored.2 (fun _ => .text "2017/01/01 00:00:00.000000") rfl .descending
  rw [hlt] at hrows
  exact ⟨hday, hday', hd, hd', w, w', i, i', hv, hv', hlt, hne, hrows⟩

end ColumnType
end KeyedRows
