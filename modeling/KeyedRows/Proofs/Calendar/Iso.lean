import KeyedRows.Proofs.Calendar.Text

/-!
# Dates of documents read back

* `Layout.scanFrom?_isoDate`, `Layout.scanFrom?_isoTime` : a date and a time of day in the form of
  documents, off the start of a text;
* `Layout.fraction?_fractionText` : a fraction of a second, in as few digits as it is written with;
* `readIsoDate?_iso`, `readIsoDateTime?_iso` : any date comes back from its document, below the year zero as
  well, and any date-time as the one that a clock shows alike.
-/

namespace KeyedRows

namespace Layout

theorem scanFrom?_isoDate (d : Date) (items : Layout) (r : Reading) (rest : List Char) :
    scanFrom? (isoDate ++ items) r (d.toChars '-' ++ rest) =
      scanFrom? items { r with year := d.year, month := d.month, day := d.day }
        (Text.trimStart rest) := by
  obtain ⟨_, ⟨_, hm⟩, _, hd⟩ := d.isDate
  have hdays := daysInMonth_le d.year d.month
  have hmonth := number?_two (by omega : d.month < 100) ('-' :: (Text.padded 2 d.day ++ rest))
  have hday := number?_two (by omega : d.day < 100) rest
  have hyear := year?_yearText d.year
    (by simp : ∀ c ∈ ('-' :: (Text.padded 2 d.month ++ '-' :: (Text.padded 2 d.day ++ rest))).head?,
      c.isDigit = false)
  have hmark : ∀ cs, Text.trimStart ('-' :: cs) = '-' :: cs := fun cs => rfl
  simp only [isoDate, Date.toChars, List.cons_append, List.nil_append, List.append_assoc, scanFrom?,
    step?, trimStart_padded, hyear, hmonth, hday, hmark, Option.map_some, Option.bind_some, if_true]

theorem scanFrom?_isoTime (t : Time) (items : Layout) (r : Reading) (rest : List Char) :
    scanFrom? (.mark 'T' :: .hour :: .blanks :: .mark ':' :: .minute :: .blanks :: .mark ':' ::
        .second :: items) r ('T' :: (t.toChars ++ rest)) =
      scanFrom? items { r with hour := t.hour, minute := t.minute, second := t.clockSecond } rest := by
  obtain ⟨hh, hm, hs, _⟩ := t.isClock
  have hhour := number?_two (by omega : t.hour < 100)
    (':' :: (Text.padded 2 t.minute ++ ':' :: (Text.padded 2 t.clockSecond ++ rest)))
  have hminute := number?_two (by omega : t.minute < 100)
    (':' :: (Text.padded 2 t.clockSecond ++ rest))
  have hsecond := number?_two (by omega : t.clockSecond < 100) rest
  have hmark : ∀ cs, Text.trimStart (':' :: cs) = ':' :: cs := fun cs => rfl
  simp only [Time.toChars, List.cons_append, List.append_assoc, scanFrom?, step?, hmark,
    trimStart_padded, hhour, hminute, hsecond, Option.map_some, Option.bind_some, if_true]

/-- No digit of a fraction is lost. -/
theorem fraction?_fractionText (t : Time) : fraction? t.fractionText = some (t.clockNano, []) := by
  have hn := t.isClock.2.2.2
  unfold Time.fractionText
  split
  · next hzero =>
    rw [hzero]
    rfl
  · split
    · next hmillis =>
      have hnano : t.clockNano / 1000000 * Nat.pow 10 (9 - 3) = t.clockNano :=
        Nat.div_mul_cancel (Nat.dvd_of_mod_eq_zero hmillis)
      have hlt : t.clockNano / 1000000 < Nat.pow 10 3 := Nat.div_lt_of_lt_mul hn
      rw [fraction?_padded (by decide) (by decide) hlt, hnano]
    · split
      · next hmicros =>
        have hnano : t.clockNano / 1000 * Nat.pow 10 (9 - 6) = t.clockNano :=
          Nat.div_mul_cancel (Nat.dvd_of_mod_eq_zero hmicros)
        have hlt : t.clockNano / 1000 < Nat.pow 10 6 := Nat.div_lt_of_lt_mul hn
        rw [fraction?_padded (by decide) (by decide) hlt, hnano]
      · have hnano : t.clockNano * Nat.pow 10 (9 - 9) = t.clockNano := Nat.mul_one t.clockNano
        rw [fraction?_padded (by decide) (by decide) hn, hnano]

end Layout

theorem readIsoDate?_iso (d : Date) : readIsoDate? d.iso = some d := by
  have hscan := Layout.scanFrom?_isoDate d [] {} []
  rw [List.append_nil, List.append_nil] at hscan
  rw [readIsoDate?, Date.iso, String.toList_ofList, Layout.scan?, hscan]
  exact date?_eq d _ rfl rfl rfl

/-- A date-time comes back from its document as the one that a clock shows alike. -/
theorem readIsoDateTime?_iso (t : DateTime) : readIsoDateTime? t.iso = some ⟨t.date, t.time.shown⟩ := by
  obtain ⟨d, time⟩ := t
  have hitems : Layout.isoDateTime = Layout.isoDate ++ (.mark 'T' :: .hour :: .blanks :: .mark ':' ::
      .minute :: .blanks :: .mark ':' :: .second :: [.fraction, .blanks]) := rfl
  have hstart : ∀ cs, Text.trimStart ('T' :: cs) = 'T' :: cs := fun cs => rfl
  have hscan : Layout.isoDateTime.scan? (d.toChars '-' ++ 'T' :: (time.toChars ++ time.fractionText)) =
      some ⟨d.year, d.month, d.day, time.hour, time.minute, time.clockSecond, time.clockNano⟩ := by
    rw [Layout.scan?, hitems, Layout.scanFrom?_isoDate, hstart, Layout.scanFrom?_isoTime]
    simp only [Layout.scanFrom?, Layout.step?, Layout.fraction?_fractionText, Option.map_some,
      Option.bind_some]
    rfl
  have hdate := date?_eq d
    ⟨d.year, d.month, d.day, time.hour, time.minute, time.clockSecond, time.clockNano⟩ rfl rfl rfl
  have htime : Reading.time?
      ⟨d.year, d.month, d.day, time.hour, time.minute, time.clockSecond, time.clockNano⟩ =
        some time.shown := Time.ofClock?_clock time.isClock.2.2.2
  rw [readIsoDateTime?, DateTime.iso, String.toList_ofList, List.append_assoc, List.cons_append, hscan,
    Option.bind_some, Reading.dateTime?, hdate, Option.bind_some, htime]
  rfl

end KeyedRows
