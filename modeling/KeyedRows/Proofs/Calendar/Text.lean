import Mathlib.Data.Option.Basic
import KeyedRows.Proofs.Calendar.Scan

/-!
# Dates read back

* `scanFrom?_date`, `scanFrom?_time` : a date and a time of day by a layout;
* `nonneg_of_scan?`, `nonneg_of_readDate?` : without a minus sign there is no year below zero;
* `splitDateTime_of_bare`, `splitDateTime_of_parted` : where the date ends in a text;
* `splitDateTime_date`, `splitDateTime_dateTime` : where it ends in a written text;
* `Time.shown`, `Time.LeapsLast` : a clock shows a leap second as the second after it, so it tells apart
  those at the end of a minute alone;
* `leapsLast_of_readDateTime?` : no text spells another one;
* `readDate?_slashed`, `readDateTime?_toSeconds`, `readDateTime?_toMicros` : a date or a date-time in
  storage form reads back, cut to what the form keeps, unless its year is below zero.

The sign of a year below zero is taken for a mark of the date, so such a text is not read.
-/

namespace KeyedRows

namespace Layout

/-! ## Dates and times by a layout -/

theorem daysInMonth_le (y : Int) (m : Nat) : daysInMonth y m ≤ 31 := by
  unfold daysInMonth
  split
  · split <;> omega
  · split <;> omega

theorem scanFrom?_date (d : Date) (items : Layout) (r : Reading) (rest : List Char) :
    scanFrom? (date ++ items) r (d.toChars '/' ++ rest) =
      scanFrom? items { r with year := d.year, month := d.month, day := d.day } rest := by
  obtain ⟨_, ⟨_, hm⟩, _, hd⟩ := d.isDate
  have hdays := daysInMonth_le d.year d.month
  have hmonth := number?_two (by omega : d.month < 100) ('/' :: (Text.padded 2 d.day ++ rest))
  have hday := number?_two (by omega : d.day < 100) rest
  have hyear := year?_yearText d.year
    (by simp : ∀ c ∈ ('/' :: (Text.padded 2 d.month ++ '/' :: (Text.padded 2 d.day ++ rest))).head?,
      c.isDigit = false)
  simp only [date, Date.toChars, List.cons_append, List.nil_append, List.append_assoc, scanFrom?,
    step?, trimStart_padded, hyear, hmonth, hday, Option.map_some, Option.bind_some, if_true]

theorem scanFrom?_time (t : Time) (items : Layout) (r : Reading) (rest : List Char) :
    scanFrom? (.blanks :: .hour :: .mark ':' :: .minute :: .mark ':' :: .second :: items) r
        (' ' :: (t.toChars ++ rest)) =
      scanFrom? items { r with hour := t.hour, minute := t.minute, second := t.clockSecond } rest := by
  obtain ⟨hh, hm, hs, _⟩ := t.isClock
  have hhour := number?_two (by omega : t.hour < 100)
    (':' :: (Text.padded 2 t.minute ++ ':' :: (Text.padded 2 t.clockSecond ++ rest)))
  have hminute := number?_two (by omega : t.minute < 100)
    (':' :: (Text.padded 2 t.clockSecond ++ rest))
  have hsecond := number?_two (by omega : t.clockSecond < 100) rest
  have hblanks : ∀ cs, Text.trimStart (' ' :: cs) = Text.trimStart cs := fun cs => rfl
  simp only [Time.toChars, List.cons_append, List.append_assoc, scanFrom?, step?, hblanks,
    trimStart_padded, hhour, hminute, hsecond, Option.map_some, Option.bind_some, if_true]

/-- No date begins with a mark, as one below the year zero does when its sign is replaced. -/
theorem scan?_slash (items : Layout) (cs : List Char) : scan? (.year :: items) ('/' :: cs) = none := by
  have hyear : year? (Text.trimStart ('/' :: cs)) = none := rfl
  simp only [scan?, scanFrom?, step?, hyear, Option.map_none, Option.bind_none]

/-! ## The year of a text -/

theorem nonneg_of_year? {cs rest : List Char} {y : Int} (hsign : ∀ c ∈ cs.head?, c ≠ '-')
    (h : year? cs = some (y, rest)) : 0 ≤ y := by
  unfold year? at h
  split at h
  · exact absurd rfl (hsign _ rfl)
  all_goals
    simp only [Option.map_eq_some_iff, Prod.mk.injEq] at h
    obtain ⟨_, _, rfl, _⟩ := h
    exact Int.natCast_nonneg _

theorem nonneg_of_scan? {items : Layout} {r : Reading} {cs : List Char} (hitems : .year ∉ items)
    (hsign : '-' ∉ cs) (h : scan? (.year :: items) cs = some r) : 0 ≤ r.year := by
  obtain ⟨⟨r₁, rest⟩, hstep, h⟩ := Option.bind_eq_some_iff.1 h
  obtain ⟨⟨y, _⟩, hyear, heq⟩ := Option.map_eq_some_iff.1 hstep
  cases heq
  rw [year_of_scanFrom? hitems h]
  refine nonneg_of_year? (fun c hc hminus => hsign ?_) hyear
  rw [← hminus]
  exact (List.dropWhile_sublist _).subset (List.mem_of_mem_head? hc)

end Layout

/-! ## Characters of written dates -/

theorem mem_toChars {d : Date} {c : Char} (h : c ∈ d.toChars '/') :
    c.isDigit ∨ c = '/' ∨ c = '+' ∨ (c = '-' ∧ d.year < 0) := by
  simp only [Date.toChars, yearText, List.mem_append, List.mem_cons] at h
  rcases h with ((h | h) | h) | rfl | h
  · split at h
    · next hy => exact .inr (.inr (.inr ⟨List.mem_singleton.1 h, hy⟩))
    · split at h
      · exact .inr (.inr (.inl (List.mem_singleton.1 h)))
      · cases h
  · exact .inl (Text.isDigit_of_mem_padded h)
  · rcases h with rfl | h
    · exact .inr (.inl rfl)
    · exact .inl (Text.isDigit_of_mem_padded h)
  · exact .inr (.inl rfl)
  · exact .inl (Text.isDigit_of_mem_padded h)

theorem isBlank_of_mem_toChars {d : Date} {c : Char} (h : c ∈ d.toChars '/') :
    Text.isBlank c = false := by
  rcases mem_toChars h with h | rfl | rfl | ⟨rfl, _⟩
  · exact Text.isBlank_of_isDigit h
  all_goals rfl

theorem partsDate_of_mem_toChars {d : Date} {c : Char} (h : c ∈ d.toChars '/') :
    partsDate c = false := by
  rcases mem_toChars h with h | rfl | rfl | ⟨rfl, _⟩
  · have hc := Text.toNat_of_isDigit h
    rw [Bool.eq_false_iff]
    intro hparts
    simp only [partsDate, Bool.or_eq_true, decide_eq_true_eq] at hparts
    rcases hparts with rfl | rfl
    · exact absurd hc.1 (by decide)
    · exact absurd hc.2 (by decide)
  all_goals rfl

theorem mem_time {t : Time} {c : Char} (h : c ∈ t.toChars) : c.isDigit ∨ c = ':' := by
  simp only [Time.toChars, List.mem_append, List.mem_cons] at h
  rcases h with (h | h | h) | h | h
  · exact .inl (Text.isDigit_of_mem_padded h)
  · exact .inr h
  · exact .inl (Text.isDigit_of_mem_padded h)
  · exact .inr h
  · exact .inl (Text.isDigit_of_mem_padded h)

theorem isBlank_of_mem_time {t : Time} {c : Char} (h : c ∈ t.toChars) : Text.isBlank c = false := by
  rcases mem_time h with h | rfl
  · exact Text.isBlank_of_isDigit h
  · rfl

theorem toChars_ne_nil (d : Date) : d.toChars '/' ≠ [] := by simp [Date.toChars]

/-! ## Where the date ends -/

/-- Every `-` as the mark of a date. -/
def slashes (cs : List Char) : List Char := cs.map fun c => if c = '-' then '/' else c

theorem not_mem_slashes (cs : List Char) : '-' ∉ slashes cs := by
  rw [slashes, List.mem_map]
  rintro ⟨c, _, h⟩
  split at h
  · cases h
  · contradiction

theorem fst_splitDateTime (cs : List Char) :
    (splitDateTime cs).1 = slashes ((Text.trim cs).takeWhile (!partsDate ·)) := by
  unfold splitDateTime
  dsimp only
  split <;> rfl

section
variable {date : List Char} (hparts : ∀ c ∈ date, partsDate c = false)
include hparts

theorem takeWhile_dropWhile_date {rest : List Char} (hrest : ∀ c ∈ rest.head?, partsDate c = true) :
    (date ++ rest).takeWhile (!partsDate ·) = date ∧
      (date ++ rest).dropWhile (!partsDate ·) = rest := by
  have hdate : ∀ c ∈ date, (!partsDate c) = true := fun c hc => by rw [hparts c hc, Bool.not_false]
  have hstop : ∀ c ∈ rest.head?, (!partsDate c) = false := fun c hc => by rw [hrest c hc, Bool.not_true]
  exact ⟨Text.takeWhile_append_of_head? hdate hstop, Text.dropWhile_append_of_head? hdate hstop⟩

/-- A text with nothing that parts a date from a time is a date, blanks around it aside. -/
theorem splitDateTime_of_bare {cs : List Char} (htrim : Text.trim cs = date) :
    splitDateTime cs = (slashes date, none) := by
  obtain ⟨htake, hdrop⟩ := takeWhile_dropWhile_date hparts (by simp : ∀ c ∈ [].head?, partsDate c = true)
  rw [List.append_nil] at htake hdrop
  unfold splitDateTime
  simp only [htrim, htake, hdrop]
  rfl

/-- A date and a time, with a blank or a `T` between them and blanks around both. -/
theorem splitDateTime_of_parted {cs time : List Char} {mark : Char} (hmark : partsDate mark = true)
    (htrim : Text.trim cs = date ++ mark :: time) :
    splitDateTime cs = (slashes date, some (Text.trim time)) := by
  have hhead : ∀ c ∈ (mark :: time).head?, partsDate c = true := by
    rintro c ⟨⟩
    exact hmark
  obtain ⟨htake, hdrop⟩ := takeWhile_dropWhile_date hparts hhead
  unfold splitDateTime
  simp only [htrim, htake, hdrop]
  rfl

theorem splitDateTime_bare (hblank : ∀ c ∈ date, Text.isBlank c = false) :
    splitDateTime date = (slashes date, none) :=
  splitDateTime_of_bare hparts (Text.trim_of_all hblank)

theorem splitDateTime_parted {time : List Char} {mark : Char} (hmark : partsDate mark = true)
    (hblank : ∀ c ∈ date, Text.isBlank c = false) (hdate : date ≠ []) (hne : time ≠ [])
    (htime : ∀ c ∈ time, Text.isBlank c = false) :
    splitDateTime (date ++ mark :: time) = (slashes date, some time) := by
  have htrim : Text.trim (date ++ mark :: time) = date ++ mark :: time := by
    refine Text.trim_eq_self (fun c hc => hblank c ?_) fun c hc => htime c ?_
    · obtain ⟨d, cs, rfl⟩ := List.exists_cons_of_ne_nil hdate
      cases hc
      exact List.mem_cons_self
    · rw [List.getLast?_append, List.getLast?_cons, List.getLast?_eq_some_getLast hne] at hc
      cases hc
      exact List.getLast_mem hne
  rw [splitDateTime_of_parted hparts hmark htrim, Text.trim_of_all htime]

end

theorem splitDateTime_date (d : Date) :
    splitDateTime (d.toChars '/') = (slashes (d.toChars '/'), none) :=
  splitDateTime_bare (fun _ => partsDate_of_mem_toChars) fun _ => isBlank_of_mem_toChars

theorem splitDateTime_dateTime (d : Date) {time : List Char} (hne : time ≠ [])
    (htime : ∀ c ∈ time, Text.isBlank c = false) :
    splitDateTime (d.toChars '/' ++ ' ' :: time) = (slashes (d.toChars '/'), some time) :=
  splitDateTime_parted (fun _ => partsDate_of_mem_toChars) rfl (fun _ => isBlank_of_mem_toChars)
    (toChars_ne_nil d) hne htime

theorem slashes_of_nonneg {d : Date} (hy : 0 ≤ d.year) : slashes (d.toChars '/') = d.toChars '/' := by
  rw [slashes, List.map_congr_left (g := id), List.map_id]
  intro c hc
  rcases mem_toChars hc with h | rfl | rfl | ⟨rfl, hneg⟩
  · have hne : c ≠ '-' := by
      rintro rfl
      cases h
    simp [hne]
  · rfl
  · rfl
  · omega

theorem slashes_of_neg {d : Date} (hy : d.year < 0) :
    ∃ cs, slashes (d.toChars '/') = '/' :: cs := by
  rw [slashes, Date.toChars, yearText, if_pos hy]
  exact ⟨_, rfl⟩

/-! ## Reading -/

theorem date?_eq (d : Date) (r : Reading) (hy : r.year = d.year) (hm : r.month = d.month)
    (hd : r.day = d.day) : r.date? = some d := by
  rw [Reading.date?, Date.ofYmd?, hy, hm, hd, dif_pos d.isDate]

theorem readDateTime?_congr {s s' : String} (h : splitDateTime s.toList = splitDateTime s'.toList) :
    readDateTime? s = readDateTime? s' := by
  unfold readDateTime?
  rw [h]

/-- A date reads back from its storage form, unless its year is below zero. -/
theorem readDate?_slashed (d : Date) : readDate? d.slashed = if 0 ≤ d.year then some d else none := by
  rw [readDate?, Date.slashed, String.toList_ofList, splitDateTime_date]
  dsimp only
  by_cases hy : 0 ≤ d.year
  · have hscan := Layout.scanFrom?_date d [] {} []
    rw [List.append_nil, List.append_nil] at hscan
    rw [if_pos hy, slashes_of_nonneg hy, Layout.scan?, hscan]
    exact date?_eq d _ rfl rfl rfl
  · obtain ⟨cs, hcs⟩ := slashes_of_neg (by omega : d.year < 0)
    rw [if_neg hy, hcs, Layout.date, Layout.scan?_slash]
    rfl

theorem year_of_date? {r : Reading} {d : Date} (h : r.date? = some d) : d.year = r.year := by
  unfold Reading.date? Date.ofYmd? at h
  split at h <;> cases h
  rfl

/-- A date that was read has no year below zero: its text has lost every minus sign. -/
theorem nonneg_of_readDate? {s : String} {d : Date} (h : readDate? s = some d) : 0 ≤ d.year := by
  obtain ⟨r, hscan, hdate⟩ := Option.bind_eq_some_iff.1 h
  rw [year_of_date? hdate]
  rw [fst_splitDateTime] at hscan
  exact Layout.nonneg_of_scan? (by decide) (not_mem_slashes _) hscan

namespace Time

/-- The time that a clock shows with the same hour, minute and second, and another fraction. -/
def atNano (t : Time) (n : Nat) (hn : n < 1000000000) : Time :=
  ofClock t.hour t.minute t.clockSecond n ⟨t.isClock.1, t.isClock.2.1, t.isClock.2.2.1, hn⟩

/-- A leap second, if there is one, is the last second of its minute. -/
def LeapsLast (t : Time) : Prop := t.nano < 1000000000 ∨ t.second = 59

section
variable {h m s n : Nat} (hc : IsClock h m s n)

theorem clockSecond_ofClock : (ofClock h m s n hc).clockSecond = s := by
  show min s 59 + (s / 60 * 1000000000 + n) / 1000000000 = s
  omega

theorem clockNano_ofClock : (ofClock h m s n hc).clockNano = n := by
  show (s / 60 * 1000000000 + n) % 1000000000 = n
  omega

theorem leapsLast_ofClock : (ofClock h m s n hc).LeapsLast := by
  show s / 60 * 1000000000 + n < 1000000000 ∨ min s 59 = 59
  omega

end

theorem toChars_atNano {t : Time} {n : Nat} (hn : n < 1000000000) :
    (t.atNano n hn).toChars = t.toChars := by
  rw [atNano, toChars, clockSecond_ofClock]
  rfl

theorem ofClock?_clock {t : Time} {n : Nat} (hn : n < 1000000000) :
    ofClock? t.hour t.minute t.clockSecond n = some (t.atNano n hn) :=
  dif_pos ⟨t.isClock.1, t.isClock.2.1, t.isClock.2.2.1, hn⟩

theorem leapsLast_of_ofClock? {t : Time} {h m s n : Nat} (ht : ofClock? h m s n = some t) :
    t.LeapsLast := by
  unfold ofClock? at ht
  split at ht <;> cases ht
  exact leapsLast_ofClock _

/-- A clock tells a time from all others unless it is a leap second within its minute. -/
theorem atNano_eq_self {t : Time} {n : Nat} (hn : n < 1000000000) :
    t.atNano n hn = t ↔ n = t.clockNano ∧ t.LeapsLast := by
  constructor
  · intro h
    rw [← h, atNano, clockNano_ofClock]
    exact ⟨rfl, leapsLast_ofClock _⟩
  · rintro ⟨rfl, hlast⟩
    obtain ⟨h, m, s, nano, hh, hm, hs, hnano⟩ := t
    have hsecond : min (s + nano / 1000000000) 59 = s := by
      unfold LeapsLast at hlast
      dsimp only at hlast
      omega
    have hrest : (s + nano / 1000000000) / 60 * 1000000000 + nano % 1000000000 = nano := by
      unfold LeapsLast at hlast
      dsimp only at hlast
      omega
    simp only [atNano, ofClock, clockSecond, clockNano, hsecond, hrest]

/-- The time without a leap second within its minute that a clock shows alike. -/
def shown (t : Time) : Time := t.atNano t.clockNano t.isClock.2.2.2

theorem shown_eq_self_iff {t : Time} : t.shown = t ↔ t.LeapsLast := by
  rw [shown, atNano_eq_self, eq_self_iff_true, true_and]

end Time

theorem Reading.dateTime?_eq_some_iff {r : Reading} {t : DateTime} :
    r.dateTime? = some t ↔ r.date? = some t.date ∧ r.time? = some t.time := by
  obtain ⟨date, time⟩ := t
  unfold Reading.dateTime?
  cases r.date? <;> cases r.time? <;> simp

/-- A time that was read has no leap second within its minute: no text spells one. -/
theorem leapsLast_of_readDateTime? {s : String} {t : DateTime} (h : readDateTime? s = some t) :
    t.time.LeapsLast := by
  have hscanned {o : Option Reading} (ht : o.bind Reading.dateTime? = some t) : t.time.LeapsLast := by
    obtain ⟨r, _, hr⟩ := Option.bind_eq_some_iff.1 ht
    exact Time.leapsLast_of_ofClock? (Reading.dateTime?_eq_some_iff.1 hr).2
  unfold readDateTime? at h
  split at h
  · exact hscanned h
  · rcases (Option.orElse_eq_some _ _ t).1 h with h | ⟨_, h⟩
    · exact hscanned h
    · exact hscanned h

theorem readDateTime?_written (d : Date) (t : Time) {fraction : List Char} {n : Nat}
    (hn : n < 1000000000) (hread : Layout.fraction? fraction = some (n, []))
    (hfraction : ∀ c ∈ fraction, Text.isBlank c = false) :
    readDateTime? (String.ofList (d.toChars '/' ++ ' ' :: (t.toChars ++ fraction))) =
      if 0 ≤ d.year then some ⟨d, t.atNano n hn⟩ else none := by
  have htime : ∀ c ∈ t.toChars ++ fraction, Text.isBlank c = false := fun c hc =>
    (List.mem_append.1 hc).elim isBlank_of_mem_time (hfraction c)
  have hne : t.toChars ++ fraction ≠ [] := by simp [Time.toChars]
  unfold readDateTime?
  rw [String.toList_ofList, splitDateTime_dateTime d hne htime]
  dsimp only
  by_cases hy : 0 ≤ d.year
  · have hscan : Layout.toFraction.scan? (d.toChars '/' ++ ' ' :: (t.toChars ++ fraction)) =
        some { year := d.year, month := d.month, day := d.day, hour := t.hour, minute := t.minute,
               second := t.clockSecond, nano := n } := by
      have hitems : Layout.toFraction = Layout.date ++ (.blanks :: .hour :: .mark ':' :: .minute ::
          .mark ':' :: .second :: [.fraction]) := rfl
      rw [Layout.scan?, hitems, Layout.scanFrom?_date, Layout.scanFrom?_time]
      simp only [Layout.scanFrom?, Layout.step?, hread, Option.map_some, Option.bind_some]
    have hdate := date?_eq d ⟨d.year, d.month, d.day, t.hour, t.minute, t.clockSecond, n⟩ rfl rfl rfl
    have htime : Reading.time? ⟨d.year, d.month, d.day, t.hour, t.minute, t.clockSecond, n⟩ =
        some (t.atNano n hn) := Time.ofClock?_clock hn
    rw [if_pos hy, slashes_of_nonneg hy, hscan, Option.bind_some, Reading.dateTime?, hdate,
      Option.bind_some, htime]
    rfl
  · obtain ⟨cs, hcs⟩ := slashes_of_neg (by omega : d.year < 0)
    rw [if_neg hy, hcs]
    simp only [Layout.toFraction, Layout.toMinutes, Layout.date, List.cons_append,
      Layout.scan?_slash, Option.bind_none]
    rfl

theorem readDateTime?_toSeconds (t : DateTime) : readDateTime? t.toSeconds =
    if 0 ≤ t.date.year then some ⟨t.date, t.time.atNano 0 (by decide)⟩ else none := by
  have h := readDateTime?_written t.date t.time (by decide : 0 < 1000000000)
    (rfl : Layout.fraction? [] = some (0, [])) (by simp)
  rwa [List.append_nil] at h

theorem nano_cut_lt (t : Time) : t.clockNano / 1000 * 1000 < 1000000000 := by
  have hn := t.isClock.2.2.2
  omega

theorem readDateTime?_toMicros (t : DateTime) : readDateTime? t.toMicros =
    if 0 ≤ t.date.year then
      some ⟨t.date, t.time.atNano (t.time.clockNano / 1000 * 1000) (nano_cut_lt t.time)⟩
    else none := by
  have hn := t.time.isClock.2.2.2
  have hmicros : t.time.clockNano / 1000 < 1000000 := by omega
  have hread := Layout.fraction?_padded (by decide) (by decide : 6 ≤ 9) hmicros
  have hvisible : ∀ c ∈ '.' :: Text.padded 6 (t.time.clockNano / 1000), Text.isBlank c = false := by
    intro c hc
    rcases List.mem_cons.1 hc with rfl | hc
    · rfl
    · exact Text.isBlank_of_isDigit (Text.isDigit_of_mem_padded hc)
  have h := readDateTime?_written t.date t.time (nano_cut_lt t.time) hread hvisible
  rw [← h, DateTime.toMicros]
  simp

end KeyedRows
