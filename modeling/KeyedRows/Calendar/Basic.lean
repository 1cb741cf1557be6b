/-!
# Dates and times of day

* `Date` : a day of the proleptic Gregorian calendar, in the years `minYear` to `maxYear`;
* `Time` : a time of day to the nanosecond, leap seconds included;
* `DateTime` : both;
* `Date.ofYmd?`, `Time.ofClock?` : the date or time of given parts, if they name one;
* `Time.clockSecond`, `Time.clockNano` : what a clock shows of a time.

A clock shows the leap second after second 59 as second 60, and any other as the second that follows it.
-/

namespace KeyedRows

def minYear : Int := -262143
def maxYear : Int := 262142

/-- Every fourth year, except for three of four full centuries. -/
def isLeapYear (y : Int) : Bool := y % 4 = 0 && (y % 100 ≠ 0 || y % 400 = 0)

def daysInMonth (y : Int) (m : Nat) : Nat :=
  if m = 2 then if isLeapYear y then 29 else 28
  else if m = 4 ∨ m = 6 ∨ m = 9 ∨ m = 11 then 30
  else 31

abbrev IsDate (y : Int) (m d : Nat) : Prop :=
  (minYear ≤ y ∧ y ≤ maxYear) ∧ (1 ≤ m ∧ m ≤ 12) ∧ (1 ≤ d ∧ d ≤ daysInMonth y m)

structure Date where
  year : Int
  month : Nat
  day : Nat
  isDate : IsDate year month day
deriving DecidableEq

def Date.ofYmd? (y : Int) (m d : Nat) : Option Date :=
  if h : IsDate y m d then some ⟨y, m, d, h⟩ else none

/-- The numbers are those of a time of day. A leap second has a second or more of nanoseconds, and may
stand after any second. -/
abbrev IsTime (h m s n : Nat) : Prop := h < 24 ∧ m < 60 ∧ s < 60 ∧ n < 2000000000

structure Time where
  hour : Nat
  minute : Nat
  second : Nat
  nano : Nat
  isTime : IsTime hour minute second nano
deriving DecidableEq

/-- The numbers are those of a clock, where second 60 is the leap second after second 59. -/
abbrev IsClock (h m s n : Nat) : Prop := h < 24 ∧ m < 60 ∧ s ≤ 60 ∧ n < 1000000000

namespace Time

def ofClock (h m s n : Nat) (hc : IsClock h m s n) : Time where
  hour := h
  minute := m
  second := min s 59
  nano := s / 60 * 1000000000 + n
  isTime := by omega

def ofClock? (h m s n : Nat) : Option Time :=
  if hc : IsClock h m s n then some (ofClock h m s n hc) else none

/-- The second that a clock shows: in a leap second, the one after. -/
def clockSecond (t : Time) : Nat := t.second + t.nano / 1000000000

def clockNano (t : Time) : Nat := t.nano % 1000000000

theorem isClock (t : Time) : IsClock t.hour t.minute t.clockSecond t.clockNano := by
  obtain ⟨hh, hm, hs, hn⟩ := t.isTime
  unfold clockSecond clockNano
  omega

def midnight : Time := ⟨0, 0, 0, 0, by decide⟩

end Time

structure DateTime where
  date : Date
  time : Time
deriving DecidableEq

end KeyedRows
