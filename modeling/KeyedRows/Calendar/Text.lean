import KeyedRows.Calendar.Layout

/-!
# Dates as text

* `Date.slashed`, `DateTime.toSeconds`, `DateTime.toMicros` : the forms of date, date-time and
  timestamp columns, `Y/M/D`, `Y/M/D H:M:S` and `Y/M/D H:M:S.u`;
* `Date.iso`, `DateTime.iso` : the forms of JSON documents, `Y-M-D` and `Y-M-DTH:M:S.f`;
* `readDate?`, `readDateTime?` : lenient readers of column text;
* `readIsoDate?`, `readIsoDateTime?` : readers of the JSON forms.

A year outside `0` to `9999` is written with its sign, and every year with four digits or more.
-/

namespace KeyedRows

/-! ## Writing -/

def yearText (y : Int) : List Char :=
  (if y < 0 then ['-'] else if 9999 < y then ['+'] else []) ++ Text.padded 4 y.natAbs

def Date.toChars (mark : Char) (d : Date) : List Char :=
  yearText d.year ++ mark :: Text.padded 2 d.month ++ mark :: Text.padded 2 d.day

def Date.slashed (d : Date) : String := String.ofList (d.toChars '/')

def Date.iso (d : Date) : String := String.ofList (d.toChars '-')

/-- Hour, minute and second as a clock shows them. -/
def Time.toChars (t : Time) : List Char :=
  Text.padded 2 t.hour ++ ':' :: Text.padded 2 t.minute ++ ':' :: Text.padded 2 t.clockSecond

/-- The fraction of a second in three, six or nine digits, the fewest that lose nothing. -/
def Time.fractionText (t : Time) : List Char :=
  if t.clockNano = 0 then []
  else if t.clockNano % 1000000 = 0 then '.' :: Text.padded 3 (t.clockNano / 1000000)
  else if t.clockNano % 1000 = 0 then '.' :: Text.padded 6 (t.clockNano / 1000)
  else '.' :: Text.padded 9 t.clockNano

namespace DateTime

def toSeconds (t : DateTime) : String :=
  String.ofList (t.date.toChars '/' ++ ' ' :: t.time.toChars)

def toMicros (t : DateTime) : String :=
  String.ofList
    (t.date.toChars '/' ++ ' ' :: t.time.toChars ++ '.' :: Text.padded 6 (t.time.clockNano / 1000))

def iso (t : DateTime) : String :=
  String.ofList (t.date.toChars '-' ++ 'T' :: t.time.toChars ++ t.time.fractionText)

end DateTime

/-! ## Layouts -/

namespace Layout

def date : Layout := [.year, .mark '/', .month, .mark '/', .day]

def toMinutes : Layout := date ++ [.blanks, .hour, .mark ':', .minute]

def toFraction : Layout := toMinutes ++ [.mark ':', .second, .fraction]

def isoDate : Layout := [.year, .blanks, .mark '-', .month, .blanks, .mark '-', .day, .blanks]

def isoDateTime : Layout :=
  isoDate ++ [.mark 'T', .hour, .blanks, .mark ':', .minute, .blanks, .mark ':', .second, .fraction,
    .blanks]

end Layout

/-! ## Reading -/

/-- Whether a character parts the date from the time. -/
def partsDate (c : Char) : Bool := c = ' ' || c = 'T'

/-- The date of a text with `/` for `-`, and the time after the first blank or `T`, if there is one. -/
def splitDateTime (cs : List Char) : List Char × Option (List Char) :=
  let text := Text.trim cs
  let date := (text.takeWhile (!partsDate ·)).map fun c => if c = '-' then '/' else c
  match text.dropWhile (!partsDate ·) with
  | [] => (date, none)
  | _ :: time => (date, some (Text.trim time))

/-- Reads `Y/M/D` or `Y-M-D`, whatever time follows. -/
def readDate? (s : String) : Option Date :=
  (Layout.date.scan? (splitDateTime s.toList).1).bind Reading.date?

/-- Reads `Y/M/D`, with a time `H:M`, `H:M:S` or `H:M:S.f` or at midnight. -/
def readDateTime? (s : String) : Option DateTime :=
  match splitDateTime s.toList with
  | (date, none) => (Layout.date.scan? date).bind Reading.dateTime?
  | (date, some time) =>
    let text := date ++ ' ' :: time
    ((Layout.toFraction.scan? text).bind Reading.dateTime?) <|>
      ((Layout.toMinutes.scan? text).bind Reading.dateTime?)

def readIsoDate? (s : String) : Option Date :=
  (Layout.isoDate.scan? s.toList).bind Reading.date?

def readIsoDateTime? (s : String) : Option DateTime :=
  (Layout.isoDateTime.scan? s.toList).bind Reading.dateTime?

end KeyedRows
