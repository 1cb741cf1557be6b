import KeyedRows.Calendar.Basic
import KeyedRows.Text.Blank
import KeyedRows.Text.Number

/-!
# Reading dates by a layout

* `Layout` : a list of the parts that a text is made of, in order;
* `Layout.scan?` : the numbers that a text gives for a layout, if all of it fits;
* `Reading.date?`, `Reading.dateTime?` : what those numbers name.

Blanks may stand before each number. The year has at most four digits unless it has a sign; every
other number has one or two.
-/

namespace KeyedRows

inductive LayoutItem where
  | year | month | day | hour | minute | second
  /-- An optional point and at least one digit; nine digits count. -/
  | fraction
  /-- Any blanks, or none. -/
  | blanks
  | mark (c : Char)
deriving DecidableEq

abbrev Layout := List LayoutItem

structure Reading where
  year : Int := 0
  month : Nat := 0
  day : Nat := 0
  hour : Nat := 0
  minute : Nat := 0
  second : Nat := 0
  nano : Nat := 0
deriving DecidableEq

namespace Reading

def date? (r : Reading) : Option Date := Date.ofYmd? r.year r.month r.day

def time? (r : Reading) : Option Time := Time.ofClock? r.hour r.minute r.second r.nano

def dateTime? (r : Reading) : Option DateTime :=
  r.date?.bind fun d => r.time?.map fun t => ⟨d, t⟩

end Reading

namespace Layout

/-- One to `width` digits at the start of a text. -/
def number? (width : Nat) (cs : List Char) : Option (Nat × List Char) :=
  let digits := (cs.take width).takeWhile Char.isDigit
  (Text.natural? digits).map fun n => (n, cs.drop digits.length)

/-- A year: after a sign, any count of digits. -/
def year? : List Char → Option (Int × List Char)
  | '-' :: cs => (number? cs.length cs).map fun (n, rest) => (-n, rest)
  | '+' :: cs => (number? cs.length cs).map fun (n, rest) => (n, rest)
  | cs => (number? 4 cs).map fun (n, rest) => (n, rest)

/-- A fraction of a second in nanoseconds; nothing without a point. -/
def fraction? : List Char → Option (Nat × List Char)
  | '.' :: cs =>
    let digits := cs.takeWhile Char.isDigit
    let counted := digits.take 9
    (Text.natural? counted).map fun n => (n * Nat.pow 10 (9 - counted.length), cs.drop digits.length)
  | cs => some (0, cs)

def step? (item : LayoutItem) (r : Reading) (cs : List Char) : Option (Reading × List Char) :=
  let part (width : Nat) := number? width (Text.trimStart cs)
  match item with
  | .year => (year? (Text.trimStart cs)).map fun (y, rest) => ({ r with year := y }, rest)
  | .month => (part 2).map fun (n, rest) => ({ r with month := n }, rest)
  | .day => (part 2).map fun (n, rest) => ({ r with day := n }, rest)
  | .hour => (part 2).map fun (n, rest) => ({ r with hour := n }, rest)
  | .minute => (part 2).map fun (n, rest) => ({ r with minute := n }, rest)
  | .second => (part 2).map fun (n, rest) => ({ r with second := n }, rest)
  | .fraction => (fraction? cs).map fun (n, rest) => ({ r with nano := n }, rest)
  | .blanks => some (r, Text.trimStart cs)
  | .mark c => match cs with
    | [] => none
    | d :: rest => if d = c then some (r, rest) else none

/-- The numbers of a text that fits the layout to its end. -/
def scanFrom? : Layout → Reading → List Char → Option Reading
  | [], r, [] => some r
  | [], _, _ :: _ => none
  | item :: items, r, cs => (step? item r cs).bind fun (r', rest) => scanFrom? items r' rest

def scan? (layout : Layout) (cs : List Char) : Option Reading := scanFrom? layout {} cs

end Layout
end KeyedRows
