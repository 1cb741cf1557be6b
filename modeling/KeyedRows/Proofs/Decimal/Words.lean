import KeyedRows.Decimal.Text

/-!
# Decimals in machine words

* `Step` : a step on machine integers, beside the same step on integers without bounds;
* `Traced` : a result with the steps that lead to it;
* `Traced.exponent`, `Traced.count`, `Traced.power`, `Traced.wide` : the steps by what their words stand for, with
  the range that each is to keep to;
* `Words` : a mantissa and a 32-bit exponent, with nothing else known of them;
* `new`, `combine`, `mul`, `div`, `truncate`, `toFixed`, `read` : the operations, with exponents, counts of digits
  and powers of ten in words;
* `Reached` : what any calls of the operations return.

Sums and differences of words wrap round, and a cast keeps the low bits. What holds a step back is a test in
front of it, or a clamp where the shift of a quotient is made a word.
-/

namespace KeyedRows.Decimal

/-! ## Steps -/

/-- A step on machine integers: what the word that it leaves holds, what the step comes to on integers
without bounds, and the least and the largest integer that it may come to. -/
structure Step where
  held : Int
  exact : Int
  low : Int
  high : Int

/-- The step does not wrap: its word holds what it comes to, and that is in the range. -/
structure Step.Exact (s : Step) : Prop where
  held_eq : s.held = s.exact
  low_le : s.low ≤ s.exact
  le_high : s.exact ≤ s.high

instance : DecidablePred Step.Exact := fun s =>
  decidable_of_iff (s.held = s.exact ∧ s.low ≤ s.exact ∧ s.exact ≤ s.high)
    ⟨fun h => ⟨h.1, h.2.1, h.2.2⟩, fun h => ⟨h.held_eq, h.low_le, h.le_high⟩⟩

/-- A result and the steps that lead to it. -/
structure Traced (α : Type) where
  value : α
  steps : List Step

namespace Traced

instance : Monad Traced where
  pure v := ⟨v, []⟩
  bind t f := ⟨(f t.value).value, t.steps ++ (f t.value).steps⟩

/-- A step to an exponent, which is not positive. -/
def exponent (word : Int32) (exact : Int) : Traced Int32 :=
  ⟨word, [⟨word.toInt, exact, -maxScale, 0⟩]⟩

/-- A step to a count of digits with room for a sign. -/
def count (word : Int32) (exact : Int) : Traced Int32 :=
  ⟨word, [⟨word.toInt, exact, 0, Int32.maxValue.toInt⟩]⟩

/-- A step to a power of ten, which is no larger than the gap between two exponents that are not positive. -/
def power (word : UInt32) (exact : Int) : Traced UInt32 :=
  ⟨word, [⟨word.toNat, exact, 0, maxScale⟩]⟩

def wide (word : Int64) (exact : Int) : Traced Int64 :=
  ⟨word, [⟨word.toInt, exact, Int64.minValue.toInt, Int64.maxValue.toInt⟩]⟩

end Traced

structure Words where
  mantissa : Int
  exponent : Int32

def words (d : Decimal) : Words := ⟨d.mantissa, .ofInt d.exponent⟩

namespace Words

/-! ## Lowest terms -/

/-- Below zero an exponent has room for one more. -/
theorem toInt_add_one {e : Int32} (h : e < 0) : (e + 1).toInt = e.toInt + 1 := by
  have hneg : e.toInt < 0 := Int32.lt_iff_toInt_lt.1 h
  have hmin : -2147483648 ≤ e.toInt := e.le_toInt
  have hone : Int32.toInt 1 = 1 := rfl
  rw [Int32.toInt_add, hone]
  exact Int.bmod_eq_of_le (by omega) (by omega)

/-- Takes zeros off the mantissa while the exponent is below zero, one more in the exponent for each. -/
def strip (m : Int) (e : Int32) : Traced Words :=
  if h : e < 0 ∧ m % 10 = 0 then do
    let _ ← Traced.exponent (e + 1) (e.toInt + 1)
    strip (m / 10) (e + 1)
  else return ⟨m, e⟩
termination_by (-e.toInt).toNat
decreasing_by
  have hneg : e.toInt < 0 := Int32.lt_iff_toInt_lt.1 h.1
  have hnext : (e + 1).toInt = e.toInt + 1 := toInt_add_one h.1
  omega

def magnitude (e : Int32) : Traced UInt32 := .power (.ofNat e.toInt.natAbs) e.toInt.natAbs

def normalize (w : Words) : Traced Words :=
  if w.mantissa = 0 then return ⟨0, 0⟩
  else if 0 < w.exponent then do
    let n ← magnitude w.exponent
    strip (w.mantissa * pow10 n) 0
  else strip w.mantissa w.exponent

def new (m : Int) (e : Int32) : Traced Words := normalize ⟨m, e⟩

/-! ## Exact arithmetic -/

def scale (w : Words) : Traced UInt32 := magnitude w.exponent

/-- The mantissa at an exponent that is not above its own: their gap in 64 bits, cast to 32. -/
def mantissaAt (w : Words) (e : Int32) : Traced Int := do
  let gap ← Traced.wide (w.exponent.toInt64 - e.toInt64) (w.exponent.toInt - e.toInt)
  let gap ← Traced.power (.ofInt gap.toInt) gap.toInt
  return w.mantissa * pow10 gap

/-- Mantissas combined at the smaller one of their exponents. -/
def combine (op : Int → Int → Int) (w v : Words) : Traced Words := do
  let e ← Traced.exponent (min w.exponent v.exponent) (min w.exponent.toInt v.exponent.toInt)
  let m ← w.mantissaAt e
  let n ← v.mantissaAt e
  new (op m n) e

def add (w v : Words) : Traced Words := w.combine (· + ·) v

def sub (w v : Words) : Traced Words := w.combine (· - ·) v

def order (w v : Words) : Traced Ordering := do
  let d ← w.sub v
  return compare d.mantissa 0

def neg (w : Words) : Words := ⟨-w.mantissa, w.exponent⟩

def abs (w : Words) : Words := if w.mantissa < 0 then w.neg else w

/-! ## Arithmetic that may fail -/

def mul (w v : Words) : Traced (Option Words) :=
  if Int32.minValue.toInt ≤ w.exponent.toInt + v.exponent.toInt ∧
      w.exponent.toInt + v.exponent.toInt ≤ Int32.maxValue.toInt then do
    let e ← Traced.exponent (w.exponent + v.exponent) (w.exponent.toInt + v.exponent.toInt)
    let d ← new (w.mantissa * v.mantissa) e
    return some d
  else return none

/-- The exponent that keeps a count of digits: the count cast to a word with a sign, and negated. -/
def exponentOf (digits : Nat) : Traced Int32 := do
  let count ← Traced.count (.ofNat digits) digits
  Traced.exponent (-count) (-count.toInt)

/-- The words of a mantissa with so many digits after the point, unless they are more than an exponent
can tell. -/
def ofDigits (m : Int) (digits : Nat) : Traced (Option Words) :=
  if (digits : Int) ≤ Int32.maxValue.toInt then do
    let e ← exponentOf digits
    let d ← new m e
    return some d
  else return none

/-- The power of ten between two mantissas and a quotient of so many digits, in 64 bits. -/
def shift (w v : Words) (digits : UInt32) : Traced Int64 := do
  let gap ← Traced.wide (w.exponent.toInt64 - v.exponent.toInt64) (w.exponent.toInt - v.exponent.toInt)
  Traced.wide (gap + .ofNat digits.toNat) (gap.toInt + digits.toNat)

/-- The quotient of the mantissas, the one or the other at the power of ten between them. A power beyond
its word is clamped. -/
def quotient (w v : Words) (digits : UInt32) : Traced Int := do
  let shift ← w.shift v digits
  if 0 ≤ shift then
    return (w.mantissa * pow10 (.ofNatClamp shift.toInt.toNat)).tdiv v.mantissa
  else do
    let back ← Traced.wide (-shift) (-shift.toInt)
    return w.mantissa.tdiv (v.mantissa * pow10 (.ofNatClamp back.toInt.toNat))

def div (w v : Words) (digits : Option UInt32) : Traced (Option Words) :=
  if v.mantissa = 0 then return none
  else do
    let digits ← digits.elim w.scale pure
    let m ← w.quotient v digits
    ofDigits m digits.toNat

/-! ## Fewer digits -/

def truncate (w : Words) (digits : UInt32) : Traced Words := do
  let scale ← w.scale
  if scale ≤ digits then return w
  else do
    let dropped ← Traced.power (scale - digits) (scale.toNat - digits.toNat)
    let e ← exponentOf digits.toNat
    new (w.mantissa.tdiv (pow10 dropped)) e

def toFixed (w : Words) (digits : UInt32) : Traced String := do
  let cut ← w.truncate digits
  let e ← exponentOf digits.toNat
  let m ← cut.mantissaAt e
  return String.ofList (render m digits.toNat)

/-! ## Reading -/

def read (s : String) : Traced (Option Words) :=
  let (negative, unsigned) := Text.splitSign (Text.trim s.toList)
  match readUnsigned? unsigned with
  | none => return none
  | some (n, digits) => ofDigits (Text.signed negative n) digits

/-! ## Any calls -/

/-- What calls of the operations return, one after another. -/
inductive Reached : Words → Prop
  | zero : Reached ⟨0, 0⟩
  | made (m : Int) (e : Int32) : Reached (new m e).value
  | read {s : String} {w : Words} (h : (read s).value = some w) : Reached w
  | sum {w v : Words} (hw : Reached w) (hv : Reached v) : Reached (w.add v).value
  | difference {w v : Words} (hw : Reached w) (hv : Reached v) : Reached (w.sub v).value
  | negation {w : Words} (hw : Reached w) : Reached w.neg
  | absolute {w : Words} (hw : Reached w) : Reached w.abs
  | product {w v u : Words} (hw : Reached w) (hv : Reached v) (h : (w.mul v).value = some u) : Reached u
  | quotient {w v u : Words} {digits : Option UInt32} (hw : Reached w) (hv : Reached v)
      (h : (w.div v digits).value = some u) : Reached u
  | truncated {w : Words} (hw : Reached w) (digits : UInt32) : Reached (w.truncate digits).value
  | normalized {w : Words} (hw : Reached w) : Reached w.normalize.value

end Words
end KeyedRows.Decimal
