import KeyedRows.Decimal.Basic
import KeyedRows.Text.Blank

/-!
# Decimals as text

* `render` : the plain notation of a mantissa with a given count of digits after the point;
* `toString`, `toFixed` : a decimal with its own count of digits, or with a fixed one;
* `read?` : the decimal that a text spells, blanks around it aside.

The text has no exponent. Reading takes one optional sign and decimal digits with at most one point
and at least one digit, so `5.` and `.5` are read.
-/

namespace KeyedRows.Decimal

/-- The text of `m / 10 ^ scale`. -/
def render (m : Int) (scale : Nat) : List Char :=
  let digits := Text.padded (scale + 1) m.natAbs
  let whole := digits.length - scale
  (if m < 0 then ['-'] else []) ++
    if scale = 0 then digits else digits.take whole ++ '.' :: digits.drop whole

/-- The canonical text of a decimal. -/
def toChars (d : Decimal) : List Char := render d.mantissa d.scale

instance : ToString Decimal := ⟨fun d => String.ofList d.toChars⟩

/-- The text with exactly `digits` digits after the point; digits beyond them are cut off. -/
def toFixed (d : Decimal) (digits : UInt32) : String :=
  String.ofList (render ((d.truncate digits).mantissaAt digits.toNat) digits.toNat)

def splitPoint (cs : List Char) : List Char × List Char :=
  (cs.takeWhile (· ≠ '.'), (cs.dropWhile (· ≠ '.')).drop 1)

/-- A number without a sign: its digits as one number, and how many stand after the point. -/
def readUnsigned? (cs : List Char) : Option (Nat × Nat) :=
  let (whole, fraction) := splitPoint cs
  (Text.natural? (whole ++ fraction)).map fun n => (n, fraction.length)

/-- The decimal spelled by a text, blanks around it aside. -/
def readChars? (cs : List Char) : Option Decimal :=
  let (negative, unsigned) := Text.splitSign (Text.trim cs)
  (readUnsigned? unsigned).bind fun (n, s) =>
    if h : s < maxScale then some (ofScaled (Text.signed negative n) s (Nat.le_of_lt h))
    else none

def read? (s : String) : Option Decimal := readChars? s.toList

def ArithmeticError.message : ArithmeticError → String
  | .productExponent a b => s!"product exponent {a} + {b} out of range"
  | .divisionByZero d => s!"division of {d} by zero"
  | .quotientScale n => s!"scale {n.toNat} out of range"

end KeyedRows.Decimal
