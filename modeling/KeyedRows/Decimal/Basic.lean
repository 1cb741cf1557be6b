import KeyedRows.Text.Number

/-!
# Exact decimals

* `Decimal` : `mantissa / 10 ^ scale`, kept in lowest terms;
* `Decimal.ofScaled`, `Decimal.ofMantissa` : the decimal of a mantissa and a scale or an exponent;
* `add`, `sub`, `neg`, `abs`, `compare` : exact, on any two decimals;
* `mul?`, `div?` : product and truncated quotient, or the `ArithmeticError` that stops them;
* `truncate`, `toInt64?` : fewer digits after the point, or none.

A scale is at most `2 ^ 31`. Where two scales are brought together the gap between them is held in
a 32-bit word.
-/

namespace KeyedRows

/-- The largest scale: the exponent of a decimal is a signed 32-bit integer that is not positive. -/
def maxScale : Nat := 2147483648

/-- An exact decimal `mantissa / 10 ^ scale`, with no trailing zero after the point. -/
structure Decimal where
  mantissa : Int
  scale : Nat
  scale_le : scale ≤ maxScale
  reduced : scale = 0 ∨ mantissa % 10 ≠ 0
deriving DecidableEq

namespace Decimal

/-! ## Lowest terms -/

/-- Takes trailing zeros off the mantissa while digits after the point are left. -/
def strip : Int → Nat → Int × Nat
  | m, 0 => (m, 0)
  | m, s + 1 => if m % 10 = 0 then strip (m / 10) s else (m, s + 1)

theorem strip_snd_le (m : Int) (s : Nat) : (strip m s).2 ≤ s := by
  fun_induction strip m s <;> omega

theorem strip_reduced (m : Int) (s : Nat) : (strip m s).2 = 0 ∨ (strip m s).1 % 10 ≠ 0 := by
  fun_induction strip m s <;> simp_all

instance : Zero Decimal := ⟨⟨0, 0, Nat.zero_le _, .inl rfl⟩⟩

/-- The decimal `m / 10 ^ s`. -/
def ofScaled (m : Int) (s : Nat) (h : s ≤ maxScale) : Decimal :=
  if m = 0 then 0
  else ⟨(strip m s).1, (strip m s).2, Nat.le_trans (strip_snd_le m s) h, strip_reduced m s⟩

theorem neg_toNat_toInt_le (e : Int32) : (-e.toInt).toNat ≤ maxScale := by
  have := e.le_toInt
  simp only [maxScale]
  omega

/-- The decimal `m * 10 ^ e`. -/
def ofMantissa (m : Int) (e : Int32) : Decimal :=
  if m = 0 then 0
  else if 0 < e.toInt then ofScaled (m * Int.pow 10 e.toInt.toNat) 0 (Nat.zero_le _)
  else ofScaled m (-e.toInt).toNat (neg_toNat_toInt_le e)

def ofInt64 (i : Int64) : Decimal := ofMantissa i.toInt 0

/-- The same decimal, brought to lowest terms once more. -/
def normalize (d : Decimal) : Decimal := ofScaled d.mantissa d.scale d.scale_le

/-! ## Reading a decimal -/

/-- The power of ten that multiplies the mantissa; never positive. -/
def exponent (d : Decimal) : Int := -d.scale

def isZero (d : Decimal) : Bool := d.mantissa = 0

def isInteger (d : Decimal) : Bool := d.scale = 0

/-- The 64-bit integer of the same value, if there is one. -/
def toInt64? (d : Decimal) : Option Int64 := if d.isInteger then int64? d.mantissa else none

/-! ## Exact arithmetic -/

/-- Ten to a power held in a 32-bit word. -/
def pow10 (n : UInt32) : Int := Int.pow 10 n.toNat

/-- The mantissa at a scale that is not below the decimal's own. -/
def mantissaAt (d : Decimal) (s : Nat) : Int := d.mantissa * pow10 (UInt32.ofInt (s - d.scale))

theorem max_scale_le (a b : Decimal) : max a.scale b.scale ≤ maxScale :=
  Nat.max_le.2 ⟨a.scale_le, b.scale_le⟩

def add (a b : Decimal) : Decimal :=
  ofScaled (a.mantissaAt (max a.scale b.scale) + b.mantissaAt (max a.scale b.scale)) _
    (max_scale_le a b)

def sub (a b : Decimal) : Decimal :=
  ofScaled (a.mantissaAt (max a.scale b.scale) - b.mantissaAt (max a.scale b.scale)) _
    (max_scale_le a b)

def neg (a : Decimal) : Decimal :=
  ⟨-a.mantissa, a.scale, a.scale_le, a.reduced.imp id fun h => by omega⟩

def abs (a : Decimal) : Decimal := if a.mantissa < 0 then a.neg else a

instance : Add Decimal := ⟨add⟩
instance : Sub Decimal := ⟨sub⟩
instance : Neg Decimal := ⟨neg⟩

/-- Decimals are ordered by the sign of their difference. -/
instance : Ord Decimal := ⟨fun a b => compare (a - b).mantissa 0⟩

/-! ## Arithmetic that may fail -/

inductive ArithmeticError where
  /-- The exponents of two factors add up to less than a 32-bit integer holds. -/
  | productExponent (left right : Int)
  | divisionByZero (dividend : Decimal)
  /-- More digits after the point than a decimal may keep. -/
  | quotientScale (digits : UInt32)
deriving DecidableEq

def mul? (a b : Decimal) : Except ArithmeticError Decimal :=
  if h : a.scale + b.scale ≤ maxScale then .ok (ofScaled (a.mantissa * b.mantissa) _ h)
  else .error (.productExponent a.exponent b.exponent)

/-- The quotient cut off after the given count of digits, by default as many as the dividend has. -/
def div? (a b : Decimal) (digits : Option UInt32) : Except ArithmeticError Decimal :=
  if b.isZero then .error (.divisionByZero a)
  else
    let digits := digits.getD (UInt32.ofNat a.scale)
    let shift : Int := a.exponent - b.exponent + digits.toNat
    if h : digits.toNat < maxScale then
      .ok <|
        if 0 ≤ shift then
          ofScaled ((a.mantissa * pow10 (.ofNatClamp shift.toNat)).tdiv b.mantissa)
            digits.toNat (Nat.le_of_lt h)
        else
          ofScaled (a.mantissa.tdiv (b.mantissa * pow10 (.ofNatClamp (-shift).toNat)))
            digits.toNat (Nat.le_of_lt h)
    else .error (.quotientScale digits)

/-- The decimal without its digits beyond the first `digits` after the point. -/
def truncate (d : Decimal) (digits : UInt32) : Decimal :=
  if h : d.scale ≤ digits.toNat then d
  else
    ofScaled (d.mantissa.tdiv (Int.pow 10 (d.scale - digits.toNat))) digits.toNat
      (Nat.le_trans (Nat.le_of_not_le h) d.scale_le)

end Decimal
end KeyedRows
