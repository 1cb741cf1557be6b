/-!
# Whole numbers as text

* `padded` : the digits of a number, at least a given count of them;
* `splitSign` : a leading sign and the text after it;
* `natural?` : the number that a text of digits spells;
* `integer?` : a plain integer within 64 bits.
-/

namespace KeyedRows

/-- The 64-bit integer of value `n`, if there is one. -/
def int64? (n : Int) : Option Int64 :=
  if Int64.minValue.toInt ≤ n ∧ n ≤ Int64.maxValue.toInt then some (Int64.ofInt n) else none

theorem toInt_of_int64? {n : Int} {i : Int64} (h : int64? n = some i) : i.toInt = n := by
  unfold int64? at h
  split at h
  · next hn =>
    cases h
    rw [Int64.toInt_minValue, Int64.toInt_maxValue] at hn
    exact Int64.toInt_ofInt_of_le hn.1 (by omega)
  · cases h

theorem int64?_toInt (i : Int64) : int64? i.toInt = some i := by
  simp only [int64?, if_pos (And.intro i.minValue_le_toInt i.toInt_le), Int64.ofInt_toInt]

namespace Text

/-- The decimal digits of `n`, with zeros in front up to `width` digits. -/
def padded (width n : Nat) : List Char :=
  List.replicate (width - (Nat.toDigits 10 n).length) '0' ++ Nat.toDigits 10 n

/-- Whether a minus sign leads the text, and the text after its one optional sign. -/
def splitSign : List Char → Bool × List Char
  | '-' :: cs => (true, cs)
  | '+' :: cs => (false, cs)
  | cs => (false, cs)

def signed (negative : Bool) (n : Nat) : Int := if negative then -n else n

/-- The number spelled by one or more decimal digits. -/
def natural? (cs : List Char) : Option Nat :=
  if cs ≠ [] ∧ cs.all Char.isDigit then some (Nat.ofDigitChars 10 cs 0) else none

/-- An optional sign and digits, for a number within 64 bits. -/
def integer? (cs : List Char) : Option Int64 :=
  (natural? (splitSign cs).2).bind fun n => int64? (signed (splitSign cs).1 n)

end Text
end KeyedRows
