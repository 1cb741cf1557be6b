import KeyedRows.Decimal.Text

/-!
# Binary floating point, read exactly

* `Binary64` : what the 64 bits of a `Float` stand for;
* `shortest` : the fewest decimal digits that read back as the same number;
* `toText` : those digits in plain notation, never with an exponent;
* `isZero`, `toInt64?` : zero of either sign, and the whole numbers below `2 ^ 53`.

Everything is computed from the bits in whole-number arithmetic.
-/

namespace KeyedRows

/-- The number that 64 bits stand for; a finite one is `±m * 2 ^ q`. -/
inductive Binary64 where
  | nan
  | infinite (negative : Bool)
  | finite (negative : Bool) (m : Nat) (q : Int)
deriving DecidableEq

namespace Binary64

/-- Reads the sign bit, the eleven bits of the exponent and the fraction. -/
def ofBits (bits : UInt64) : Binary64 :=
  let n := bits.toNat
  let negative := decide (Nat.pow 2 63 ≤ n)
  let exponent : Nat := n / Nat.pow 2 52 % Nat.pow 2 11
  let fraction : Nat := n % Nat.pow 2 52
  if exponent = Nat.pow 2 11 - 1 then if fraction = 0 then .infinite negative else .nan
  else if exponent = 0 then .finite negative fraction (-1074)
  else .finite negative (Nat.pow 2 52 + fraction) (exponent - 1075)

def ofFloat (x : Float) : Binary64 := ofBits x.toBits

/-! ## Shortest digits

With `u = 2 ^ (q - 2)` the number is `4 m u`. The reals that round to it reach up to
`(4 m + 2) u` and down to `(4 m - 2) u`, or to `(4 m - 1) u` where the numbers below lie twice as
dense; the two ends belong to them when `m` is even. -/

/-- `n * 2 ^ q * 10 ^ -k` as a numerator and a denominator. -/
def scaled (n : Nat) (q k : Int) : Nat × Nat :=
  (n * Nat.pow 2 q.toNat * Nat.pow 10 (-k).toNat, Nat.pow 2 (-q).toNat * Nat.pow 10 k.toNat)

/-- The multiples of `10 ^ k` next to `m * 2 ^ q`, as far as they read back; of two the nearer one,
or the upper one if they are equally near. -/
def onGrid? (m : Nat) (q k : Int) : Option Nat :=
  let (low, den) := scaled (if m = Nat.pow 2 52 ∧ -1074 < q then 4 * m - 1 else 4 * m - 2) (q - 2) k
  let (mid, _) := scaled (4 * m) (q - 2) k
  let (high, _) := scaled (4 * m + 2) (q - 2) k
  let reads (d : Nat) : Bool :=
    if m % 2 = 0 then low ≤ d * den && d * den ≤ high else low < d * den && d * den < high
  let down := mid / den
  let up := down + 1
  if reads down then
    if reads up && up * den - mid ≤ mid - down * den then some up else some down
  else if reads up then some up
  else none

/-- Tries finer and finer grids; the first one with a number that reads back has the fewest digits. -/
def search (m : Nat) (q : Int) : Nat → Int → Nat × Int
  | 0, k => (0, k)
  | fuel + 1, k => match onGrid? m q k with
    | some d => (d, k)
    | none => search m q fuel (k - 1)

/-- A power of ten not below `m * 2 ^ q`, by its exponent. -/
def startExponent (m : Nat) (q : Int) : Int := (m.log2 + 1 + q) * 30103 / 100000 + 1

/-- The digits `d` and the exponent `k` of the shortest decimal `d * 10 ^ k` that reads back as
`m * 2 ^ q`. Seventeen digits always suffice, so twenty grids are enough. -/
def shortest (m : Nat) (q : Int) : Nat × Int := search m q 20 (startExponent m q)

/-! ## Text and whole numbers -/

def toText : Binary64 → String
  | .nan => "NaN"
  | .infinite negative => if negative then "-inf" else "inf"
  | .finite negative m q =>
    let sign := if negative then ['-'] else []
    if m = 0 then String.ofList (sign ++ ['0'])
    else
      let (d, k) := shortest m q
      String.ofList (sign ++ Decimal.render (d * Nat.pow 10 k.toNat) (-k).toNat)

def isZero : Binary64 → Bool
  | .finite _ 0 _ => true
  | _ => false

/-- The whole number below `2 ^ 53` in size that this is, if it is one. -/
def toInt64? : Binary64 → Option Int64
  | .finite negative m q =>
    let num := m * Nat.pow 2 q.toNat
    let den := Nat.pow 2 (-q).toNat
    if num % den = 0 ∧ num / den < Nat.pow 2 53 then int64? (Text.signed negative (num / den : Nat))
    else none
  | _ => none

end Binary64
end KeyedRows
