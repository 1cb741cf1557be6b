/-!
# Blank characters

* `isBlank` : the characters of the Unicode property White_Space;
* `trimStart`, `trim` : text without the blanks at its start, or at both ends.

Text is taken as a list of characters, so readers built on these functions recurse on it.
-/

namespace KeyedRows.Text

/-- A character of the Unicode property White_Space. -/
def isBlank (c : Char) : Bool :=
  let n := c.toNat
  (9 ≤ n && n ≤ 13) || n == 0x20 || n == 0x85 || n == 0xA0 || n == 0x1680 ||
    (0x2000 ≤ n && n ≤ 0x200A) || n == 0x2028 || n == 0x2029 || n == 0x202F || n == 0x205F ||
    n == 0x3000

def trimStart (cs : List Char) : List Char := cs.dropWhile isBlank

def trim (cs : List Char) : List Char := (trimStart (trimStart cs).reverse).reverse

end KeyedRows.Text
