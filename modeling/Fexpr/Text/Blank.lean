/-!
# Blanks

The white space characters, and the two operations on a line that look at them: `trim` takes them
off both ends, and `firstWord` stops at the first one.
-/

namespace Fexpr.Text

/-- The white space characters: tab to carriage return, the four information separators, the
space, next line, the no-break space, and the Unicode space, line and paragraph separators. -/
def isBlank (c : Char) : Bool :=
  let n := c.toNat
  (9 ≤ n && n ≤ 13) || (28 ≤ n && n ≤ 32) || n == 0x85 || n == 0xA0 || n == 0x1680
    || (0x2000 ≤ n && n ≤ 0x200A) || n == 0x2028 || n == 0x2029 || n == 0x202F
    || n == 0x205F || n == 0x3000

/-- The text without the blanks at its two ends. -/
def trim (cs : List Char) : List Char :=
  ((cs.dropWhile isBlank).reverse.dropWhile isBlank).reverse

/-- The text up to its first blank. -/
def firstWord (cs : List Char) : List Char :=
  cs.takeWhile (!isBlank ·)

end Fexpr.Text
