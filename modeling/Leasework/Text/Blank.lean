/-!
# `Leasework.Text.Blank`: white space at the ends of a text

A text is blank when it holds white space alone. White space is the Unicode
property, not the ASCII set: a no-break space and an ideographic space count, a
zero-width space does not.
-/

set_option autoImplicit false

namespace Leasework.Text

/-- The characters with the Unicode property `White_Space`. -/
def isBlank (c : Char) : Bool :=
  let n := c.toNat
  (0x09 ≤ n && n ≤ 0x0D) || n = 0x20 || n = 0x85 || n = 0xA0 || n = 0x1680
    || (0x2000 ≤ n && n ≤ 0x200A) || n = 0x2028 || n = 0x2029 || n = 0x202F
    || n = 0x205F || n = 0x3000

/-- White space and nothing else, or nothing at all. -/
def allBlank (s : String) : Bool := s.toList.all isBlank

/-- The characters between the first and the last that are not white space. -/
def trimList (cs : List Char) : List Char :=
  ((cs.dropWhile isBlank).reverse.dropWhile isBlank).reverse

/-- The text without the white space at its ends. -/
def trim (s : String) : String := String.ofList (trimList s.toList)

end Leasework.Text
