import TabularSql.Text.CodePoint

/-!
# Blank characters

The characters with the Unicode property `White_Space`, and text without the blanks at its ends.
-/

namespace TabularSql.Text

set_option autoImplicit false

def blankRanges : CodeRanges :=
  [(0x9, 0xD), (0x20, 0x20), (0x85, 0x85), (0xA0, 0xA0), (0x1680, 0x1680), (0x2000, 0x200A),
   (0x2028, 0x2029), (0x202F, 0x202F), (0x205F, 0x205F), (0x3000, 0x3000)]

/-- Characters with the property `White_Space`. -/
def isBlank (char : Char) : Bool :=
  blankRanges.has char

def trimBlanks (chars : List Char) : List Char :=
  ((chars.dropWhile isBlank).reverse.dropWhile isBlank).reverse

end TabularSql.Text
