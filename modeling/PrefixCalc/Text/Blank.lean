import PrefixCalc.Text.CharRange

/-!
# Blank characters and trimming

A character is blank when it has the Unicode property `White_Space`.  This is wider than the
blanks of ASCII (it holds the no-break space and the line separators) and says nothing about width:
the zero-width space is not blank.  `trim` removes the blank characters at both ends of a text and
leaves those inside alone.
-/

namespace PrefixCalc
namespace Text

/-- The ranges of the property `White_Space`: 25 characters. -/
def blankRanges : List (Nat × Nat) :=
  [(0x9, 0xD), (0x20, 0x20), (0x85, 0x85), (0xA0, 0xA0), (0x1680, 0x1680), (0x2000, 0x200A),
   (0x2028, 0x2029), (0x202F, 0x202F), (0x205F, 0x205F), (0x3000, 0x3000)]

/-- Whether a character separates tokens without being part of one. -/
def isBlank (c : Char) : Bool :=
  inRanges blankRanges c.toNat

/-- The text without the blanks at its start. -/
def trimStart (text : List Char) : List Char :=
  text.dropWhile isBlank

/-- The text without the blanks at its end. -/
def trimEnd (text : List Char) : List Char :=
  (text.reverse.dropWhile isBlank).reverse

/-- The text without the blanks at either end. -/
def trim (text : List Char) : List Char :=
  trimEnd (trimStart text)

end Text
end PrefixCalc
