/-!
# Blank characters

The characters that separate words of text: the ASCII controls from tab to carriage
return and from file separator to unit separator, the space, next line, the no-break
space, and the Unicode space separators, line separator and paragraph separator.
This is the class that trimming, splitting on blanks and the blank pattern of the
script language all use.
-/

namespace ShapeGrammar

namespace Text

/-- A blank character. -/
def isBlank (c : Char) : Bool :=
  let n := c.toNat
  (9 ≤ n && n ≤ 13) || (28 ≤ n && n ≤ 32) || n == 0x85 || n == 0xA0 || n == 0x1680
    || (0x2000 ≤ n && n ≤ 0x200A) || n == 0x2028 || n == 0x2029 || n == 0x202F
    || n == 0x205F || n == 0x3000

/-- The characters with blanks removed from both ends. -/
def trimList (cs : List Char) : List Char :=
  ((cs.dropWhile isBlank).reverse.dropWhile isBlank).reverse

/-- The text with blanks removed from both ends. -/
def trim (s : String) : String := String.ofList (trimList s.toList)

/-- The text is empty or blank throughout. -/
def isBlankText (s : String) : Bool := s.toList.all isBlank

/-- The first run of non-blank characters of a text that starts with one. -/
def firstWord (s : String) : String := String.ofList (s.toList.takeWhile (fun c => !isBlank c))

end Text

end ShapeGrammar
