/-!
Blank characters. Three classes are in use: the blanks of Unicode together with the four
information separators, the same without the separators (around numerals), and the six of ASCII.
-/
namespace CodeAtlas.Text

/-- Unicode white space and the information separators U+001C to U+001F. -/
def isBlank (c : Char) : Bool :=
  let n := c.toNat
  (9 ≤ n && n ≤ 13) || (0x1C ≤ n && n ≤ 0x20) || n == 0x85 || n == 0xA0 || n == 0x1680 ||
  (0x2000 ≤ n && n ≤ 0x200A) || n == 0x2028 || n == 0x2029 || n == 0x202F || n == 0x205F ||
  n == 0x3000

/-- Space, tab, line feed, carriage return, form feed and vertical tab. -/
def isAsciiBlank (c : Char) : Bool :=
  let n := c.toNat
  (9 ≤ n && n ≤ 13) || n == 0x20

/-- The blanks that may stand around a numeral: no information separators. -/
def isNumeralBlank (c : Char) : Bool :=
  isAsciiBlank c || (0x7F ≤ c.toNat && isBlank c)

def trimBoth (p : Char → Bool) (text : List Char) : List Char :=
  ((text.dropWhile p).reverse.dropWhile p).reverse

def strip (text : String) : String := String.ofList (trimBoth isBlank text.toList)

end CodeAtlas.Text
