/-!
Blank characters: the white space of Unicode together with the four ASCII information separators.
-/

namespace MazeDuel.Text

def blankPoints : List Nat :=
  [9, 10, 11, 12, 13, 28, 29, 30, 31, 32, 0x85, 0xA0, 0x1680, 0x2000, 0x2001, 0x2002, 0x2003,
   0x2004, 0x2005, 0x2006, 0x2007, 0x2008, 0x2009, 0x200A, 0x2028, 0x2029, 0x202F, 0x205F, 0x3000]

def isBlank (c : Char) : Bool := blankPoints.contains c.toNat

/-- The text without the characters of a kind at its two ends. -/
def trimOf (kind : Char → Bool) (text : List Char) : List Char :=
  ((text.dropWhile kind).reverse.dropWhile kind).reverse

def trim (text : List Char) : List Char := trimOf isBlank text

end MazeDuel.Text
