import SchemaCatalog.Text.CodePoint

/-!
# White space

White space separates tokens, surrounds type expressions and makes a name blank.  It is the Unicode
property White_Space: the no-break and typographic spaces belong to it, the zero-width space does
not.
-/

namespace SchemaCatalog.Text

/-- The code points with the property White_Space. -/
def whiteSpace : Intervals := [
  (0x9, 0xD), (0x20, 0x20), (0x85, 0x85), (0xA0, 0xA0), (0x1680, 0x1680), (0x2000, 0x200A),
  (0x2028, 0x2029), (0x202F, 0x202F), (0x205F, 0x205F), (0x3000, 0x3000)]

def isWhiteSpace (c : Char) : Bool :=
  whiteSpace.contains c.toNat

/-- A text is blank if it holds nothing but white space. -/
def isBlank (s : String) : Bool :=
  s.toList.all isWhiteSpace

/-- Drops the white space at both ends. -/
def trim (s : List Char) : List Char :=
  ((s.dropWhile isWhiteSpace).reverse.dropWhile isWhiteSpace).reverse

/-- The maximal runs of other characters between white space. -/
def words (s : List Char) : List (List Char) :=
  (s.splitOnP isWhiteSpace).filter fun piece => !piece.isEmpty

end SchemaCatalog.Text
