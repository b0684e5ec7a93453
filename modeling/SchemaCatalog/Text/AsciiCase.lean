/-!
# Equality up to ASCII case

Keywords, columns and struct fields are compared with the ASCII letters in either case and every
other character as it is.
-/

namespace SchemaCatalog.Text

/-- Texts that differ at most in the case of their ASCII letters. -/
def equalIgnoringAsciiCase (s t : String) : Bool :=
  s.toList.map Char.toLower == t.toList.map Char.toLower

theorem equalIgnoringAsciiCase_refl (s : String) : equalIgnoringAsciiCase s s = true := by
  simp [equalIgnoringAsciiCase]

end SchemaCatalog.Text
