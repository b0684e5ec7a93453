import SchemaCatalog.Proofs.SqlType.Respelling
import SchemaCatalog.Proofs.SqlType.Rescanning
import SchemaCatalog.Proofs.Text.AsciiCase

/-!
# The case of ASCII letters in type expressions

A text in lower case begins with the token that the text begins with, in lower case.  So its tokens
are those of the text, respelled, and they stand at the same bytes.  Keywords and the names of kinds
mean the same in either case; only the names of fields come out as they are written.
-/

namespace SchemaCatalog

open Text (lowerAscii)

/-- Tokens in lower case, where they are. -/
def Respelling.lowering : Respelling where
  name := lowerAscii
  illegal := lowerAscii
  position := id
  expectation text := by
    rw [Parser.expectationOfName?, Text.equalIgnoringAsciiCase_lowerAscii,
      Text.equalIgnoringAsciiCase_lowerAscii, TypeKind.ofName?, Text.upper_lowerAscii]
    rfl

namespace Text

theorem isPlainName_map_toLower (name : List Char) :
    isPlainName (name.map Char.toLower) = isPlainName name := by
  cases name with
  | nil => rfl
  | cons c rest =>
    have hchars : isNameChar ∘ Char.toLower = isNameChar := funext isNameChar_toLower
    rw [List.map_cons, isPlainName, isPlainName, isLetter_toLower, List.all_map, hchars]

theorem stops_map_toLower {goesOn : Char → Bool} (h : ∀ c : Char, goesOn c.toLower = goesOn c)
    (text : List Char) : stops goesOn (text.map Char.toLower) = stops goesOn text := by
  cases text with
  | nil => rfl
  | cons c rest => rw [List.map_cons, stops, stops, h]

theorem map_toLower_eq_self {text : List Char} (h : ∀ c ∈ text, isLetter c = false) :
    text.map Char.toLower = text :=
  (List.map_congr_left fun c hc => toLower_eq_self (h c hc)).trans (List.map_id text)

end Text

namespace Lexeme

open Respelling (lowering)

variable {text after : List Char} {lexeme : Lexeme}

theorem utf8ByteSize_respell_lowering (lexeme : Lexeme) :
    (lexeme.respell lowering).text.utf8ByteSize = lexeme.text.utf8ByteSize := by
  cases lexeme with
  | identifier name => exact Text.utf8ByteSize_lowerAscii name
  | illegal text => exact Text.utf8ByteSize_lowerAscii text
  | quoted name =>
    show (String.singleton backtick ++ lowerAscii name ++ String.singleton backtick).utf8ByteSize =
      (String.singleton backtick ++ name ++ String.singleton backtick).utf8ByteSize
    simp only [String.utf8ByteSize_append, Text.utf8ByteSize_lowerAscii]
  | _ => rfl

theorem backtick_not_mem_map_toLower {name : List Char} (h : backtick ∉ name) :
    backtick ∉ name.map Char.toLower := by
  intro hmem
  obtain ⟨c, hc, hlower⟩ := List.mem_map.mp hmem
  have heq := Text.toLower_beq c (d := backtick) (by decide)
  rw [hlower, beq_self_eq_true, eq_comm, beq_iff_eq] at heq
  exact h (heq ▸ hc)

theorem Begins.lower (h : Begins text lexeme after) :
    Begins (text.map Char.toLower) (lexeme.respell lowering) (after.map Char.toLower) := by
  cases h with
  | @mark c _ after hmark =>
    have hall : ∀ mark ∈ marks,
        Char.toLower mark.1 = mark.1 ∧ mark.2.respell lowering = mark.2 := by decide
    obtain ⟨hchar, hlexeme⟩ := hall _ hmark
    rw [List.map_cons, hchar, hlexeme]
    exact .mark _ hmark
  | @quoted name after hname =>
    have hbegins := Begins.quoted (after.map Char.toLower) (backtick_not_mem_map_toLower hname)
    rw [← Text.lowerAscii_ofList] at hbegins
    rw [List.map_cons, List.map_append, List.map_cons]
    exact hbegins
  | @unclosed rest hrest =>
    have hbegins := Begins.unclosed (backtick_not_mem_map_toLower hrest)
    show Begins _ (Lexeme.illegal (lowerAscii (String.ofList (backtick :: rest)))) _
    rw [Text.lowerAscii_ofList, List.map_cons]
    exact hbegins
  | @identifier name after hname hafter =>
    show Begins _ (Lexeme.identifier (lowerAscii (String.ofList name))) _
    rw [Text.lowerAscii_ofList, List.map_append]
    exact .identifier ((Text.isPlainName_map_toLower name).trans hname)
      ((Text.stops_map_toLower Text.isNameChar_toLower after).trans hafter)
  | @number digits after hdigits hafter =>
    have hsame := Text.map_toLower_eq_self fun c hc =>
      Text.isLetter_of_isDigit ((Text.isNumeral_iff.mp hdigits).2 c hc)
    rw [List.map_append, hsame]
    exact .number hdigits ((Text.stops_map_toLower Text.isDigit_toLower after).trans hafter)
  | @stray c after hstart hspace =>
    have hletter : Text.isLetter c = false := by
      simp only [canStart, Bool.or_eq_false_iff] at hstart
      exact hstart.1.2
    have hsame := Text.toLower_eq_self hletter
    show Begins _ (Lexeme.illegal (lowerAscii (String.ofList [c]))) _
    rw [Text.lowerAscii_ofList, List.map_cons, List.map_singleton, hsame]
    exact .stray _ hstart hspace

end Lexeme

namespace Token

open Respelling (lowering)

theorem ofTextAt_map_toLower (position : Nat) (text : List Char) :
    ofTextAt position (text.map Char.toLower) =
      (ofTextAt position text).map (respell lowering) := by
  induction text using begins_induct generalizing position with
  | nil => rw [List.map_nil, ofTextAt, List.map_nil]
  | space c rest hc ih =>
    have hlower : Text.isWhiteSpace c.toLower = true := (Text.isWhiteSpace_toLower c).trans hc
    rw [List.map_cons, ofTextAt, if_pos hlower, Text.utf8Size_toLower, ofTextAt, if_pos hc, ih]
  | token text lexeme after hbegins ih =>
    rw [ofTextAt_of_begins hbegins.lower, ofTextAt_of_begins hbegins,
      Lexeme.utf8ByteSize_respell_lowering, ih, List.map_cons]
    rfl

theorem list_lowerAscii (input : String) :
    list (lowerAscii input) = (list input).map (respell lowering) := by
  rw [list, Text.toList_lowerAscii, ofTextAt_map_toLower, list]

end Token

namespace SqlType

open Respelling (lowering)

/-- **ASCII case does not matter.** Inputs that differ in the case of ASCII letters are both read, as
types that differ in the case of field names, or both refused at the same byte. -/
theorem parseWithin_of_equalIgnoringAsciiCase (limit : Nat) {input other : String}
    (h : Text.equalIgnoringAsciiCase other input = true) :
    (∃ type type', parseWithin limit input = .ok type ∧ parseWithin limit other = .ok type' ∧
        type'.mapNames lowerAscii = type.mapNames lowerAscii) ∨
      ∃ error error', parseWithin limit input = .error error ∧
        parseWithin limit other = .error error' ∧ error'.position = error.position := by
  have hlower := Text.equalIgnoringAsciiCase_iff.mp h
  have htokens : (Token.list other).map (Token.respell lowering) =
      (Token.list input).map (Token.respell lowering) := by
    rw [← Token.list_lowerAscii, ← Token.list_lowerAscii, hlower]
  have hlast : (Token.atEnd other).respell lowering = (Token.atEnd input).respell lowering := by
    have hsize : other.utf8ByteSize = input.utf8ByteSize := by
      rw [← Text.utf8ByteSize_lowerAscii, hlower, Text.utf8ByteSize_lowerAscii]
    exact congrArg (Token.mk .endOfInput) hsize
  rcases parseWithin_alike lowering limit htokens hlast with
    hread | ⟨error, error', hinput, hother, -, hposition⟩
  · exact .inl hread
  · exact .inr ⟨error, error', hinput, hother, hposition⟩

theorem parseWithin_of_equalIgnoringAsciiCase_struct :
    Text.equalIgnoringAsciiCase "struct<\x60gRößE\x60 int64, ÄRGER aRRAY<String>>"
        "STRUCT<\x60Größe\x60 INT64, Ärger Array<sTRING>>" = true ∧
      ((∃ type type',
          parseWithin 9 "STRUCT<\x60Größe\x60 INT64, Ärger Array<sTRING>>" = .ok type ∧
          parseWithin 9 "struct<\x60gRößE\x60 int64, ÄRGER aRRAY<String>>" = .ok type' ∧
          type'.mapNames lowerAscii = type.mapNames lowerAscii) ∨
        ∃ error error',
          parseWithin 9 "STRUCT<\x60Größe\x60 INT64, Ärger Array<sTRING>>" = .error error ∧
          parseWithin 9 "struct<\x60gRößE\x60 int64, ÄRGER aRRAY<String>>" = .error error' ∧
          error'.position = error.position) := by
  have hcase : Text.equalIgnoringAsciiCase "struct<\x60gRößE\x60 int64, ÄRGER aRRAY<String>>"
      "STRUCT<\x60Größe\x60 INT64, Ärger Array<sTRING>>" = true := by decide +kernel
  exact ⟨hcase, parseWithin_of_equalIgnoringAsciiCase 9 hcase⟩

end SqlType

end SchemaCatalog
