import SchemaCatalog.Text.Alphabetic
import SchemaCatalog.Text.WhiteSpace

/-!
# Tokens of type expressions

A type expression is read as a list of tokens: names, numbers, brackets and commas, with white space
between them where it is wanted.  Every token knows the byte at which it starts, and the list always
ends in the token for the end of the input.
-/

namespace SchemaCatalog

/-- What a token is. -/
inductive Lexeme where
  | identifier (name : String)
  | quoted (name : String)
  | number (digits : String)
  | less
  | greater
  | leftParen
  | rightParen
  | comma
  | illegal (text : String)
  | endOfInput
deriving DecidableEq, Repr

/-- A backtick opens and closes a quoted name. -/
def backtick : Char := '\x60'

namespace Lexeme

/-- The text of the token as it stands in the input; a quoted name is written with its backticks. -/
def text : Lexeme → String
  | identifier name => name
  | quoted name => String.singleton backtick ++ name ++ String.singleton backtick
  | number digits => digits
  | less => "<"
  | greater => ">"
  | leftParen => "("
  | rightParen => ")"
  | comma => ","
  | illegal text => text
  | endOfInput => ""

/-- How error messages cite a token. -/
def display : Lexeme → String
  | endOfInput => "end of input"
  | lexeme => "'" ++ lexeme.text ++ "'"

/-- The name that a token can give to a field. -/
def fieldName? : Lexeme → Option String
  | identifier name => some name
  | quoted name => some name
  | _ => none

/-- A name or a number can stand as a type parameter. -/
def isParameter : Lexeme → Bool
  | identifier _ => true
  | number _ => true
  | _ => false

/-- The token that a text starting with the character `c` begins with, and what follows it.  Names
and numbers extend as far as they can.  A backtick without a partner makes the rest of the input
illegal; any other character that starts no token is illegal by itself. -/
def ofText (c : Char) (rest : List Char) : Lexeme × List Char :=
  if c = '<' then (less, rest)
  else if c = '>' then (greater, rest)
  else if c = '(' then (leftParen, rest)
  else if c = ')' then (rightParen, rest)
  else if c = ',' then (comma, rest)
  else if c = backtick then
    -- a quoted name runs to the next backtick and may hold anything else
    match rest.dropWhile (· != backtick) with
    | [] => (illegal (String.ofList (c :: rest)), [])
    | _ :: after => (quoted (String.ofList (rest.takeWhile (· != backtick))), after)
  else if Text.isLetter c then
    (identifier (String.ofList (c :: rest.takeWhile Text.isNameChar)),
      rest.dropWhile Text.isNameChar)
  else if Text.isDigit c then
    (number (String.ofList (c :: rest.takeWhile Text.isDigit)), rest.dropWhile Text.isDigit)
  else (illegal (String.singleton c), rest)

/-- A token consumes at least the character that it starts with. -/
theorem ofText_length_le (c : Char) (rest : List Char) :
    (ofText c rest).2.length ≤ rest.length := by
  unfold ofText
  repeat' split
  all_goals try exact Nat.le_refl _
  all_goals try exact (List.dropWhile_suffix _).length_le
  · exact Nat.zero_le _
  · rename_i tail h
    have hle : (rest.dropWhile (· != backtick)).length ≤ rest.length :=
      (List.dropWhile_suffix _).length_le
    rw [h, List.length_cons] at hle
    exact Nat.le_of_succ_le hle

/-- Token and remaining text together are the text. -/
theorem ofText_text_append (c : Char) (rest : List Char) :
    (ofText c rest).1.text.toList ++ (ofText c rest).2 = c :: rest := by
  unfold ofText
  split
  · subst c; simp [text]
  split
  · subst c; simp [text]
  split
  · subst c; simp [text]
  split
  · subst c; simp [text]
  split
  · subst c; simp [text]
  split
  · subst c
    split
    · simp [text]
    · rename_i d after h
      have hd : d = backtick := by
        have hhead := List.head?_dropWhile_not (· != backtick) rest
        rw [h] at hhead
        simpa using hhead
      have hsplit := List.takeWhile_append_dropWhile (p := (· != backtick)) (l := rest)
      rw [h, hd] at hsplit
      simp [text, hsplit]
  split
  · simp [text, List.takeWhile_append_dropWhile]
  split
  · simp [text, List.takeWhile_append_dropWhile]
  · simp [text]

end Lexeme

/-- A lexeme and the byte offset at which it starts. -/
structure Token where
  lexeme : Lexeme
  position : Nat
deriving DecidableEq, Repr

namespace Token

/-- The tokens of a text that starts at a byte offset. -/
def ofTextAt (position : Nat) : List Char → List Token
  | [] => []
  | c :: rest =>
    if Text.isWhiteSpace c then ofTextAt (position + c.utf8Size) rest
    else
      ⟨(Lexeme.ofText c rest).1, position⟩ ::
        ofTextAt (position + (Lexeme.ofText c rest).1.text.utf8ByteSize) (Lexeme.ofText c rest).2
termination_by text => text.length
decreasing_by
  · simp
  · have := Lexeme.ofText_length_le c rest
    simp
    omega

/-- The token that stands for the end of an input, at its length in bytes. -/
def atEnd (input : String) : Token :=
  ⟨.endOfInput, input.utf8ByteSize⟩

/-- The tokens before the end of the input. -/
def list (input : String) : List Token :=
  ofTextAt 0 input.toList

/-- All tokens of an input; the last one stands for its end. -/
def tokenize (input : String) : List Token :=
  list input ++ [atEnd input]

end Token

end SchemaCatalog
