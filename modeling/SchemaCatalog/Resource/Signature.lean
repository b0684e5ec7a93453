import SchemaCatalog.SqlType.Parser

/-!
# Signatures of routines

An argument or result is a type, a whole table, nothing, or a value of any type.  The words `TABLE`,
`VOID` and `ANY TYPE` name the last three, in any case and with any white space around and between
them; every other text is a type expression.
-/

namespace SchemaCatalog

/-- What a routine takes or gives. -/
inductive ArgumentType where
  | fixed (type : SqlType)
  | relation
  | void
  | any
deriving DecidableEq

namespace ArgumentType

def display : ArgumentType → String
  | fixed type => type.display
  | relation => "TABLE"
  | void => "VOID"
  | any => "ANY TYPE"

/-- A text with single spaces between its words, in upper case. -/
def wordForm (text : String) : String :=
  String.ofList (Text.upper ([' '].intercalate (Text.words text.toList)))

/-- The argument type that a text in word form names without being a type expression. -/
def ofWordForm? (form : String) : Option ArgumentType :=
  if form = "TABLE" then some relation
  else if form = "VOID" then some void
  else if form = "ANY TYPE" then some any
  else none

/-- Reads an argument or result.  White space around a type expression is dropped first, and errors
count positions from there. -/
def parse (text : String) : Except ParseError ArgumentType :=
  let trimmed := String.ofList (Text.trim text.toList)
  match ofWordForm? (wordForm trimmed) with
  | some argument => .ok argument
  | none => (SqlType.parse trimmed).map fixed

end ArgumentType

/-- The arguments of a routine in order, and its result. -/
structure Signature where
  arguments : List ArgumentType
  result : ArgumentType
deriving DecidableEq

/-- The text of a signature: `(A, B) -> R`. -/
def Signature.display (signature : Signature) : String :=
  "(" ++ ", ".intercalate (signature.arguments.map ArgumentType.display) ++ ") -> " ++
    signature.result.display

end SchemaCatalog
