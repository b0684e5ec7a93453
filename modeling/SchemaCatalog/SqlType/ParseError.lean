import SchemaCatalog.SqlType.Token

/-!
# Errors of type expressions

An error says why an input is no type expression, where, and what stands there.  The reason is a
value; its wording is fixed in one place.
-/

namespace SchemaCatalog

/-- What the grammar wants at a place. -/
inductive Wanted where
  | type
  | arrayOpening
  | arrayClosing
  | structOpening
  | fieldName
  | structContinuation
  | parametersClosing
deriving DecidableEq, Repr

def Wanted.text : Wanted → String
  | type => "a type"
  | arrayOpening => "'<' after ARRAY"
  | arrayClosing => "'>' closing ARRAY"
  | structOpening => "'<' after STRUCT"
  | fieldName => "a field name"
  | structContinuation => "',' or '>' in STRUCT"
  | parametersClosing => "')' closing type parameters"

/-- Why an input is no type expression. -/
inductive ParseReason where
  | unmatched (bracket : Lexeme)
  | mismatched (opener closer : Lexeme)
  | tooDeep (limit : Nat)
  | illegalCharacter
  | unexpectedEnd
  | unknownType
  | emptyStruct
  | malformedParameters
  | trailingInput
  | expected (wanted : Wanted) (found : Lexeme)
deriving DecidableEq, Repr

def ParseReason.message : ParseReason → String
  | unmatched bracket => "unmatched " ++ bracket.display
  | mismatched opener closer => opener.display ++ " closed by " ++ closer.display
  | tooDeep limit => "type nesting too deep (limit " ++ toString limit ++ ")"
  | illegalCharacter => "illegal character"
  | unexpectedEnd => "unexpected end of input"
  | unknownType => "unknown type"
  | emptyStruct => "empty STRUCT field list"
  | malformedParameters => "malformed type parameter list"
  | trailingInput => "unexpected input after complete type"
  | expected wanted found => "expected " ++ wanted.text ++ ", found " ++ found.display

/-- A reason, the text at fault and the byte offset of the token at fault. -/
structure ParseError where
  reason : ParseReason
  near : String
  position : Nat
deriving DecidableEq, Repr

/-- What a text holds from a byte offset on. -/
def dropBytes : Nat → List Char → List Char
  | _, [] => []
  | offset, c :: rest => if offset = 0 then c :: rest else dropBytes (offset - c.utf8Size) rest

namespace ParseError

/-- An error about one token: near is the token's text, or the whole input at its end. -/
def atToken (input : String) (token : Token) (reason : ParseReason) : ParseError :=
  ⟨reason, if token.lexeme = .endOfInput then input else token.lexeme.text, token.position⟩

/-- An error about all that follows: near is the input from the token on. -/
def fromToken (input : String) (token : Token) (reason : ParseReason) : ParseError :=
  ⟨reason, String.ofList (dropBytes token.position input.toList), token.position⟩

/-- The full message. -/
def message (error : ParseError) : String :=
  "Failed to parse type: " ++ error.reason.message ++ " at position " ++ toString error.position ++
    " near '" ++ error.near ++ "'"

end ParseError

end SchemaCatalog
