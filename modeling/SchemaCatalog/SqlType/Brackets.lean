import SchemaCatalog.SqlType.ParseError

/-!
# Matching brackets

Before a type expression is read, its angle brackets and parentheses are matched over the whole
input.  A closer must meet the innermost open bracket, and that bracket must be of its own kind; at
the end nothing may be open.  Quoted names are single tokens, so brackets inside them do not count.
-/

namespace SchemaCatalog.Brackets

def isOpener : Lexeme → Bool
  | .less => true
  | .leftParen => true
  | _ => false

def isCloser : Lexeme → Bool
  | .greater => true
  | .rightParen => true
  | _ => false

/-- An opener and a closer of one kind. -/
def pairs : Lexeme → Lexeme → Bool
  | .less, .greater => true
  | .leftParen, .rightParen => true
  | _, _ => false

/-- Why brackets do not match, with the bracket to blame. -/
structure Mismatch where
  reason : ParseReason
  token : Token
deriving DecidableEq, Repr

/-- One token against the open brackets, innermost first.  A closer with nothing open is to blame
itself; a closer of the wrong kind puts the blame on the bracket that it meets. -/
def step (opened : List Token) (token : Token) : Except Mismatch (List Token) :=
  if isOpener token.lexeme then .ok (token :: opened)
  else if isCloser token.lexeme then
    match opened with
    | [] => .error ⟨.unmatched token.lexeme, token⟩
    | opener :: outer =>
      if pairs opener.lexeme token.lexeme then .ok outer
      else .error ⟨.mismatched opener.lexeme token.lexeme, opener⟩
  else .ok opened

/-- Matches the tokens against the open brackets; of brackets left open the innermost is to blame. -/
def check : List Token → List Token → Except Mismatch Unit
  | [], [] => .ok ()
  | opener :: _, [] => .error ⟨.unmatched opener.lexeme, opener⟩
  | opened, token :: rest =>
    match step opened token with
    | .ok opened => check opened rest
    | .error mismatch => .error mismatch

/-- The brackets of an input match. -/
def balanced (tokens : List Token) : Except Mismatch Unit :=
  check [] tokens

end SchemaCatalog.Brackets
