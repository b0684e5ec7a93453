import SchemaCatalog.SqlType.Basic
import SchemaCatalog.SqlType.Brackets

/-!
# Reading type expressions

    type   :=  kind  |  kind ( param , … )  |  ARRAY < type >  |  STRUCT < name type , … >

The reader takes one token at a time.  Its state is the stack of arrays and structs that are open,
and what may come next.  The number of open types bounds the nesting: a type that would start inside
`limit` others is refused.  A token that does not fit the state is refused with a reason that the
state determines, and so is the end of the input.
-/

namespace SchemaCatalog.Parser

/-- A type that is open: an array waits for its element, a struct for the type of the field `name`,
after the fields that are complete. -/
inductive Frame where
  | array
  | struct (fields : List StructField) (name : String)
deriving DecidableEq

/-- What may come next. -/
inductive Expectation where
  /-- a type -/
  | type
  /-- the angle bracket after ARRAY -/
  | arrayOpening
  /-- the angle bracket after STRUCT -/
  | structOpening
  /-- the name of a field, after the fields that are complete -/
  | fieldName (fields : List StructField)
  /-- parameters of this kind, or what follows a complete type -/
  | afterKind (kind : TypeKind)
  /-- a parameter of this kind -/
  | parameter (kind : TypeKind)
  /-- a comma or the end of the parameters of this kind -/
  | afterParameter (kind : TypeKind)
  /-- what follows a complete type -/
  | afterType (type : SqlType)
deriving DecidableEq

/-- The open types, innermost first, and what may come next inside the innermost. -/
structure State where
  opened : List Frame
  next : Expectation
deriving DecidableEq

/-- Before the first token a type is expected. -/
def State.start : State := ⟨[], .type⟩

/-- A name where a type is expected: ARRAY and STRUCT, in either ASCII case, or the name of a kind. -/
def expectationOfName? (name : String) : Option Expectation :=
  if Text.equalIgnoringAsciiCase name "ARRAY" then some .arrayOpening
  else if Text.equalIgnoringAsciiCase name "STRUCT" then some .structOpening
  else (TypeKind.ofName? name).map .afterKind

/-- After a complete type the innermost open type is closed, or a struct goes on to its next field. -/
def closeType? (opened : List Frame) (type : SqlType) (lexeme : Lexeme) : Option State :=
  match opened, lexeme with
  | .array :: outer, .greater => some ⟨outer, .afterType (.array type)⟩
  | .struct fields name :: outer, .greater =>
    some ⟨outer, .afterType (.struct (fields ++ [⟨name, type⟩]))⟩
  | .struct fields name :: outer, .comma => some ⟨outer, .fieldName (fields ++ [⟨name, type⟩])⟩
  | _, _ => none

/-- The state after a token that fits. -/
def advance? (limit : Nat) (state : State) (lexeme : Lexeme) : Option State :=
  match state.next, lexeme with
  | .type, .identifier name =>
    -- the types that are open here would all contain the new one
    if limit ≤ state.opened.length then none
    else (expectationOfName? name).map (⟨state.opened, ·⟩)
  | .arrayOpening, .less => some ⟨.array :: state.opened, .type⟩
  | .structOpening, .less => some ⟨state.opened, .fieldName []⟩
  | .fieldName fields, lexeme =>
    lexeme.fieldName?.map fun name => ⟨.struct fields name :: state.opened, .type⟩
  | .afterKind kind, .leftParen => some ⟨state.opened, .parameter kind⟩
  | .afterKind kind, lexeme => closeType? state.opened (.simple kind) lexeme
  | .parameter kind, lexeme =>
    if lexeme.isParameter then some ⟨state.opened, .afterParameter kind⟩ else none
  | .afterParameter kind, .comma => some ⟨state.opened, .parameter kind⟩
  | .afterParameter kind, .rightParen => some ⟨state.opened, .afterType (.simple kind)⟩
  | .afterType type, lexeme => closeType? state.opened type lexeme
  | _, _ => none

/-- The type that is complete if the input ends here. -/
def complete? (state : State) : Option SqlType :=
  match state with
  | ⟨[], .afterKind kind⟩ => some (.simple kind)
  | ⟨[], .afterType type⟩ => some type
  | _ => none

/-- Why a token cannot start a type. -/
def typeRefusal (limit depth : Nat) (lexeme : Lexeme) : ParseReason :=
  if limit ≤ depth then .tooDeep limit
  else match lexeme with
    | .identifier _ => .unknownType
    | .illegal _ => .illegalCharacter
    | .endOfInput => .unexpectedEnd
    | found => .expected .type found

/-- Why a token cannot follow a complete type inside the open ones. -/
def closeRefusal (opened : List Frame) (lexeme : Lexeme) : ParseReason :=
  match opened with
  | [] => .trailingInput
  | .array :: _ => .expected .arrayClosing lexeme
  | .struct _ _ :: _ => .expected .structContinuation lexeme

/-- Why a token does not fit the state. -/
def refusalReason (limit : Nat) (state : State) (lexeme : Lexeme) : ParseReason :=
  match state.next with
  | .type => typeRefusal limit state.opened.length lexeme
  | .arrayOpening => .expected .arrayOpening lexeme
  | .structOpening => .expected .structOpening lexeme
  | .fieldName fields =>
    -- only straight after the opening bracket is a closer an empty list
    if fields = [] ∧ lexeme = .greater then .emptyStruct else .expected .fieldName lexeme
  | .afterKind _ => closeRefusal state.opened lexeme
  | .parameter _ => .malformedParameters
  | .afterParameter _ => .expected .parametersClosing lexeme
  | .afterType _ => closeRefusal state.opened lexeme

/-- The error at a token that does not fit.  Input after a complete type is cited up to its end, any
other token by itself. -/
def refusal (input : String) (limit : Nat) (state : State) (token : Token) : ParseError :=
  let reason := refusalReason limit state token.lexeme
  if reason = .trailingInput then .fromToken input token reason else .atToken input token reason

/-- Reads the remaining tokens from a state. -/
def run (input : String) (limit : Nat) (state : State) : List Token → Except ParseError SqlType
  | [] =>
    match complete? state with
    | some type => .ok type
    | none => .error (refusal input limit state (Token.atEnd input))
  | token :: rest =>
    match advance? limit state token.lexeme with
    | some state => run input limit state rest
    | none => .error (refusal input limit state token)

end SchemaCatalog.Parser

namespace SchemaCatalog.SqlType

/-- Types may nest this deeply unless a reader asks for another limit. -/
def defaultMaxDepth : Nat := 256

/-- Reads a type expression in which types nest at most `limit` deep.  Brackets that do not match are
reported first. -/
def parseWithin (limit : Nat) (input : String) : Except ParseError SqlType :=
  match Brackets.balanced (Token.list input) with
  | .ok () => Parser.run input limit .start (Token.list input)
  | .error mismatch => .error (.fromToken input mismatch.token mismatch.reason)

/-- Reads a type expression. -/
def parse (input : String) : Except ParseError SqlType :=
  parseWithin defaultMaxDepth input

end SchemaCatalog.SqlType
