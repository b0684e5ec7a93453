import SchemaCatalog.SqlType.Parser

/-!
# The grammar of type expressions

A type expression is a list of lexemes that derives a type.  The grammar says which lists do, without
a reading order, a stack or a limit:

    type        :=  kind  |  kind ( parameters )  |  ARRAY < type >  |  STRUCT < fields >
    fields      :=  field  |  field , fields
    field       :=  name type
    parameters  :=  parameter  |  parameter , parameters
-/

namespace SchemaCatalog

/-- The lexemes of an input before its end. -/
def Token.lexemes (input : String) : List Lexeme :=
  (Token.list input).map Token.lexeme

namespace Grammar

/-- Names and numbers with commas between them. -/
inductive ParameterList : List Lexeme → Prop where
  | one {parameter : Lexeme} (hparameter : parameter.isParameter = true) :
      ParameterList [parameter]
  | more {parameter : Lexeme} {rest : List Lexeme} (hparameter : parameter.isParameter = true)
      (hrest : ParameterList rest) : ParameterList (parameter :: .comma :: rest)

/-- What may follow the name of a kind: nothing, or parameters in parentheses. -/
inductive Parameters : List Lexeme → Prop where
  | absent : Parameters []
  | present {list : List Lexeme} (hlist : ParameterList list) :
      Parameters (.leftParen :: (list ++ [.rightParen]))

mutual

/-- The lexemes of a type.  Parameters leave no trace in the type. -/
inductive Derives : List Lexeme → SqlType → Prop where
  | simple {name : String} {kind : TypeKind} {parameters : List Lexeme}
      (harray : Text.equalIgnoringAsciiCase name "ARRAY" = false)
      (hstruct : Text.equalIgnoringAsciiCase name "STRUCT" = false)
      (hkind : TypeKind.ofName? name = some kind) (hparameters : Parameters parameters) :
      Derives (.identifier name :: parameters) (.simple kind)
  | array {name : String} {body : List Lexeme} {element : SqlType}
      (hname : Text.equalIgnoringAsciiCase name "ARRAY" = true) (hbody : Derives body element) :
      Derives (.identifier name :: .less :: (body ++ [.greater])) (.array element)
  | struct {name : String} {body : List Lexeme} {fields : List StructField}
      (hname : Text.equalIgnoringAsciiCase name "STRUCT" = true)
      (hbody : DerivesFields body fields) :
      Derives (.identifier name :: .less :: (body ++ [.greater])) (.struct fields)

/-- The lexemes between the brackets of a struct: at least one field. -/
inductive DerivesFields : List Lexeme → List StructField → Prop where
  | one {lexeme : Lexeme} {name : String} {body : List Lexeme} {type : SqlType}
      (hname : lexeme.fieldName? = some name) (hbody : Derives body type) :
      DerivesFields (lexeme :: body) [⟨name, type⟩]
  | more {lexeme : Lexeme} {name : String} {body rest : List Lexeme} {type : SqlType}
      {fields : List StructField} (hname : lexeme.fieldName? = some name)
      (hbody : Derives body type) (hrest : DerivesFields rest fields) :
      DerivesFields (lexeme :: (body ++ .comma :: rest)) (⟨name, type⟩ :: fields)

end

end Grammar

end SchemaCatalog
