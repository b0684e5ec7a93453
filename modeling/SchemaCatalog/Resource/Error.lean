import SchemaCatalog.SqlType.ParseError

/-!
# Kinds of resources and catalog errors

A catalog holds resources of four kinds.  An operation fails because a name is taken, because nothing
is there, because a name is malformed, or because a type expression is.
-/

namespace SchemaCatalog

/-- The kinds of resources; each has a namespace of its own. -/
inductive ResourceKind where
  | table
  | function
  | procedure
  | tableFunction
deriving DecidableEq, Repr

def ResourceKind.title : ResourceKind → String
  | table => "Table"
  | function => "Function"
  | procedure => "Procedure"
  | tableFunction => "Table-valued function"

/-- What a name that is already taken belongs to. -/
inductive Subject where
  | resource (kind : ResourceKind)
  | catalog
deriving DecidableEq, Repr

def Subject.title : Subject → String
  | resource kind => kind.title
  | catalog => "Catalog"

/-- Why an operation on a catalog fails. -/
inductive CatalogError where
  | alreadyExists (subject : Subject) (name : String)
  | notFound (kind : ResourceKind) (path : String)
  | invalidName (name : String)
  | typeParse (error : ParseError)
deriving DecidableEq, Repr

namespace CatalogError

def message : CatalogError → String
  | alreadyExists subject name => subject.title ++ " already exists: " ++ name
  | notFound kind path => kind.title ++ " not found: " ++ path
  | invalidName name => "Invalid resource name: '" ++ name ++ "'"
  | typeParse error => "Type error: " ++ error.message

def isAlreadyExists : CatalogError → Bool
  | alreadyExists _ _ => true
  | _ => false

def isNotFound : CatalogError → Bool
  | notFound _ _ => true
  | _ => false

end CatalogError

end SchemaCatalog
