import SchemaCatalog.Resource.Basic

/-!
# Definitions

A definition describes a resource with its types written as type expressions.  Reading a definition
parses the expressions; the first one that is malformed is the error.
-/

namespace SchemaCatalog

structure ColumnDefinition where
  name : String
  type : String
deriving DecidableEq

structure TableDefinition where
  name : String
  columns : List ColumnDefinition
deriving DecidableEq

structure SignatureDefinition where
  arguments : List String
  returns : String
deriving DecidableEq

structure FunctionDefinition where
  name : String
  group : String
  mode : FunctionMode
  signatures : List SignatureDefinition
deriving DecidableEq

structure ProcedureDefinition where
  name : String
  arguments : List String
deriving DecidableEq

structure TableFunctionDefinition where
  name : String
  arguments : List String
  outputColumns : List ColumnDefinition
deriving DecidableEq

/-- A batch of definitions. -/
structure Definitions where
  tables : List TableDefinition
  functions : List FunctionDefinition
  procedures : List ProcedureDefinition
  tableFunctions : List TableFunctionDefinition
deriving DecidableEq

def ColumnDefinition.toColumn (definition : ColumnDefinition) : Except ParseError Column :=
  return ⟨definition.name, ← SqlType.parse definition.type⟩

/-- The table is called by the last segment of the name; the whole name is its full name. -/
def TableDefinition.toTable (definition : TableDefinition) : Except ParseError Table := do
  let columns ← definition.columns.mapM ColumnDefinition.toColumn
  return ⟨(Name.segments definition.name).getLastD definition.name, definition.name, columns⟩

def SignatureDefinition.toSignature (definition : SignatureDefinition) :
    Except ParseError Signature := do
  let arguments ← definition.arguments.mapM ArgumentType.parse
  let result ← ArgumentType.parse definition.returns
  return ⟨arguments, result⟩

def FunctionDefinition.toFunction (definition : FunctionDefinition) :
    Except ParseError SqlFunction := do
  let signatures ← definition.signatures.mapM SignatureDefinition.toSignature
  return ⟨Name.segments definition.name, definition.group, definition.mode, signatures⟩

/-- A procedure gives no result. -/
def ProcedureDefinition.toProcedure (definition : ProcedureDefinition) :
    Except ParseError Procedure := do
  let arguments ← definition.arguments.mapM ArgumentType.parse
  return ⟨Name.segments definition.name, ⟨arguments, .void⟩⟩

/-- A table-valued function gives a table. -/
def TableFunctionDefinition.toTableFunction (definition : TableFunctionDefinition) :
    Except ParseError TableFunction := do
  let arguments ← definition.arguments.mapM ArgumentType.parse
  let columns ← definition.outputColumns.mapM ColumnDefinition.toColumn
  return ⟨Name.segments definition.name, ⟨arguments, .relation⟩, .ofColumns columns⟩

/-- A resource of some kind with the name under which it is to be created. -/
structure NamedResource where
  kind : ResourceKind
  name : String
  resource : Resource kind

/-- Reads a whole batch, in the order tables, functions, procedures, table-valued functions. -/
def Definitions.resources (definitions : Definitions) :
    Except ParseError (List NamedResource) := do
  let tables ← definitions.tables.mapM fun definition =>
    return ⟨.table, definition.name, ← definition.toTable⟩
  let functions ← definitions.functions.mapM fun definition =>
    return ⟨.function, definition.name, ← definition.toFunction⟩
  let procedures ← definitions.procedures.mapM fun definition =>
    return ⟨.procedure, definition.name, ← definition.toProcedure⟩
  let tableFunctions ← definitions.tableFunctions.mapM fun definition =>
    return ⟨.tableFunction, definition.name, ← definition.toTableFunction⟩
  return tables ++ functions ++ procedures ++ tableFunctions

end SchemaCatalog
