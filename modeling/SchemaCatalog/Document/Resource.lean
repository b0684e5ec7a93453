import SchemaCatalog.Document.SqlType
import SchemaCatalog.Resource.Basic

/-!
# Resources as documents

Every resource is a record, and its parts are records in turn.  Only argument types, modes and kinds
of types have forms of their own.
-/

namespace SchemaCatalog

namespace ArgumentType

/-- A type is an object with the key `Fixed`; the other forms have only a label. -/
def toJson : ArgumentType → Json
  | fixed type => .object [("Fixed", type.toJson)]
  | relation => .string "Relation"
  | void => .string "Void"
  | any => .string "Any"

/-- The form of a label, for the forms that have no type. -/
def ofLabel? (label : String) : Option ArgumentType :=
  if label = "Relation" then some relation
  else if label = "Void" then some void
  else if label = "Any" then some any
  else none

def ofJson? : Json → Option ArgumentType
  | .object [("Fixed", type)] => (SqlType.ofJson? type).map fixed
  | json => json.label?.bind ofLabel?

end ArgumentType

namespace Signature

def toJson (signature : Signature) : Json :=
  .object [("arguments", .list ArgumentType.toJson signature.arguments),
    ("result", signature.result.toJson)]

def ofJson? (json : Json) : Option Signature := do
  let entries ← json.entries? ["arguments", "result"]
  let arguments ← Json.required "arguments" (Json.list? ArgumentType.ofJson?) entries
  let result ← Json.required "result" ArgumentType.ofJson? entries
  return ⟨arguments, result⟩

end Signature

namespace Column

def toJson (column : Column) : Json :=
  .object [("name", .string column.name), ("data_type", column.type.toJson)]

def ofJson? (json : Json) : Option Column := do
  let entries ← json.entries? ["name", "data_type"]
  let name ← Json.required "name" Json.string? entries
  let type ← Json.required "data_type" SqlType.ofJson? entries
  return ⟨name, type⟩

end Column

namespace Table

def toJson (table : Table) : Json :=
  .object [("name", .string table.name), ("full_name", .string table.fullName),
    ("columns", .list Column.toJson table.columns)]

def ofJson? (json : Json) : Option Table := do
  let entries ← json.entries? ["name", "full_name", "columns"]
  let name ← Json.required "name" Json.string? entries
  let fullName ← Json.required "full_name" Json.string? entries
  let columns ← Json.required "columns" (Json.list? Column.ofJson?) entries
  return ⟨name, fullName, columns⟩

end Table

namespace FunctionMode

def toJson (mode : FunctionMode) : Json :=
  .string mode.label

def ofJson? (json : Json) : Option FunctionMode :=
  json.label?.bind ofLabel?

end FunctionMode

namespace SqlFunction

def toJson (function : SqlFunction) : Json :=
  .object [("name_path", .list Json.string function.path), ("group", .string function.group),
    ("mode", function.mode.toJson), ("signatures", .list Signature.toJson function.signatures)]

def ofJson? (json : Json) : Option SqlFunction := do
  let entries ← json.entries? ["name_path", "group", "mode", "signatures"]
  let path ← Json.required "name_path" (Json.list? Json.string?) entries
  let group ← Json.required "group" Json.string? entries
  let mode ← Json.required "mode" FunctionMode.ofJson? entries
  let signatures ← Json.required "signatures" (Json.list? Signature.ofJson?) entries
  return ⟨path, group, mode, signatures⟩

end SqlFunction

namespace Procedure

def toJson (procedure : Procedure) : Json :=
  .object [("name_path", .list Json.string procedure.path),
    ("signature", procedure.signature.toJson)]

def ofJson? (json : Json) : Option Procedure := do
  let entries ← json.entries? ["name_path", "signature"]
  let path ← Json.required "name_path" (Json.list? Json.string?) entries
  let signature ← Json.required "signature" Signature.ofJson? entries
  return ⟨path, signature⟩

end Procedure

namespace OutputSchema

def toJson (output : OutputSchema) : Json :=
  .object [("columns", .list Column.toJson output.columns),
    ("value_table", .bool output.isValueTable)]

def ofJson? (json : Json) : Option OutputSchema := do
  let entries ← json.entries? ["columns", "value_table"]
  let columns ← Json.required "columns" (Json.list? Column.ofJson?) entries
  let isValueTable ← Json.required "value_table" Json.bool? entries
  return ⟨columns, isValueTable⟩

end OutputSchema

namespace TableFunction

def toJson (function : TableFunction) : Json :=
  .object [("name_path", .list Json.string function.path),
    ("signature", function.signature.toJson), ("output_schema", function.output.toJson)]

def ofJson? (json : Json) : Option TableFunction := do
  let entries ← json.entries? ["name_path", "signature", "output_schema"]
  let path ← Json.required "name_path" (Json.list? Json.string?) entries
  let signature ← Json.required "signature" Signature.ofJson? entries
  let output ← Json.required "output_schema" OutputSchema.ofJson? entries
  return ⟨path, signature, output⟩

end TableFunction

namespace Resource

/-- The document of a resource of a kind. -/
def toJson : (kind : ResourceKind) → Resource kind → Json
  | .table, table => Table.toJson table
  | .function, function => SqlFunction.toJson function
  | .procedure, procedure => Procedure.toJson procedure
  | .tableFunction, function => TableFunction.toJson function

/-- Reads the document of a resource of a kind. -/
def ofJson? : (kind : ResourceKind) → Json → Option (Resource kind)
  | .table => Table.ofJson?
  | .function => SqlFunction.ofJson?
  | .procedure => Procedure.ofJson?
  | .tableFunction => TableFunction.ofJson?

end Resource

end SchemaCatalog
