import SchemaCatalog.Definition
import SchemaCatalog.Document.Resource

/-!
# Definitions as documents

Definitions may leave out what has a default: the group and mode of a function, arguments, and whole
lists of a batch.  Written documents spell every default out.
-/

namespace SchemaCatalog

namespace ColumnDefinition

def keys : List String := ["name", "type"]

def toJson (definition : ColumnDefinition) : Json :=
  .object [("name", .string definition.name), ("type", .string definition.type)]

def ofJson? (json : Json) : Option ColumnDefinition := do
  let entries ← json.entries? keys
  let name ← Json.required "name" Json.string? entries
  let type ← Json.required "type" Json.string? entries
  return ⟨name, type⟩

end ColumnDefinition

namespace TableDefinition

def keys : List String := ["name", "columns"]

def toJson (definition : TableDefinition) : Json :=
  .object [("name", .string definition.name),
    ("columns", .list ColumnDefinition.toJson definition.columns)]

def ofJson? (json : Json) : Option TableDefinition := do
  let entries ← json.entries? keys
  let name ← Json.required "name" Json.string? entries
  let columns ← Json.required "columns" (Json.list? ColumnDefinition.ofJson?) entries
  return ⟨name, columns⟩

end TableDefinition

namespace SignatureDefinition

def keys : List String := ["arguments", "returns"]

def toJson (definition : SignatureDefinition) : Json :=
  .object [("arguments", .list Json.string definition.arguments),
    ("returns", .string definition.returns)]

def ofJson? (json : Json) : Option SignatureDefinition := do
  let entries ← json.entries? keys
  let arguments ← Json.optional "arguments" [] (Json.list? Json.string?) entries
  let returns ← Json.required "returns" Json.string? entries
  return ⟨arguments, returns⟩

end SignatureDefinition

namespace FunctionDefinition

def keys : List String := ["name", "group", "mode", "signatures"]

def toJson (definition : FunctionDefinition) : Json :=
  .object [("name", .string definition.name), ("group", .string definition.group),
    ("mode", definition.mode.toJson),
    ("signatures", .list SignatureDefinition.toJson definition.signatures)]

def ofJson? (json : Json) : Option FunctionDefinition := do
  let entries ← json.entries? keys
  let name ← Json.required "name" Json.string? entries
  let group ← Json.optional "group" SqlFunction.defaultGroup Json.string? entries
  let mode ← Json.optional "mode" .scalar FunctionMode.ofJson? entries
  let signatures ← Json.required "signatures" (Json.list? SignatureDefinition.ofJson?) entries
  return ⟨name, group, mode, signatures⟩

end FunctionDefinition

namespace ProcedureDefinition

def keys : List String := ["name", "arguments"]

def toJson (definition : ProcedureDefinition) : Json :=
  .object [("name", .string definition.name),
    ("arguments", .list Json.string definition.arguments)]

def ofJson? (json : Json) : Option ProcedureDefinition := do
  let entries ← json.entries? keys
  let name ← Json.required "name" Json.string? entries
  let arguments ← Json.optional "arguments" [] (Json.list? Json.string?) entries
  return ⟨name, arguments⟩

end ProcedureDefinition

namespace TableFunctionDefinition

def keys : List String := ["name", "arguments", "output_columns"]

def toJson (definition : TableFunctionDefinition) : Json :=
  .object [("name", .string definition.name),
    ("arguments", .list Json.string definition.arguments),
    ("output_columns", .list ColumnDefinition.toJson definition.outputColumns)]

def ofJson? (json : Json) : Option TableFunctionDefinition := do
  let entries ← json.entries? keys
  let name ← Json.required "name" Json.string? entries
  let arguments ← Json.optional "arguments" [] (Json.list? Json.string?) entries
  let outputColumns ← Json.required "output_columns" (Json.list? ColumnDefinition.ofJson?) entries
  return ⟨name, arguments, outputColumns⟩

end TableFunctionDefinition

namespace Definitions

def keys : List String := ["tables", "functions", "procedures", "table_valued_functions"]

def toJson (definitions : Definitions) : Json :=
  .object [("tables", .list TableDefinition.toJson definitions.tables),
    ("functions", .list FunctionDefinition.toJson definitions.functions),
    ("procedures", .list ProcedureDefinition.toJson definitions.procedures),
    ("table_valued_functions",
      .list TableFunctionDefinition.toJson definitions.tableFunctions)]

def ofJson? (json : Json) : Option Definitions := do
  let entries ← json.entries? keys
  let tables ← Json.optional "tables" [] (Json.list? TableDefinition.ofJson?) entries
  let functions ← Json.optional "functions" [] (Json.list? FunctionDefinition.ofJson?) entries
  let procedures ← Json.optional "procedures" [] (Json.list? ProcedureDefinition.ofJson?) entries
  let tableFunctions ←
    Json.optional "table_valued_functions" [] (Json.list? TableFunctionDefinition.ofJson?) entries
  return ⟨tables, functions, procedures, tableFunctions⟩

end Definitions

end SchemaCatalog
