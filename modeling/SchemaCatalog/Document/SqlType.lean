import SchemaCatalog.Document.Json
import SchemaCatalog.SqlType.Basic

/-!
# Types as documents

A type is an object with one key that tells its form: `Simple` with the label of a kind, `Array` with
the element type, or `Struct` with the list of fields.
-/

namespace SchemaCatalog.SqlType

mutual

def toJson : SqlType → Json
  | simple kind => .object [("Simple", .string kind.label)]
  | array element => .object [("Array", element.toJson)]
  | struct fields => .object [("Struct", .array (fieldsToJson fields))]
termination_by structural type => type

/-- A field is an object with a name and a type. -/
def fieldsToJson : List StructField → List Json
  | [] => []
  | ⟨name, type⟩ :: rest =>
    .object [("name", .string name), ("field_type", type.toJson)] :: fieldsToJson rest
termination_by structural fields => fields

end

mutual

def ofJson? : Json → Option SqlType
  | .object [(form, part)] =>
    if form = "Simple" then (part.label?.bind TypeKind.ofLabel?).map simple
    else if form = "Array" then (ofJson? part).map array
    else if form = "Struct" then
      match part with
      | .array items => (fieldsOfJson? items).map struct
      | _ => none
    else none
  | _ => none
termination_by structural json => json

def fieldsOfJson? : List Json → Option (List StructField)
  | [] => some []
  | .object entries :: rest => do
    let known ← Json.entries? ["name", "field_type"] (.object entries)
    let name ← Json.required "name" Json.string? known
    let type ← fieldTypeOfEntries? entries
    let fields ← fieldsOfJson? rest
    return ⟨name, type⟩ :: fields
  | .array [name, type] :: rest => do
    let name ← name.string?
    let type ← ofJson? type
    let fields ← fieldsOfJson? rest
    return ⟨name, type⟩ :: fields
  | _ :: _ => none
termination_by structural items => items

/-- The type among the entries of a field. -/
def fieldTypeOfEntries? : List (String × Json) → Option SqlType
  | [] => none
  | (key, part) :: rest =>
    if key = "field_type" then ofJson? part else fieldTypeOfEntries? rest
termination_by structural entries => entries

end

end SchemaCatalog.SqlType
