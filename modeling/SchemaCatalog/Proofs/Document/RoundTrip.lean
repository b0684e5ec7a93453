import SchemaCatalog.Document.Definition

/-!
# Documents read back

Reading a written document gives what was written, for types, resources and definitions of any
nesting and with any texts.
-/

namespace SchemaCatalog

namespace SqlType

mutual

@[simp] theorem ofJson?_toJson : (type : SqlType) → ofJson? type.toJson = some type
  | simple kind => by
    simp [toJson, ofJson?, Json.label?, TypeKind.ofLabel?_label]
  | array element => by
    simp [toJson, ofJson?, ofJson?_toJson element]
  | struct fields => by
    simp [toJson, ofJson?, fieldsOfJson?_fieldsToJson fields]
termination_by structural type => type

theorem fieldsOfJson?_fieldsToJson :
    (fields : List StructField) → fieldsOfJson? (fieldsToJson fields) = some fields
  | [] => rfl
  | ⟨name, type⟩ :: rest => by
    simp [fieldsToJson, fieldsOfJson?, fieldTypeOfEntries?, ofJson?_toJson type,
      fieldsOfJson?_fieldsToJson rest]
termination_by structural fields => fields

end

end SqlType

/-! ## Resources -/

@[simp] theorem Json.list?_list_string (texts : List String) :
    Json.list? Json.string? (.list Json.string texts) = some texts :=
  list?_list string?_string texts

@[simp] theorem ArgumentType.ofJson?_toJson (type : ArgumentType) :
    ofJson? type.toJson = some type := by
  cases type with
  | fixed type => simp [toJson, ofJson?]
  | relation => rfl
  | void => rfl
  | any => rfl

@[simp] theorem Signature.ofJson?_toJson (signature : Signature) :
    ofJson? signature.toJson = some signature := by
  simp [toJson, ofJson?, Json.list?_list ArgumentType.ofJson?_toJson]

@[simp] theorem Column.ofJson?_toJson (column : Column) :
    ofJson? column.toJson = some column := by
  simp [toJson, ofJson?]

@[simp] theorem Table.ofJson?_toJson (table : Table) : ofJson? table.toJson = some table := by
  simp [toJson, ofJson?, Json.list?_list Column.ofJson?_toJson]

@[simp] theorem FunctionMode.ofJson?_toJson (mode : FunctionMode) :
    ofJson? mode.toJson = some mode :=
  ofLabel?_label mode

@[simp] theorem SqlFunction.ofJson?_toJson (function : SqlFunction) :
    ofJson? function.toJson = some function := by
  simp [toJson, ofJson?, Json.list?_list Signature.ofJson?_toJson]

@[simp] theorem Procedure.ofJson?_toJson (procedure : Procedure) :
    ofJson? procedure.toJson = some procedure := by
  simp [toJson, ofJson?]

@[simp] theorem OutputSchema.ofJson?_toJson (output : OutputSchema) :
    ofJson? output.toJson = some output := by
  simp [toJson, ofJson?, Json.list?_list Column.ofJson?_toJson]

@[simp] theorem TableFunction.ofJson?_toJson (function : TableFunction) :
    ofJson? function.toJson = some function := by
  simp [toJson, ofJson?]

@[simp] theorem Resource.ofJson?_toJson (kind : ResourceKind) (resource : Resource kind) :
    ofJson? kind (toJson kind resource) = some resource := by
  cases kind with
  | table => exact Table.ofJson?_toJson resource
  | function => exact SqlFunction.ofJson?_toJson resource
  | procedure => exact Procedure.ofJson?_toJson resource
  | tableFunction => exact TableFunction.ofJson?_toJson resource

/-! ## Definitions -/

@[simp] theorem ColumnDefinition.ofJson?_toJson (definition : ColumnDefinition) :
    ofJson? definition.toJson = some definition := by
  simp [toJson, ofJson?, keys]

@[simp] theorem TableDefinition.ofJson?_toJson (definition : TableDefinition) :
    ofJson? definition.toJson = some definition := by
  simp [toJson, ofJson?, keys, Json.list?_list ColumnDefinition.ofJson?_toJson]

@[simp] theorem SignatureDefinition.ofJson?_toJson (definition : SignatureDefinition) :
    ofJson? definition.toJson = some definition := by
  simp [toJson, ofJson?, keys]

@[simp] theorem FunctionDefinition.ofJson?_toJson (definition : FunctionDefinition) :
    ofJson? definition.toJson = some definition := by
  simp [toJson, ofJson?, keys, Json.list?_list SignatureDefinition.ofJson?_toJson]

@[simp] theorem ProcedureDefinition.ofJson?_toJson (definition : ProcedureDefinition) :
    ofJson? definition.toJson = some definition := by
  simp [toJson, ofJson?, keys]

@[simp] theorem TableFunctionDefinition.ofJson?_toJson (definition : TableFunctionDefinition) :
    ofJson? definition.toJson = some definition := by
  simp [toJson, ofJson?, keys, Json.list?_list ColumnDefinition.ofJson?_toJson]

@[simp] theorem Definitions.ofJson?_toJson (definitions : Definitions) :
    ofJson? definitions.toJson = some definitions := by
  simp [toJson, ofJson?, keys, Json.list?_list TableDefinition.ofJson?_toJson,
    Json.list?_list FunctionDefinition.ofJson?_toJson,
    Json.list?_list ProcedureDefinition.ofJson?_toJson,
    Json.list?_list TableFunctionDefinition.ofJson?_toJson]

end SchemaCatalog
