import SchemaCatalog.Definition
import SchemaCatalog.Proofs.Catalog.Operation

/-!
# Batches as lists

The four lists of a batch are one list of definitions, in the order in which they are read and
created, and a batch is read definition by definition.  So what permutes the definitions permutes the
resources, and a batch is malformed if one of its type expressions is: the first of them gives the
error.
-/

namespace SchemaCatalog

/-! ## Readings that fail -/

section Failure

variable {ε α β : Type}

/-- The error of an outcome that is one. -/
def failure? : Except ε α → Option ε
  | .ok _ => none
  | .error error => some error

theorem failure?_eq_some_iff {outcome : Except ε α} {error : ε} :
    failure? outcome = some error ↔ outcome = .error error := by
  cases outcome <;> simp [failure?]

theorem failure?_eq_none_iff {outcome : Except ε α} :
    failure? outcome = none ↔ ∃ value, outcome = .ok value := by
  cases outcome <;> simp [failure?]

-- What is read second fails in the same way whatever the first gives.
theorem failure?_bind {first : Except ε α} {next : α → Except ε β} {second : Option ε}
    (h : ∀ value, failure? (next value) = second) :
    failure? (first >>= next) = (failure? first).or second := by
  cases first with
  | error error => rfl
  | ok value => exact h value

theorem failure?_bind_return (first : Except ε α) (f : α → β) :
    failure? (first >>= fun value => return f value) = failure? first := by
  cases first <;> rfl

theorem failure?_mapM (f : α → Except ε β) (list : List α) :
    failure? (list.mapM f) = list.findSome? fun value => failure? (f value) := by
  induction list with
  | nil => rfl
  | cons value rest ih =>
    rw [List.mapM_cons, List.findSome?_cons,
      failure?_bind fun _ => (failure?_bind_return _ _).trans ih]
    cases failure? (f value) <;> rfl

theorem findSome?_flatMap {γ : Type} (f : α → List β) (g : β → Option γ) (list : List α) :
    (list.flatMap f).findSome? g = list.findSome? fun value => (f value).findSome? g := by
  induction list with
  | nil => rfl
  | cons value rest ih =>
    rw [List.flatMap_cons, List.findSome?_append, List.findSome?_cons, ih]
    cases (f value).findSome? g <;> rfl

theorem mapM_cons_eq_ok_iff {f : α → Except ε β} {value : α} {rest : List α} {results : List β} :
    (value :: rest).mapM f = .ok results ↔
      ∃ result others, f value = .ok result ∧ rest.mapM f = .ok others ∧
        results = result :: others := by
  rw [List.mapM_cons]
  cases f value with
  | error error => simp [bind, Except.bind]
  | ok result =>
    cases rest.mapM f with
    | error error => simp [bind, Except.bind]
    | ok others => simp [bind, Except.bind, pure, Except.pure, eq_comm]

theorem map_eq_map_ok_of_mapM {f : α → Except ε β} {list : List α} {results : List β}
    (h : list.mapM f = .ok results) : list.map f = results.map .ok := by
  induction list generalizing results with
  | nil =>
    cases h
    rfl
  | cons value rest ih =>
    rcases mapM_cons_eq_ok_iff.mp h with ⟨result, others, hvalue, hrest, rfl⟩
    rw [List.map_cons, List.map_cons, hvalue, ih hrest]

theorem exists_perm_of_mapM {f : α → Except ε β} {first second : List α} {results : List β}
    (hperm : first.Perm second) (h : first.mapM f = .ok results) :
    ∃ others, second.mapM f = .ok others ∧ results.Perm others := by
  induction hperm generalizing results with
  | nil => exact ⟨results, h, .refl _⟩
  | cons value _ ih =>
    rcases mapM_cons_eq_ok_iff.mp h with ⟨result, rest, hvalue, hrest, rfl⟩
    rcases ih hrest with ⟨others, hothers, hpermuted⟩
    exact ⟨result :: others, mapM_cons_eq_ok_iff.mpr ⟨_, _, hvalue, hothers, rfl⟩,
      hpermuted.cons result⟩
  | swap value other list =>
    rcases mapM_cons_eq_ok_iff.mp h with ⟨result, _, hvalue, hrest, rfl⟩
    rcases mapM_cons_eq_ok_iff.mp hrest with ⟨next, rest, hother, hlist, rfl⟩
    have hvalues := mapM_cons_eq_ok_iff.mpr ⟨_, _, hvalue, hlist, rfl⟩
    exact ⟨next :: result :: rest, mapM_cons_eq_ok_iff.mpr ⟨_, _, hother, hvalues, rfl⟩,
      .swap next result rest⟩
  | trans _ _ ihfirst ihsecond =>
    rcases ihfirst h with ⟨between, hbetween, hpermuted⟩
    rcases ihsecond hbetween with ⟨others, hothers, hagain⟩
    exact ⟨others, hothers, hpermuted.trans hagain⟩

end Failure

/-! ## One list of definitions -/

/-- A definition of any kind. -/
inductive Definition where
  | table (definition : TableDefinition)
  | function (definition : FunctionDefinition)
  | procedure (definition : ProcedureDefinition)
  | tableFunction (definition : TableFunctionDefinition)

def Definition.read : Definition → Except ParseError NamedResource
  | table definition => return ⟨.table, definition.name, ← definition.toTable⟩
  | function definition => return ⟨.function, definition.name, ← definition.toFunction⟩
  | procedure definition => return ⟨.procedure, definition.name, ← definition.toProcedure⟩
  | tableFunction definition =>
    return ⟨.tableFunction, definition.name, ← definition.toTableFunction⟩

namespace Definitions

/-- The definitions of a batch in the order in which they are created. -/
def all (definitions : Definitions) : List Definition :=
  definitions.tables.map .table ++ definitions.functions.map .function ++
    definitions.procedures.map .procedure ++ definitions.tableFunctions.map .tableFunction

theorem resources_eq_mapM_read (definitions : Definitions) :
    definitions.resources = definitions.all.mapM Definition.read := by
  simp only [all, List.mapM_append, List.mapM_map, bind_assoc, pure_bind]
  rfl

/-- Each of the four lists of one batch is a permutation of that of the other. -/
structure Permuted (first second : Definitions) : Prop where
  tables : first.tables.Perm second.tables
  functions : first.functions.Perm second.functions
  procedures : first.procedures.Perm second.procedures
  tableFunctions : first.tableFunctions.Perm second.tableFunctions

theorem Permuted.symm {first second : Definitions} (h : first.Permuted second) :
    second.Permuted first :=
  ⟨h.tables.symm, h.functions.symm, h.procedures.symm, h.tableFunctions.symm⟩

theorem Permuted.all {first second : Definitions} (h : first.Permuted second) :
    first.all.Perm second.all :=
  (((h.tables.map _).append (h.functions.map _)).append (h.procedures.map _)).append
    (h.tableFunctions.map _)

theorem Permuted.exists_resources {first second : Definitions} {requests : List NamedResource}
    (h : first.Permuted second) (hrequests : first.resources = .ok requests) :
    ∃ others, second.resources = .ok others ∧ requests.Perm others := by
  rw [resources_eq_mapM_read] at hrequests ⊢
  exact exists_perm_of_mapM h.all hrequests

end Definitions

/-! ## Type expressions -/

/-- A type expression in a definition.  Arguments and results of routines may be more than types. -/
inductive TypeText where
  | column (text : String)
  | argument (text : String)

/-- The error of a type expression that is malformed. -/
def TypeText.malformed? : TypeText → Option ParseError
  | column text => failure? (SqlType.parse text)
  | argument text => failure? (ArgumentType.parse text)

def ColumnDefinition.typeText (definition : ColumnDefinition) : TypeText :=
  .column definition.type

/-- The arguments from left to right, then the result. -/
def SignatureDefinition.typeTexts (definition : SignatureDefinition) : List TypeText :=
  definition.arguments.map .argument ++ [.argument definition.returns]

/-- The type expressions of a definition from left to right. -/
def Definition.typeTexts : Definition → List TypeText
  | table definition => definition.columns.map ColumnDefinition.typeText
  | function definition => definition.signatures.flatMap SignatureDefinition.typeTexts
  | procedure definition => definition.arguments.map .argument
  | tableFunction definition =>
    definition.arguments.map .argument ++ definition.outputColumns.map ColumnDefinition.typeText

def Definitions.typeTexts (definitions : Definitions) : List TypeText :=
  definitions.all.flatMap Definition.typeTexts

theorem failure?_mapM_toColumn (columns : List ColumnDefinition) :
    failure? (columns.mapM ColumnDefinition.toColumn) =
      (columns.map ColumnDefinition.typeText).findSome? TypeText.malformed? := by
  have hcolumn : ∀ column : ColumnDefinition,
      failure? column.toColumn = column.typeText.malformed? := fun column =>
    failure?_bind_return (SqlType.parse column.type) _
  simp only [failure?_mapM, List.findSome?_map, hcolumn, Function.comp_def]

theorem failure?_mapM_parse (arguments : List String) :
    failure? (arguments.mapM ArgumentType.parse) =
      (arguments.map TypeText.argument).findSome? TypeText.malformed? := by
  simp only [failure?_mapM, List.findSome?_map, TypeText.malformed?, Function.comp_def]

theorem failure?_toSignature (definition : SignatureDefinition) :
    failure? definition.toSignature = definition.typeTexts.findSome? TypeText.malformed? := by
  rw [SignatureDefinition.toSignature, failure?_bind fun _ => failure?_bind_return _ _,
    failure?_mapM_parse, SignatureDefinition.typeTexts, List.findSome?_append,
    List.findSome?_singleton, TypeText.malformed?]

theorem failure?_read (definition : Definition) :
    failure? definition.read = definition.typeTexts.findSome? TypeText.malformed? := by
  cases definition with
  | table definition =>
    rw [Definition.read, failure?_bind_return, TableDefinition.toTable, failure?_bind_return]
    exact failure?_mapM_toColumn definition.columns
  | function definition =>
    rw [Definition.read, failure?_bind_return, FunctionDefinition.toFunction, failure?_bind_return,
      failure?_mapM, Definition.typeTexts, findSome?_flatMap]
    congr 1
    funext signature
    exact failure?_toSignature signature
  | procedure definition =>
    rw [Definition.read, failure?_bind_return, ProcedureDefinition.toProcedure, failure?_bind_return]
    exact failure?_mapM_parse definition.arguments
  | tableFunction definition =>
    rw [Definition.read, failure?_bind_return, TableFunctionDefinition.toTableFunction,
      failure?_bind fun _ => failure?_bind_return _ _, failure?_mapM_parse, failure?_mapM_toColumn,
      Definition.typeTexts, List.findSome?_append]

/-- The first malformed type expression of a batch gives the error. -/
theorem failure?_resources (definitions : Definitions) :
    failure? definitions.resources = definitions.typeTexts.findSome? TypeText.malformed? := by
  rw [Definitions.resources_eq_mapM_read, failure?_mapM, Definitions.typeTexts, findSome?_flatMap]
  congr 1
  funext definition
  exact failure?_read definition

end SchemaCatalog
