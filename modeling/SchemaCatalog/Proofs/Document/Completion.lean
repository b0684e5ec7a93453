import Mathlib.Data.List.Forall2
import SchemaCatalog.Proofs.Document.RoundTrip

/-!
# Written documents are complete

A document may leave out what has a default.  Reading it and writing the value again gives a document
with every key, in which the defaults stand under the keys that were left out.
-/

namespace SchemaCatalog

namespace Json

/-- The value under a key of a record. -/
def field? (keys : List String) (key : String) (json : Json) : Option Json :=
  (json.entries? keys).bind (·.lookup key)

/-- The items of the list under a key of a record. -/
def itemsAt (keys : List String) (key : String) (json : Json) : List Json :=
  match json.field? keys key with
  | some (array items) => items
  | _ => []

/-- The second document is an object with all the keys of the record, and has the default of each
key that the first leaves out. -/
structure Completes (keys : List String) (defaults : List (String × Json)) (before after : Json) :
    Prop where
  all_keys : ∃ entries, after = object entries ∧ entries.map (·.1) = keys
  default_of_missing : ∀ key default, (key, default) ∈ defaults →
    before.field? keys key = none → after.field? keys key = some default

end Json

/-- How a document is completed, for each definition with defaults. -/
def SignatureDefinition.Completed : Json → Json → Prop :=
  Json.Completes keys [("arguments", .array [])]

structure FunctionDefinition.Completed (before after : Json) : Prop where
  completes : Json.Completes keys [("group", .string "UDF"), ("mode", .string "Scalar")] before after
  signatures : List.Forall₂ SignatureDefinition.Completed (before.itemsAt keys "signatures")
    (after.itemsAt keys "signatures")

def ProcedureDefinition.Completed : Json → Json → Prop :=
  Json.Completes keys [("arguments", .array [])]

def TableFunctionDefinition.Completed : Json → Json → Prop :=
  Json.Completes keys [("arguments", .array [])]

structure Definitions.Completed (before after : Json) : Prop where
  completes : Json.Completes keys (keys.map fun key => (key, .array [])) before after
  functions : List.Forall₂ FunctionDefinition.Completed (before.itemsAt keys "functions")
    (after.itemsAt keys "functions")
  procedures : List.Forall₂ ProcedureDefinition.Completed (before.itemsAt keys "procedures")
    (after.itemsAt keys "procedures")
  tableFunctions : List.Forall₂ TableFunctionDefinition.Completed
    (before.itemsAt keys "table_valued_functions") (after.itemsAt keys "table_valued_functions")

/-! ## What was read -/

namespace Json

variable {α : Type} {json : Json} {keys : List String} {key : String}
  {entries : List (String × Json)}

theorem field?_eq_lookup (hentries : json.entries? keys = some entries) :
    json.field? keys key = entries.lookup key := by
  rw [field?, hentries, Option.bind_some]

/-- A list that was read has one value for each item. -/
theorem forall₂_of_list? {read : Json → Option α} {items : List Json} {values : List α}
    (h : list? read (array items) = some values) :
    List.Forall₂ (fun item value => read item = some value) items values := by
  rw [list?] at h
  induction items generalizing values with
  | nil => simp_all
  | cons item rest ih =>
    obtain ⟨value, hvalue, others, hothers, rfl⟩ :
        ∃ value, read item = some value ∧ ∃ others, rest.mapM read = some others ∧
          value :: others = values := by simpa [Option.bind_eq_some_iff] using h
    exact .cons hvalue (ih hothers)

theorem forall₂_itemsAt_of_required {read : Json → Option α} {values : List α}
    (hentries : json.entries? keys = some entries)
    (h : required key (list? read) entries = some values) :
    List.Forall₂ (fun item value => read item = some value) (json.itemsAt keys key) values := by
  obtain ⟨value, hlookup, hread⟩ := Option.bind_eq_some_iff.mp h
  rw [itemsAt, field?_eq_lookup hentries, hlookup]
  cases value with
  | array items => exact forall₂_of_list? hread
  | null | bool | number | string | object => cases hread

theorem forall₂_itemsAt_of_optional {read : Json → Option α} {values : List α}
    (hentries : json.entries? keys = some entries)
    (h : optional key [] (list? read) entries = some values) :
    List.Forall₂ (fun item value => read item = some value) (json.itemsAt keys key) values := by
  cases hlookup : entries.lookup key with
  | none =>
    rw [optional, hlookup] at h
    rw [itemsAt, field?_eq_lookup hentries, hlookup, ← Option.some.inj h]
    exact .nil
  | some value =>
    rw [optional, hlookup] at h
    refine forall₂_itemsAt_of_required hentries ?_
    rw [required, hlookup, Option.bind_some]
    exact h

/-- A value whose key is left out is the default. -/
theorem eq_missing_of_optional {read : Json → Option α} {missing value : α}
    (hentries : json.entries? keys = some entries)
    (h : optional key missing read entries = some value)
    (hnone : json.field? keys key = none) : value = missing := by
  rw [field?_eq_lookup hentries] at hnone
  rw [optional, hnone] at h
  exact (Option.some.inj h).symm

/-- A record whose only default is that of its arguments. -/
theorem completes_arguments {after : Json} {arguments : List String}
    (hentries : json.entries? keys = some entries)
    (harguments : optional "arguments" [] (list? string?) entries = some arguments)
    (hkeys : ∃ entries, after = object entries ∧ entries.map (·.1) = keys)
    (hafter : after.field? keys "arguments" = some (.list .string arguments)) :
    Completes keys [("arguments", .array [])] json after := by
  refine ⟨hkeys, fun key default hmem hnone => ?_⟩
  obtain ⟨rfl, rfl⟩ : key = "arguments" ∧ default = .array [] := by simpa using hmem
  rw [hafter, eq_missing_of_optional hentries harguments hnone]
  rfl

/-- Items that are completed one by one are completed as a list that is written. -/
theorem forall₂_map_of_read {read : Json → Option α} {write : α → Json} {R : Json → Json → Prop}
    (hread : ∀ item value, read item = some value → R item (write value)) {items : List Json}
    {values : List α}
    (h : List.Forall₂ (fun item value => read item = some value) items values) :
    List.Forall₂ R items (values.map write) :=
  List.forall₂_map_right_iff.mpr (h.imp hread)

end Json

/-! ## Completed definitions -/

theorem SignatureDefinition.completed_of_ofJson? {json : Json} {definition : SignatureDefinition}
    (h : ofJson? json = some definition) : Completed json definition.toJson := by
  obtain ⟨entries, hentries, arguments, harguments, returns, -, rfl⟩ :
      ∃ entries, json.entries? keys = some entries ∧
        ∃ arguments, Json.optional "arguments" [] (Json.list? Json.string?) entries = some arguments ∧
        ∃ returns, Json.required "returns" Json.string? entries = some returns ∧
        ⟨arguments, returns⟩ = definition := by
    simpa [ofJson?, Option.bind_eq_some_iff] using h
  exact Json.completes_arguments hentries harguments ⟨_, rfl, rfl⟩ rfl

theorem FunctionDefinition.completed_of_ofJson? {json : Json} {definition : FunctionDefinition}
    (h : ofJson? json = some definition) : Completed json definition.toJson := by
  obtain ⟨entries, hentries, name, -, group, hgroup, mode, hmode, signatures, hsignatures, rfl⟩ :
      ∃ entries, json.entries? keys = some entries ∧
        ∃ name, Json.required "name" Json.string? entries = some name ∧
        ∃ group, Json.optional "group" SqlFunction.defaultGroup Json.string? entries = some group ∧
        ∃ mode, Json.optional "mode" .scalar FunctionMode.ofJson? entries = some mode ∧
        ∃ signatures, Json.required "signatures" (Json.list? SignatureDefinition.ofJson?) entries =
          some signatures ∧
        ⟨name, group, mode, signatures⟩ = definition := by
    simpa [ofJson?, Option.bind_eq_some_iff] using h
  refine ⟨⟨⟨_, rfl, rfl⟩, ?_⟩, ?_⟩
  · intro key default hmem hnone
    obtain ⟨rfl, rfl⟩ | ⟨rfl, rfl⟩ : key = "group" ∧ default = .string "UDF" ∨
        key = "mode" ∧ default = .string "Scalar" := by simpa using hmem
    · rw [Json.eq_missing_of_optional hentries hgroup hnone]
      rfl
    · rw [Json.eq_missing_of_optional hentries hmode hnone]
      rfl
  · exact Json.forall₂_map_of_read (fun _ _ => SignatureDefinition.completed_of_ofJson?)
      (Json.forall₂_itemsAt_of_required hentries hsignatures)

theorem ProcedureDefinition.completed_of_ofJson? {json : Json} {definition : ProcedureDefinition}
    (h : ofJson? json = some definition) : Completed json definition.toJson := by
  obtain ⟨entries, hentries, name, -, arguments, harguments, rfl⟩ :
      ∃ entries, json.entries? keys = some entries ∧
        ∃ name, Json.required "name" Json.string? entries = some name ∧
        ∃ arguments, Json.optional "arguments" [] (Json.list? Json.string?) entries = some arguments ∧
        ⟨name, arguments⟩ = definition := by
    simpa [ofJson?, Option.bind_eq_some_iff] using h
  exact Json.completes_arguments hentries harguments ⟨_, rfl, rfl⟩ rfl

theorem TableFunctionDefinition.completed_of_ofJson? {json : Json}
    {definition : TableFunctionDefinition} (h : ofJson? json = some definition) :
    Completed json definition.toJson := by
  obtain ⟨entries, hentries, name, -, arguments, harguments, columns, -, rfl⟩ :
      ∃ entries, json.entries? keys = some entries ∧
        ∃ name, Json.required "name" Json.string? entries = some name ∧
        ∃ arguments, Json.optional "arguments" [] (Json.list? Json.string?) entries = some arguments ∧
        ∃ columns, Json.required "output_columns" (Json.list? ColumnDefinition.ofJson?) entries =
          some columns ∧
        ⟨name, arguments, columns⟩ = definition := by
    simpa [ofJson?, Option.bind_eq_some_iff] using h
  exact Json.completes_arguments hentries harguments ⟨_, rfl, rfl⟩ rfl

theorem Definitions.completed_of_ofJson? {json : Json} {definitions : Definitions}
    (h : ofJson? json = some definitions) : Completed json definitions.toJson := by
  obtain ⟨entries, hentries, tables, htables, functions, hfunctions, procedures, hprocedures,
      tableFunctions, htableFunctions, rfl⟩ :
      ∃ entries, json.entries? keys = some entries ∧
        ∃ tables, Json.optional "tables" [] (Json.list? TableDefinition.ofJson?) entries =
          some tables ∧
        ∃ functions, Json.optional "functions" [] (Json.list? FunctionDefinition.ofJson?) entries =
          some functions ∧
        ∃ procedures, Json.optional "procedures" [] (Json.list? ProcedureDefinition.ofJson?)
          entries = some procedures ∧
        ∃ tableFunctions, Json.optional "table_valued_functions" []
          (Json.list? TableFunctionDefinition.ofJson?) entries = some tableFunctions ∧
        ⟨tables, functions, procedures, tableFunctions⟩ = definitions := by
    simpa [ofJson?, Option.bind_eq_some_iff] using h
  refine ⟨⟨⟨_, rfl, rfl⟩, ?_⟩, ?_, ?_, ?_⟩
  · intro key default hmem hnone
    obtain ⟨hkey, rfl⟩ : key ∈ keys ∧ Json.array [] = default := by simpa using hmem
    obtain rfl | rfl | rfl | rfl : key = "tables" ∨ key = "functions" ∨ key = "procedures" ∨
        key = "table_valued_functions" := by simpa [keys] using hkey
    · rw [Json.eq_missing_of_optional hentries htables hnone]
      rfl
    · rw [Json.eq_missing_of_optional hentries hfunctions hnone]
      rfl
    · rw [Json.eq_missing_of_optional hentries hprocedures hnone]
      rfl
    · rw [Json.eq_missing_of_optional hentries htableFunctions hnone]
      rfl
  · exact Json.forall₂_map_of_read (fun _ _ => FunctionDefinition.completed_of_ofJson?)
      (Json.forall₂_itemsAt_of_optional hentries hfunctions)
  · exact Json.forall₂_map_of_read (fun _ _ => ProcedureDefinition.completed_of_ofJson?)
      (Json.forall₂_itemsAt_of_optional hentries hprocedures)
  · exact Json.forall₂_map_of_read (fun _ _ => TableFunctionDefinition.completed_of_ofJson?)
      (Json.forall₂_itemsAt_of_optional hentries htableFunctions)

/-- Every type, argument type, signature, resource and batch of definitions is read back from its
document.  A batch that was read from any document is written as the completed document, and read
back from that as well. -/
theorem Definitions.documents_read_back :
    (∀ type : SqlType, SqlType.ofJson? type.toJson = some type) ∧
    (∀ type : ArgumentType, ArgumentType.ofJson? type.toJson = some type) ∧
    (∀ signature : Signature, Signature.ofJson? signature.toJson = some signature) ∧
    (∀ kind (resource : Resource kind),
      Resource.ofJson? kind (Resource.toJson kind resource) = some resource) ∧
    (∀ definitions : Definitions, ofJson? definitions.toJson = some definitions) ∧
    (∀ json definitions, ofJson? json = some definitions →
      Completed json definitions.toJson ∧ ofJson? definitions.toJson = some definitions) :=
  ⟨SqlType.ofJson?_toJson, ArgumentType.ofJson?_toJson, Signature.ofJson?_toJson,
    Resource.ofJson?_toJson, ofJson?_toJson,
    fun _ definitions h => ⟨completed_of_ofJson? h, ofJson?_toJson definitions⟩⟩

/-- A function and a procedure that say no more than they must, and a key that is not known. -/
theorem Definitions.documents_read_back_defaults :
    let json : Json := .object [
      ("functions", .array [.object [("note", .number 15 1), ("name", .string "f"),
        ("signatures", .array [.object [("returns", .string "INT64")]])]]),
      ("procedures", .array [.array [.string "p"]])]
    let definitions : Definitions :=
      ⟨[], [⟨"f", "UDF", .scalar, [⟨[], "INT64"⟩]⟩], [⟨"p", []⟩], []⟩
    ofJson? json = some definitions ∧ Completed json definitions.toJson ∧
      ofJson? definitions.toJson = some definitions :=
  ⟨rfl, documents_read_back.2.2.2.2.2 _ _ rfl⟩

end SchemaCatalog
