import SchemaCatalog.Proofs.Catalog.Batch
import SchemaCatalog.Proofs.Catalog.Flat

/-!
# The outcome of a batch

A batch is read before anything is created, so a malformed type expression is the error whatever else
is wrong.  A batch that is read has the outcome of its creates done directly on the catalog: their
result if they all succeed, and otherwise the error of the first that fails.  But where the creates
that succeed leave their resources, a batch that fails leaves nothing.
-/

namespace SchemaCatalog.Catalog

variable {nested : Bool} {mode : CreateMode} {requests : List NamedResource}
variable {definitions : Definitions} {catalog : Catalog}

/-- Does creates directly on a catalog, one after the other, and collects the outcomes. -/
def createEach (nested : Bool) (mode : CreateMode) (requests : List NamedResource)
    (catalog : Catalog) : Catalog × List (Except CatalogError Reply) :=
  runAll (Operation.run nested) (requests.map (NamedResource.create mode)) catalog

theorem createEach_cons_of_ok {request : NamedResource} {rest : List NamedResource}
    {created : Catalog} {stored : Resource request.kind}
    (h : catalog.create nested mode request.kind request.name request.resource =
      .ok (created, stored)) :
    catalog.createEach nested mode (request :: rest) =
      ((created.createEach nested mode rest).1,
        .ok (.stored request.kind stored) :: (created.createEach nested mode rest).2) := by
  rw [createEach, List.map_cons, runAll, NamedResource.create, Operation.run, h]
  rfl

theorem createEach_cons_of_error {request : NamedResource} {rest : List NamedResource}
    {error : CatalogError}
    (h : catalog.create nested mode request.kind request.name request.resource = .error error) :
    catalog.createEach nested mode (request :: rest) =
      ((catalog.createEach nested mode rest).1,
        .error error :: (catalog.createEach nested mode rest).2) := by
  rw [createEach, List.map_cons, runAll, NamedResource.create, Operation.run, h]
  rfl

-- Up to the first error the creates see the same catalogs; after it a batch does no more of them.
theorem createAll_eq_createEach (requests : List NamedResource) (catalog : Catalog) :
    catalog.createAll nested mode requests =
      match (catalog.createEach nested mode requests).2.findSome? failure? with
      | some error => .error error
      | none => .ok (catalog.createEach nested mode requests).1 := by
  induction requests generalizing catalog with
  | nil => rfl
  | cons request rest ih =>
    rw [createAll]
    cases hcreate : catalog.create nested mode request.kind request.name request.resource with
    | error error =>
      rw [createEach_cons_of_error hcreate]
      rfl
    | ok result =>
      cases result with | mk created stored
      rw [createEach_cons_of_ok hcreate]
      exact ih created

theorem createAll_eq_ok_iff_createEach {created : Catalog} :
    catalog.createAll nested mode requests = .ok created ↔
      (∀ outcome ∈ (catalog.createEach nested mode requests).2, ∃ reply, outcome = .ok reply) ∧
        (catalog.createEach nested mode requests).1 = created := by
  have hall : (∀ outcome ∈ (catalog.createEach nested mode requests).2,
      ∃ reply, outcome = .ok reply) ↔
        (catalog.createEach nested mode requests).2.findSome? failure? = none := by
    simp only [List.findSome?_eq_none_iff, failure?_eq_none_iff]
  rw [hall, createAll_eq_createEach]
  cases (catalog.createEach nested mode requests).2.findSome? failure? <;> simp

theorem createAll_eq_error_iff_createEach {error : CatalogError} :
    catalog.createAll nested mode requests = .error error ↔
      ∃ front back, (catalog.createEach nested mode requests).2 = front ++ .error error :: back ∧
        ∀ outcome ∈ front, ∃ reply, outcome = .ok reply := by
  have hfirst : catalog.createAll nested mode requests = .error error ↔
      (catalog.createEach nested mode requests).2.findSome? failure? = some error := by
    rw [createAll_eq_createEach]
    cases (catalog.createEach nested mode requests).2.findSome? failure? <;> simp
  rw [hfirst, List.findSome?_eq_some_iff]
  constructor
  · rintro ⟨front, outcome, back, houtcomes, hfails, hfront⟩
    rw [failure?_eq_some_iff.mp hfails] at houtcomes
    exact ⟨front, back, houtcomes, fun earlier h => failure?_eq_none_iff.mp (hfront earlier h)⟩
  · rintro ⟨front, back, houtcomes, hfront⟩
    exact ⟨front, .error error, back, houtcomes, rfl, fun earlier h =>
      failure?_eq_none_iff.mpr (hfront earlier h)⟩

/-! ## Whole batches -/

theorem applyDefinitions_of_malformed {error : ParseError}
    (h : definitions.typeTexts.findSome? TypeText.malformed? = some error) :
    catalog.applyDefinitions nested mode definitions = .error (.typeParse error) := by
  rw [← failure?_resources, failure?_eq_some_iff] at h
  rw [applyDefinitions, h]

theorem exists_resources_of_wellFormed
    (h : definitions.typeTexts.findSome? TypeText.malformed? = none) :
    ∃ requests, definitions.resources = .ok requests ∧
      definitions.all.map Definition.read = requests.map .ok := by
  rw [← failure?_resources, failure?_eq_none_iff] at h
  rcases h with ⟨requests, hrequests⟩
  refine ⟨requests, hrequests, map_eq_map_ok_of_mapM ?_⟩
  rw [← hrequests, Definitions.resources_eq_mapM_read]

theorem runAll_applyDefinitions_of_error {error : CatalogError}
    (h : catalog.applyDefinitions nested mode definitions = .error error)
    (operations : List Operation) :
    runAll (Operation.run nested) (.applyDefinitions mode definitions :: operations) catalog =
      ((runAll (Operation.run nested) operations catalog).1,
        .error error :: (runAll (Operation.run nested) operations catalog).2) := by
  rw [runAll, Operation.run, h]
  rfl

/-- **A batch is applied wholly or not at all.**  The first malformed type expression gives the error.
Without one the batch succeeds if and only if its creates would succeed one after the other on the
catalog, with the same result, and otherwise its error is the error of the first that fails.  Whatever
is done after a batch that fails is done on the catalog as it was before. -/
theorem applyDefinitions_outcome (nested : Bool) (mode : CreateMode) (definitions : Definitions)
    (catalog : Catalog) :
    (∀ error, definitions.typeTexts.findSome? TypeText.malformed? = some error →
      catalog.applyDefinitions nested mode definitions = .error (.typeParse error)) ∧
    (definitions.typeTexts.findSome? TypeText.malformed? = none →
      ∃ requests, definitions.all.map Definition.read = requests.map .ok ∧
        (∀ applied, catalog.applyDefinitions nested mode definitions = .ok applied ↔
          (∀ outcome ∈ (catalog.createEach nested mode requests).2, ∃ reply, outcome = .ok reply) ∧
            (catalog.createEach nested mode requests).1 = applied) ∧
        ∀ error, catalog.applyDefinitions nested mode definitions = .error error ↔
          ∃ front back,
            (catalog.createEach nested mode requests).2 = front ++ .error error :: back ∧
            ∀ outcome ∈ front, ∃ reply, outcome = .ok reply) ∧
    (∀ error, catalog.applyDefinitions nested mode definitions = .error error →
      ∀ operations,
        runAll (Operation.run nested) (.applyDefinitions mode definitions :: operations) catalog =
          ((runAll (Operation.run nested) operations catalog).1,
            .error error :: (runAll (Operation.run nested) operations catalog).2)) := by
  refine ⟨fun error h => applyDefinitions_of_malformed h, fun h => ?_,
    fun error h => runAll_applyDefinitions_of_error h⟩
  rcases exists_resources_of_wellFormed h with ⟨requests, hrequests, hread⟩
  have happly : catalog.applyDefinitions nested mode definitions =
      catalog.createAll nested mode requests := by
    rw [applyDefinitions, hrequests]
  refine ⟨requests, hread, fun applied => ?_, fun error => ?_⟩
  · rw [happly]
    exact createAll_eq_ok_iff_createEach
  · rw [happly]
    exact createAll_eq_error_iff_createEach

-- The malformed argument counts before the blank segment of the earlier name.  Of the two tables with
-- one key the creates leave the first, the batch none.
theorem applyDefinitions_outcome_conflicts :
    (new "root").applyDefinitions true .createDefault ⟨[⟨"a..b", []⟩], [], [⟨"p", [""]⟩], []⟩ =
      .error (.typeParse ⟨.unexpectedEnd, "", 0⟩) ∧
    (∃ requests, [⟨.table, "t", ⟨"t", "t", []⟩⟩, ⟨.table, "T", ⟨"T", "T", []⟩⟩] = requests ∧
      ((new "root").createEach true .createDefault requests).1.tables.keys = ["t"] ∧
      (new "root").applyDefinitions true .createDefault ⟨[⟨"t", []⟩, ⟨"T", []⟩], [], [], []⟩ =
        .error (.alreadyExists (.resource .table) "T")) ∧
    (runAll (Operation.run true) [.applyDefinitions .createDefault
      ⟨[⟨"t", []⟩, ⟨"T", []⟩], [], [], []⟩] (new "root")).1.tables.keys = [] := by
  have hempty : (TypeText.argument "").malformed? = some ⟨.unexpectedEnd, "", 0⟩ := by
    decide +kernel
  have hmalformed := applyDefinitions_outcome true .createDefault
    ⟨[⟨"a..b", []⟩], [], [⟨"p", [""]⟩], []⟩ (new "root")
  have htaken := applyDefinitions_outcome true .createDefault
    ⟨[⟨"t", []⟩, ⟨"T", []⟩], [], [], []⟩ (new "root")
  rcases htaken.2.1 rfl with ⟨requests, hread, -, herror⟩
  obtain rfl : [⟨.table, "t", ⟨"t", "t", []⟩⟩, ⟨.table, "T", ⟨"T", "T", []⟩⟩] = requests :=
    (List.map_inj_right fun _ _ h => Except.ok.inj h).mp hread
  have hfails := (herror (.alreadyExists (.resource .table) "T")).mpr
    ⟨[.ok (.stored .table ⟨"t", "t", []⟩)], [], rfl, by simp⟩
  have hfirst : (⟨[⟨"a..b", []⟩], [], [⟨"p", [""]⟩], []⟩ : Definitions).typeTexts.findSome?
      TypeText.malformed? = some ⟨.unexpectedEnd, "", 0⟩ := by
    show [TypeText.argument ""].findSome? TypeText.malformed? = _
    rw [List.findSome?_singleton, hempty]
  refine ⟨hmalformed.1 _ hfirst, ⟨_, rfl, rfl, hfails⟩, ?_⟩
  rw [htaken.2.2 _ hfails []]
  rfl

end SchemaCatalog.Catalog
