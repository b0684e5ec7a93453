import SchemaCatalog.Catalog.Batch
import SchemaCatalog.Catalog.Delete
import SchemaCatalog.Proofs.Catalog.Chain

/-!
# Operations on a catalog

The creates and deletes that take a dotted name, as data.  An operation fails and changes nothing, or
gives the changed catalog with its reply.
-/

namespace SchemaCatalog

inductive Operation where
  | create (mode : CreateMode) (kind : ResourceKind) (name : String) (resource : Resource kind)
  | delete (kind : ResourceKind) (name : String)
  | deleteFunctionByFullName (fullName : String)
  | applyDefinitions (mode : CreateMode) (definitions : Definitions)

def NamedResource.create (mode : CreateMode) (request : NamedResource) : Operation :=
  .create mode request.kind request.name request.resource

/-- What an operation answers: a create gives the resource that is stored then. -/
inductive Reply where
  | stored (kind : ResourceKind) (resource : Resource kind)
  | done

def Operation.run (nested : Bool) (catalog : Catalog) :
    Operation → Except CatalogError (Catalog × Reply)
  | create mode kind name resource =>
    (catalog.create nested mode kind name resource).map fun (created, stored) =>
      (created, .stored kind stored)
  | delete kind name => (catalog.delete nested kind name).map (·, .done)
  | deleteFunctionByFullName fullName =>
    (catalog.deleteFunctionByFullName nested fullName).map (·, .done)
  | applyDefinitions mode definitions =>
    (catalog.applyDefinitions nested mode definitions).map (·, .done)

/-- Whether an operation deletes; the others create. -/
def Operation.deletes : Operation → Bool
  | delete _ _ => true
  | deleteFunctionByFullName _ => true
  | create _ _ _ _ => false
  | applyDefinitions _ _ => false

namespace Catalog

/-! ## What it takes to succeed -/

theorem bind_eq_ok_iff {ε α β : Type} {first : Except ε α} {next : α → Except ε β} {result : β} :
    first >>= next = .ok result ↔ ∃ value, first = .ok value ∧ next value = .ok result := by
  cases first with
  | error error => simp [bind, Except.bind]
  | ok value => simp [bind, Except.bind]

theorem map_eq_ok_iff {α β : Type} {first : Except CatalogError α} {f : α → β} {result : β} :
    first.map f = .ok result ↔ ∃ value, first = .ok value ∧ f value = result := by
  cases first with
  | error error => simp [Except.map]
  | ok value => simp [Except.map]

theorem create_eq_ok_iff {nested : Bool} {mode : CreateMode} {kind : ResourceKind} {name : String}
    {resource stored : Resource kind} {catalog created : Catalog} :
    catalog.create nested mode kind name resource = .ok (created, stored) ↔
      ∃ places, Place.ofName nested name = .ok places ∧ resource.validate kind = .ok () ∧
        ((mode = .createIfNotExists ∧
            places.findSome? (catalog.occupant? kind resource) = some stored ∧ catalog = created) ∨
          ((places.findSome? (catalog.occupant? kind resource) = none ∨ mode = .createOrReplace) ∧
            resource = stored ∧ places.foldl (register kind resource) catalog = created)) := by
  unfold create
  rw [bind_eq_ok_iff]
  refine exists_congr fun places => and_congr_right fun _ => ?_
  generalize places.findSome? (catalog.occupant? kind resource) = found
  rw [bind_eq_ok_iff]
  cases hvalid : resource.validate kind with
  | error error => simp
  | ok _ => cases found <;> cases mode <;> simp [and_comm]

theorem createAll_cons_eq_ok_iff {nested : Bool} {mode : CreateMode} {request : NamedResource}
    {rest : List NamedResource} {catalog created : Catalog} :
    catalog.createAll nested mode (request :: rest) = .ok created ↔
      ∃ next stored,
        catalog.create nested mode request.kind request.name request.resource = .ok (next, stored) ∧
        next.createAll nested mode rest = .ok created := by
  cases request with | mk kind name resource
  rw [createAll]
  cases catalog.create nested mode kind name resource with
  | error error => simp
  | ok result =>
    cases result with | mk next stored
    simp

theorem applyDefinitions_eq_ok_iff {nested : Bool} {mode : CreateMode} {definitions : Definitions}
    {catalog applied : Catalog} :
    catalog.applyDefinitions nested mode definitions = .ok applied ↔
      ∃ requests, definitions.resources = .ok requests ∧
        catalog.createAll nested mode requests = .ok applied := by
  rw [applyDefinitions]
  cases definitions.resources with
  | error error => simp
  | ok requests => simp

theorem deleteSelected_eq_ok_iff {nested : Bool} {kind : ResourceKind} {identity name : String}
    {selects : Selection} {catalog deleted : Catalog} :
    catalog.deleteSelected nested kind identity name selects = .ok deleted ↔
      ∃ places, Place.ofName nested name = .ok places ∧
        places.any (catalog.holdsAt kind selects) = true ∧
        prunePlaces places (places.foldl (unregister kind selects) catalog) = deleted := by
  unfold deleteSelected
  rw [bind_eq_ok_iff]
  refine exists_congr fun places => and_congr_right fun _ => ?_
  by_cases hholds : places.any (catalog.holdsAt kind selects) = true
  · rw [if_pos hholds, Except.ok.injEq, and_iff_right hholds]
  · rw [if_neg hholds]
    simp [hholds]

-- Every delete is a delete by some selection.
theorem delete_eq_ok {nested : Bool} {kind : ResourceKind} {name : String}
    {catalog deleted : Catalog} (h : catalog.delete nested kind name = .ok deleted) :
    ∃ kind identity name selects,
      catalog.deleteSelected nested kind identity name selects = .ok deleted := by
  unfold delete at h
  split at h
  · unfold deleteFunctionByFullName at h
    split at h
    · cases h
    · exact ⟨_, _, _, _, h⟩
  · exact ⟨_, _, _, _, h⟩

theorem deleteFunctionByFullName_eq_ok {nested : Bool} {fullName : String}
    {catalog deleted : Catalog}
    (h : catalog.deleteFunctionByFullName nested fullName = .ok deleted) :
    ∃ identity name selects,
      catalog.deleteSelected nested .function identity name selects = .ok deleted := by
  unfold deleteFunctionByFullName at h
  split at h
  · cases h
  · exact ⟨_, _, _, h⟩

/-- A group that holds no colon is read off the full name. -/
theorem deleteFunctionByFullName_qualify {group : String} (hgroup : ':' ∉ group.toList)
    (nested : Bool) (name : String) (catalog : Catalog) :
    catalog.deleteFunctionByFullName nested (Name.qualify group name) =
      catalog.deleteSelected nested .function (Name.qualify group name) name
        fun placeName key => key == Name.fold (Name.qualify group placeName) := by
  rw [deleteFunctionByFullName, Name.splitQualified?_qualify hgroup]

theorem delete_qualify (nested : Bool) (group name : String) (catalog : Catalog) :
    catalog.delete nested .function (Name.qualify group name) =
      catalog.deleteFunctionByFullName nested (Name.qualify group name) := by
  have hcolon : ':' ∈ (Name.qualify group name).toList := by simp [Name.qualify]
  rw [delete, if_pos ⟨rfl, hcolon⟩]

theorem add_eq_ok {kind : ResourceKind} {resource : Resource kind} {node changed : Catalog}
    (h : node.add kind resource = .ok changed) :
    resource.validate kind = .ok () ∧
      changed = node.store kind resource (resource.defaultName kind) := by
  rcases bind_eq_ok_iff.mp h with ⟨_, hvalid, hadd⟩
  simp only at hadd
  split at hadd
  · cases hadd
  · cases hadd
    exact ⟨hvalid, rfl⟩

theorem subCatalog?_eq_none {catalog : Catalog} {name : String}
    (h : ¬ catalog.catalogs.contains name = true) : catalog.subCatalog? name = none :=
  Option.not_isSome_iff_eq_none.mp h

theorem addSubCatalog_eq_ok {node sub changed : Catalog}
    (h : node.addSubCatalog sub = .ok changed) :
    node.subCatalog? sub.name = none ∧
      changed = { node with catalogs := node.catalogs.insert sub.name sub } := by
  rw [addSubCatalog] at h
  split at h
  · cases h
  · rename_i hfree
    cases h
    exact ⟨subCatalog?_eq_none hfree, rfl⟩

theorem ensureSubCatalog_cases (node : Catalog) (name : String) :
    node.ensureSubCatalog name = node ∨
      node.subCatalog? name = none ∧ node.ensureSubCatalog name =
        { node with catalogs := node.catalogs.insert name (new name) } := by
  rw [ensureSubCatalog]
  split
  · exact Or.inl rfl
  · rename_i hfree
    exact Or.inr ⟨subCatalog?_eq_none hfree, rfl⟩

/-! ## Operations as descents -/

variable {nested : Bool} {mode : CreateMode} {kind : ResourceKind} {name : String}

theorem eq_or_eq_registerAlong_of_create {resource stored : Resource kind}
    {catalog created : Catalog}
    (h : catalog.create nested mode kind name resource = .ok (created, stored)) :
    resource.validate kind = .ok () ∧ (created = catalog ∨
      created = catalog.registerAlong kind resource (Place.chain nested name)) := by
  rcases create_eq_ok_iff.mp h with ⟨places, hplaces, hvalid, ⟨-, -, rfl⟩ | ⟨-, -, rfl⟩⟩
  · exact ⟨hvalid, Or.inl rfl⟩
  · rw [Place.eq_splits_of_ofName hplaces, foldl_register_splits]
    exact ⟨hvalid, Or.inr rfl⟩

theorem eq_unregisterAlong_of_deleteSelected {identity : String} {selects : Selection}
    {catalog deleted : Catalog}
    (h : catalog.deleteSelected nested kind identity name selects = .ok deleted) :
    deleted = catalog.unregisterAlong kind selects (Place.chain nested name) := by
  rcases deleteSelected_eq_ok_iff.mp h with ⟨places, hplaces, -, rfl⟩
  rw [Place.eq_splits_of_ofName hplaces, prunePlaces_foldl_unregister]

/-- Kept by the descents that creates are. -/
structure KeptByCreates (holds : Catalog → Prop) : Prop where
  register : ∀ {kind} {resource : Resource kind} {segments : List String} {catalog : Catalog},
    resource.validate kind = .ok () → segments ≠ [] → holds catalog →
      holds (catalog.registerAlong kind resource segments)

/-- Kept by the descents that creates and deletes are. -/
structure KeptByDescents (holds : Catalog → Prop) : Prop extends KeptByCreates holds where
  unregister : ∀ {kind} {selects : Selection} {segments : List String} {catalog : Catalog},
    holds catalog → holds (catalog.unregisterAlong kind selects segments)

variable {holds : Catalog → Prop}

namespace KeptByCreates

theorem create (kept : KeptByCreates holds) {resource stored : Resource kind}
    {catalog created : Catalog} (h : holds catalog)
    (hcreate : catalog.create nested mode kind name resource = .ok (created, stored)) :
    holds created := by
  rcases eq_or_eq_registerAlong_of_create hcreate with ⟨hvalid, rfl | rfl⟩
  · exact h
  · exact kept.register hvalid (Place.chain_ne_nil nested name) h

theorem createAll (kept : KeptByCreates holds) {resources : List NamedResource}
    {catalog created : Catalog} (h : holds catalog)
    (hcreate : catalog.createAll nested mode resources = .ok created) : holds created := by
  induction resources generalizing catalog with
  | nil =>
    cases hcreate
    exact h
  | cons first rest ih =>
    rcases createAll_cons_eq_ok_iff.mp hcreate with ⟨next, stored, hnext, hrest⟩
    exact ih (kept.create h hnext) hrest

theorem applyDefinitions (kept : KeptByCreates holds) {definitions : Definitions}
    {catalog created : Catalog} (h : holds catalog)
    (happly : catalog.applyDefinitions nested mode definitions = .ok created) : holds created := by
  rcases applyDefinitions_eq_ok_iff.mp happly with ⟨requests, -, hcreate⟩
  exact kept.createAll h hcreate

theorem run (kept : KeptByCreates holds) {operation : Operation} {reply : Reply}
    {catalog changed : Catalog} (hcreates : operation.deletes = false) (h : holds catalog)
    (hrun : operation.run nested catalog = .ok (changed, reply)) : holds changed := by
  cases operation with
  | create mode kind name resource =>
    rcases map_eq_ok_iff.mp hrun with ⟨result, hcreate, heq⟩
    cases heq
    exact kept.create h hcreate
  | delete kind name => cases hcreates
  | deleteFunctionByFullName fullName => cases hcreates
  | applyDefinitions mode definitions =>
    rcases map_eq_ok_iff.mp hrun with ⟨created, happly, heq⟩
    cases heq
    exact kept.applyDefinitions h happly

end KeptByCreates

namespace KeptByDescents

theorem deleteSelected (kept : KeptByDescents holds) {identity : String} {selects : Selection}
    {catalog deleted : Catalog} (h : holds catalog)
    (hdelete : catalog.deleteSelected nested kind identity name selects = .ok deleted) :
    holds deleted := by
  rw [eq_unregisterAlong_of_deleteSelected hdelete]
  exact kept.unregister h

theorem run (kept : KeptByDescents holds) {operation : Operation} {reply : Reply}
    {catalog changed : Catalog} (h : holds catalog)
    (hrun : operation.run nested catalog = .ok (changed, reply)) : holds changed := by
  cases operation with
  | create mode kind name resource => exact kept.toKeptByCreates.run rfl h hrun
  | delete kind name =>
    rcases map_eq_ok_iff.mp hrun with ⟨deleted, hdelete, heq⟩
    cases heq
    rcases delete_eq_ok hdelete with ⟨kind, identity, name, selects, hselected⟩
    exact kept.deleteSelected h hselected
  | deleteFunctionByFullName fullName =>
    rcases map_eq_ok_iff.mp hrun with ⟨deleted, hdelete, heq⟩
    cases heq
    rcases deleteFunctionByFullName_eq_ok hdelete with ⟨identity, name, selects, hselected⟩
    exact kept.deleteSelected h hselected
  | applyDefinitions mode definitions => exact kept.toKeptByCreates.run rfl h hrun

end KeptByDescents

end Catalog

end SchemaCatalog
