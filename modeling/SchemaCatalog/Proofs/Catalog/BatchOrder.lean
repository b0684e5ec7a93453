import SchemaCatalog.Proofs.Catalog.Batch
import SchemaCatalog.Proofs.Catalog.Registration

/-!
# The order of a batch

Creates that fail on names that are taken succeed one after the other if the slots of all their
registrations are free and different, which no order changes.  What they leave may differ in the order
of entries and nodes and in the spelling of the names of nodes, but nothing that is looked up shows
it.
-/

namespace SchemaCatalog.Catalog

variable {kind : ResourceKind} {first second catalog created : Catalog} {nested : Bool}

/-! ## Trees that look alike -/

/-- The trees have the same nodes, implicit or not, and the same resources under the same keys. -/
structure Alike (first second : Catalog) : Prop where
  nodes : ∀ path, first.implicitAt path = second.implicitAt path
  stored : ∀ kind path key,
    (first.stored? kind path key : Option (Resource kind)) = second.stored? kind path key

theorem seen?_eq_find?_nodeAt (selects : Selection) (place : Place) (catalog : Catalog) :
    catalog.seen? kind selects place =
      ((catalog.nodeAt place.catalogs).resources kind).find? (selects place.name) := by
  unfold seen? nodeAt
  cases catalog.descend? place.catalogs with
  | some node => rfl
  | none => cases kind <;> rfl

theorem functionByFullName?_eq_stored? (path : List String) (fullName : String)
    (catalog : Catalog) :
    ((catalog.descend? path).bind fun node => node.functionByFullName? fullName) =
      catalog.stored? .function path (Name.fold fullName) := by
  unfold stored? nodeAt
  cases catalog.descend? path <;> rfl

-- Resources other than functions are chosen by their whole key, so there is at most one to choose.
theorem seen?_selects_eq_stored? (hkind : kind ≠ .function) (place : Place) (catalog : Catalog) :
    catalog.seen? kind kind.selects place =
      catalog.stored? kind place.catalogs (Name.fold place.name) := by
  have hselects : kind.selects place.name = (· == Name.fold place.name) := by
    cases kind with
    | function => exact absurd rfl hkind
    | _ => rfl
  rw [seen?_eq_find?_nodeAt, hselects, ← Namespace.get?_eq_find?]
  rfl

theorem isSome_seen?_iff (selects : Selection) (place : Place) (catalog : Catalog) :
    (catalog.seen? kind selects place).isSome = true ↔
      ∃ key, selects place.name key = true ∧
        (catalog.stored? kind place.catalogs key).isSome = true := by
  rw [seen?_eq_find?_nodeAt, Namespace.isSome_find?_iff]
  rfl

namespace Alike

theorem descend? (h : Alike first second) (path : List String) :
    (first.descend? path).map (·.implicit) = (second.descend? path).map (·.implicit) :=
  h.nodes path

theorem find (h : Alike first second) (hkind : kind ≠ .function) (path : List String) :
    first.find kind path = second.find kind path := by
  rcases List.eq_nil_or_concat path with rfl | ⟨front, last, rfl⟩
  · rfl
  rw [List.concat_eq_append, find_eq, find_eq, seen?_selects_eq_stored? hkind,
    seen?_selects_eq_stored? hkind, h.stored]

theorem functionByFullName? (h : Alike first second) (path : List String) (fullName : String) :
    ((first.descend? path).bind fun node => node.functionByFullName? fullName) =
      (second.descend? path).bind fun node => node.functionByFullName? fullName := by
  rw [functionByFullName?_eq_stored?, functionByFullName?_eq_stored?, h.stored]

theorem exists_find_iff (h : Alike first second) (path : List String) :
    (∃ found, first.find kind path = .ok found) ↔ ∃ found, second.find kind path = .ok found := by
  have hfound : ∀ (catalog : Catalog) (front : List String) (last : String),
      (∃ found, catalog.find kind (front ++ [last]) = .ok found) ↔
        (catalog.seen? kind kind.selects ⟨front, last⟩).isSome = true := by
    intro catalog front last
    rw [find_eq]
    cases catalog.seen? kind kind.selects ⟨front, last⟩ <;> simp
  rcases List.eq_nil_or_concat path with rfl | ⟨front, last, rfl⟩
  · exact Iff.rfl
  simp only [List.concat_eq_append, hfound, isSome_seen?_iff, h.stored]

end Alike

/-! ## Registrations in another order -/

variable {registrations others : List Registration} {requests : List NamedResource}

theorem Vacant.perm (hperm : registrations.Perm others) (h : Vacant registrations catalog) :
    Vacant others catalog :=
  ⟨fun registration hmem => h.free registration (hperm.mem_iff.mpr hmem),
    (hperm.map _).nodup_iff.mp h.distinct⟩

theorem Vacant.alike (hperm : registrations.Perm others) (h : Vacant registrations catalog) :
    Alike (registrations.foldl perform catalog) (others.foldl perform catalog) := by
  constructor
  · intro path
    rw [implicitAt_foldl_perform, implicitAt_foldl_perform]
    simp only [hperm.mem_iff]
  · intro kind path key
    apply Option.ext
    intro value
    rw [h.stored?_eq_some_iff, (h.perm hperm).stored?_eq_some_iff]
    simp only [hperm.mem_iff]

theorem createAll_createDefault_eq_ok_iff :
    catalog.createAll nested .createDefault requests = .ok created ↔
      (∀ request ∈ requests, request.Valid) ∧
        Vacant (requests.flatMap (·.registrations nested)) catalog ∧
        (requests.flatMap (·.registrations nested)).foldl perform catalog = created := by
  induction requests generalizing catalog with
  | nil =>
    simp only [createAll, Except.ok.injEq, List.flatMap_nil, List.foldl_nil]
    exact ⟨fun h => ⟨by simp, ⟨by simp, by simp⟩, h⟩, fun h => h.2.2⟩
  | cons request rest ih =>
    rw [createAll_cons_eq_ok_iff, List.flatMap_cons, List.foldl_append, List.forall_mem_cons,
      vacant_append_iff]
    constructor
    · rintro ⟨next, stored, hcreate, hrest⟩
      rcases create_request_eq_ok_iff.mp hcreate with ⟨hvalid, ⟨hmode, -⟩ | ⟨hfree | hmode, -, rfl⟩⟩
      · cases hmode
      · rcases ih.mp hrest with ⟨hvalids, hvacant, hcreated⟩
        exact ⟨⟨hvalid, hvalids⟩, ⟨existing?_eq_none_iff.mp hfree, hvacant⟩, hcreated⟩
      · cases hmode
    · rintro ⟨⟨hvalid, hvalids⟩, ⟨hfree, hvacant⟩, hcreated⟩
      exact ⟨_, request.resource, create_request_eq_ok_iff.mpr
        ⟨hvalid, Or.inr ⟨Or.inl (existing?_eq_none_iff.mpr hfree), rfl, rfl⟩⟩,
        ih.mpr ⟨hvalids, hvacant, hcreated⟩⟩

/-! ## Batches in another order -/

variable {definitions permuted : Definitions}

theorem exists_applyDefinitions_of_permuted (hpermuted : definitions.Permuted permuted)
    (happlied : catalog.applyDefinitions nested .createDefault definitions = .ok first) :
    ∃ second, catalog.applyDefinitions nested .createDefault permuted = .ok second ∧
      Alike first second := by
  rcases applyDefinitions_eq_ok_iff.mp happlied with ⟨requests, hrequests, hcreate⟩
  rcases hpermuted.exists_resources hrequests with ⟨others, hothers, hperm⟩
  rcases createAll_createDefault_eq_ok_iff.mp hcreate with ⟨hvalid, hvacant, rfl⟩
  have hregistrations := hperm.flatMap_right (·.registrations nested)
  have hcreated := createAll_createDefault_eq_ok_iff.mpr
    ⟨fun request hmem => hvalid request (hperm.mem_iff.mpr hmem), hvacant.perm hregistrations, rfl⟩
  exact ⟨_, applyDefinitions_eq_ok_iff.mpr ⟨others, hothers, hcreated⟩, hvacant.alike hregistrations⟩

/-- **The order of a batch does not matter** if its creates fail on names that are taken.  Batches that
differ in the order of their lists both succeed or both fail, and lookups do not tell the results
apart.  A plain name may stand for functions of several groups; which of them it finds depends on the
order, but not whether it finds one. -/
theorem applyDefinitions_permuted (hpermuted : definitions.Permuted permuted) :
    ((∃ first, catalog.applyDefinitions nested .createDefault definitions = .ok first) ↔
      ∃ second, catalog.applyDefinitions nested .createDefault permuted = .ok second) ∧
    ∀ first second,
      catalog.applyDefinitions nested .createDefault definitions = .ok first →
      catalog.applyDefinitions nested .createDefault permuted = .ok second →
      (∀ path, (first.descend? path).map (·.implicit) = (second.descend? path).map (·.implicit)) ∧
      (∀ kind path, kind ≠ .function → first.find kind path = second.find kind path) ∧
      (∀ path fullName,
        ((first.descend? path).bind fun node => node.functionByFullName? fullName) =
          (second.descend? path).bind fun node => node.functionByFullName? fullName) ∧
      (∀ path, (∃ function, first.find .function path = .ok function) ↔
        ∃ function, second.find .function path = .ok function) := by
  constructor
  · constructor
    · rintro ⟨first, hfirst⟩
      rcases exists_applyDefinitions_of_permuted hpermuted hfirst with ⟨second, hsecond, -⟩
      exact ⟨second, hsecond⟩
    · rintro ⟨second, hsecond⟩
      rcases exists_applyDefinitions_of_permuted hpermuted.symm hsecond with ⟨first, hfirst, -⟩
      exact ⟨first, hfirst⟩
  · intro first second hfirst hsecond
    rcases exists_applyDefinitions_of_permuted hpermuted hfirst with ⟨applied, happlied, halike⟩
    obtain rfl : applied = second := Except.ok.inj (happlied.symm.trans hsecond)
    exact ⟨halike.descend?, fun _ path hkind => halike.find hkind path, halike.functionByFullName?,
      fun path => halike.exists_find_iff path⟩

-- The node is named a or A, and the plain name f stands for the function of the first group.
theorem applyDefinitions_permuted_groups :
    ∃ first second,
      (new "root").applyDefinitions true .createDefault
        ⟨[⟨"a.t", []⟩, ⟨"A.u", []⟩], [⟨"f", "g", .scalar, []⟩, ⟨"f", "h", .scalar, []⟩], [], []⟩ =
          .ok first ∧
      (new "root").applyDefinitions true .createDefault
        ⟨[⟨"A.u", []⟩, ⟨"a.t", []⟩], [⟨"f", "h", .scalar, []⟩, ⟨"f", "g", .scalar, []⟩], [], []⟩ =
          .ok second ∧
      (∀ path, first.find .table path = second.find .table path) ∧
      first.find .function ["f"] = .ok ⟨["f"], "g", .scalar, []⟩ ∧
      second.find .function ["f"] = .ok ⟨["f"], "h", .scalar, []⟩ := by
  have hpermuted : Definitions.Permuted
      ⟨[⟨"a.t", []⟩, ⟨"A.u", []⟩], [⟨"f", "g", .scalar, []⟩, ⟨"f", "h", .scalar, []⟩], [], []⟩
      ⟨[⟨"A.u", []⟩, ⟨"a.t", []⟩], [⟨"f", "h", .scalar, []⟩, ⟨"f", "g", .scalar, []⟩], [], []⟩ :=
    ⟨.swap _ _ _, .swap _ _ _, .nil, .nil⟩
  have hlookups := (@applyDefinitions_permuted (new "root") true _ _ hpermuted).2
  refine ⟨_, _, rfl, rfl, fun path => ?_, rfl, rfl⟩
  exact (hlookups _ _ rfl rfl).2.1 .table path (by decide)

end SchemaCatalog.Catalog
