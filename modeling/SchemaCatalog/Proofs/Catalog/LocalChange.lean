import SchemaCatalog.Proofs.Catalog.Chain

/-!
# Changes of the node at a path

A change of one node that leaves its sub-catalogs alone can be made at the end of a path.  Two such
changes at one path are one change, and changes at different paths do not see each other.  Only the
nodes that are made on the way come in the order of the changes, so the changes commute as soon as the
nodes of one of them are there.
-/

namespace SchemaCatalog

namespace Namespace

variable {α : Type} {name other : String}

theorem replace_replace_comm (hne : Name.fold name ≠ Name.fold other) (space : Namespace α)
    (first second : α) :
    (space.replace name first).replace other second =
      (space.replace other second).replace name first := by
  apply ext_entries
  simp only [replace, List.map_map]
  apply List.map_congr_left
  intro entry _
  simp only [Function.comp_apply]
  by_cases hname : (entry.1 == Name.fold name) = true
  · have hother : (entry.1 == Name.fold other) = false := by
      rw [beq_iff_eq] at hname
      simpa [hname] using hne
    simp only [hname, hother, if_true, Bool.false_eq_true, if_false]
  · by_cases hother : (entry.1 == Name.fold other) = true
    · simp only [hname, hother, if_true, Bool.false_eq_true, if_false]
    · simp only [hname, hother, Bool.false_eq_true, if_false]

theorem replace_insert_comm (hne : Name.fold name ≠ Name.fold other) (space : Namespace α)
    (first second : α) :
    (space.replace name first).insert other second =
      (space.insert other second).replace name first := by
  have herase : (space.replace name first).erase other = (space.erase other).replace name first := by
    apply ext_entries
    simp only [erase, removeWhere, replace, List.filter_map]
    congr 2
    funext entry
    simp only [Function.comp_apply]
    split <;> rfl
  have hkey : (Name.fold other == Name.fold name) = false := by
    simpa using hne.symm
  apply ext_entries
  rw [insert, herase]
  simp only [insert, replace, List.map_append, List.map_cons, List.map_nil, hkey,
    Bool.false_eq_true, if_false]

end Namespace

namespace Catalog

/-! ## One sub-catalog -/

section Enter

variable {segment other : String} {first second : Catalog → Catalog} {catalog : Catalog}

theorem enterOrCreate_congr_of_isSome (hfold : Name.fold segment = Name.fold other)
    (hsub : (catalog.subCatalog? segment).isSome = true) (change : Catalog → Catalog) :
    catalog.enterOrCreate segment change = catalog.enterOrCreate other change := by
  rcases Option.isSome_iff_exists.mp hsub with ⟨sub, hsub⟩
  have hother : catalog.subCatalog? other = some sub := by
    rw [← subCatalog?_congr hfold, hsub]
  simp only [enterOrCreate, hsub, hother, Namespace.replace_congr hfold]

-- Whoever comes first makes the sub-catalog and names it.
theorem enterOrCreate_enterOrCreate_of_fold_eq (hfold : Name.fold segment = Name.fold other)
    (first second : Catalog → Catalog) (catalog : Catalog) :
    (catalog.enterOrCreate segment first).enterOrCreate other second =
      catalog.enterOrCreate segment (second ∘ first) := by
  have hsub : ((catalog.enterOrCreate segment first).subCatalog? other).isSome = true := by
    rw [← subCatalog?_congr hfold, subCatalog?_enterOrCreate_self]
    rfl
  rw [enterOrCreate_congr_of_isSome hfold.symm hsub, enterOrCreate_enterOrCreate]

-- If both had to be made, the one that is made first would come first.
theorem enterOrCreate_comm (hne : Name.fold segment ≠ Name.fold other)
    (hsub : (catalog.subCatalog? segment).isSome = true) :
    (catalog.enterOrCreate segment first).enterOrCreate other second =
      (catalog.enterOrCreate other second).enterOrCreate segment first := by
  have hother := subCatalog?_enterOrCreate_of_ne hne.symm first catalog
  have hsegment := subCatalog?_enterOrCreate_of_ne hne second catalog
  rcases Option.isSome_iff_exists.mp hsub with ⟨sub, hsub⟩
  cases hfound : catalog.subCatalog? other with
  | none =>
    simp only [enterOrCreate, hsub, hfound] at hother hsegment ⊢
    simp only [hother, hsegment, Namespace.replace_insert_comm hne]
  | some found =>
    simp only [enterOrCreate, hsub, hfound] at hother hsegment ⊢
    simp only [hother, hsegment, Namespace.replace_replace_comm hne]

theorem enterOrCreate_apply_congr (segment : String)
    (h : ∀ sub, catalog.subCatalog? segment = some sub → first sub = second sub)
    (hsub : (catalog.subCatalog? segment).isSome = true) :
    catalog.enterOrCreate segment first = catalog.enterOrCreate segment second := by
  rcases Option.isSome_iff_exists.mp hsub with ⟨sub, hsub⟩
  simp only [enterOrCreate, hsub, h sub hsub]

end Enter

/-! ## Changes that leave the sub-catalogs alone -/

/-- Neither reads nor changes the sub-catalogs of a node, and keeps it implicit or not. -/
structure Local (change : Catalog → Catalog) : Prop where
  withCatalogs : ∀ (node : Catalog) (space : Namespace Catalog),
    change { node with catalogs := space } = { change node with catalogs := space }
  implicit : ∀ node, (change node).implicit = node.implicit

theorem local_id : Local id :=
  ⟨fun _ _ => rfl, fun _ => rfl⟩

theorem local_store (kind : ResourceKind) (resource : Resource kind) (name : String) :
    Local (store kind resource name) := by
  constructor
  · intro node space
    cases kind <;> rfl
  · intro node
    exact implicit_withResources kind node _

namespace Local

variable {change : Catalog → Catalog}

theorem catalogs (h : Local change) (node : Catalog) : (change node).catalogs = node.catalogs := by
  cases node with | mk name implicit tables functions procedures tableFunctions subs
  have hsame := h.withCatalogs
    ⟨name, implicit, tables, functions, procedures, tableFunctions, subs⟩ subs
  rw [hsame]

theorem subCatalog? (h : Local change) (node : Catalog) (name : String) :
    (change node).subCatalog? name = node.subCatalog? name :=
  congrArg (·.get? name) (h.catalogs node)

theorem enterOrCreate_comm (h : Local change) (segment : String) (enter : Catalog → Catalog)
    (node : Catalog) :
    (change node).enterOrCreate segment enter = change (node.enterOrCreate segment enter) := by
  have hsub := h.subCatalog? node segment
  unfold enterOrCreate
  rw [hsub]
  cases node.subCatalog? segment <;> simp only [h.catalogs, h.withCatalogs]

end Local

/-! ## Changes at the end of a path -/

variable {change instead : Catalog → Catalog} {path other : List String} {catalog : Catalog}

theorem updateOrCreate_cons (change : Catalog → Catalog) (segment : String) (path : List String)
    (catalog : Catalog) :
    catalog.updateOrCreate change (segment :: path) =
      catalog.enterOrCreate segment (updateOrCreate change path) := rfl

theorem isSome_descend?_cons {segment : String} :
    (catalog.descend? (segment :: path)).isSome = true ↔
      ∃ sub, catalog.subCatalog? segment = some sub ∧ (sub.descend? path).isSome = true := by
  simp only [Option.isSome_iff_exists, descend?_cons_eq_some_iff]
  exact ⟨fun ⟨node, sub, hsub, hnode⟩ => ⟨sub, hsub, node, hnode⟩,
    fun ⟨sub, hsub, node, hnode⟩ => ⟨node, sub, hsub, hnode⟩⟩

theorem updateOrCreate_updateOrCreate (hpath : path.map Name.fold = other.map Name.fold)
    (change instead : Catalog → Catalog) (catalog : Catalog) :
    (catalog.updateOrCreate change path).updateOrCreate instead other =
      catalog.updateOrCreate (instead ∘ change) path := by
  induction path generalizing other catalog with
  | nil =>
    obtain rfl : other = [] := List.map_eq_nil_iff.mp hpath.symm
    rfl
  | cons segment path ih =>
    cases other with
    | nil => cases hpath
    | cons written other =>
      rw [List.map_cons, List.map_cons] at hpath
      injection hpath with hfold hpath
      rw [updateOrCreate_cons, updateOrCreate_cons, updateOrCreate_cons,
        enterOrCreate_enterOrCreate_of_fold_eq hfold]
      congr 1
      funext sub
      exact ih hpath sub

-- How a path is written shows only in the names of nodes that are made.
theorem updateOrCreate_congr (hpath : path.map Name.fold = other.map Name.fold)
    (hnode : (catalog.descend? path).isSome = true) (change : Catalog → Catalog) :
    catalog.updateOrCreate change path = catalog.updateOrCreate change other := by
  induction path generalizing other catalog with
  | nil =>
    obtain rfl : other = [] := List.map_eq_nil_iff.mp hpath.symm
    rfl
  | cons segment path ih =>
    cases other with
    | nil => cases hpath
    | cons written other =>
      rw [List.map_cons, List.map_cons] at hpath
      injection hpath with hfold hpath
      rcases isSome_descend?_cons.mp hnode with ⟨sub, hsub, hbelow⟩
      have hsome : (catalog.subCatalog? segment).isSome = true := by
        rw [hsub]
        rfl
      rw [updateOrCreate_cons, updateOrCreate_cons, ← enterOrCreate_congr_of_isSome hfold hsome]
      refine enterOrCreate_apply_congr segment (fun found hfound => ?_) hsome
      rw [hsub, Option.some_inj] at hfound
      exact hfound ▸ ih hpath hbelow

/-- Changes of different nodes commute if the nodes on the way to one of them are there. -/
theorem updateOrCreate_comm (hchange : Local change) (hinstead : Local instead)
    (hnode : (catalog.descend? path).isSome = true)
    (hne : path.map Name.fold ≠ other.map Name.fold) :
    (catalog.updateOrCreate change path).updateOrCreate instead other =
      (catalog.updateOrCreate instead other).updateOrCreate change path := by
  induction path generalizing other catalog with
  | nil =>
    cases other with
    | nil => exact absurd rfl hne
    | cons written other => exact hchange.enterOrCreate_comm written _ catalog
  | cons segment path ih =>
    cases other with
    | nil => exact (hinstead.enterOrCreate_comm segment _ catalog).symm
    | cons written other =>
      rcases isSome_descend?_cons.mp hnode with ⟨sub, hsub, hbelow⟩
      have hsome : (catalog.subCatalog? segment).isSome = true := by
        rw [hsub]
        rfl
      simp only [updateOrCreate_cons]
      by_cases hfold : Name.fold segment = Name.fold written
      · -- both lead through one sub-catalog, in which the paths differ
        have hrest : path.map Name.fold ≠ other.map Name.fold := by
          intro heq
          exact hne (by rw [List.map_cons, List.map_cons, hfold, heq])
        have hwritten : (catalog.subCatalog? written).isSome = true := by
          rw [← subCatalog?_congr hfold]
          exact hsome
        rw [enterOrCreate_congr_of_isSome hfold.symm hwritten,
          enterOrCreate_enterOrCreate_of_fold_eq hfold, enterOrCreate_enterOrCreate]
        refine enterOrCreate_apply_congr segment (fun found hfound => ?_) hsome
        rw [hsub, Option.some_inj] at hfound
        exact hfound ▸ ih hbelow hrest
      · exact enterOrCreate_comm hfold hsome

/-! ## Nodes after a change -/

/-- Whether the node at the end of a path is implicit; nothing if the path leads nowhere. -/
def implicitAt (path : List String) (catalog : Catalog) : Option Bool :=
  (catalog.descend? path).map (·.implicit)

theorem implicitAt_cons (segment : String) (path : List String) (catalog : Catalog) :
    catalog.implicitAt (segment :: path) =
      (catalog.subCatalog? segment).bind (implicitAt path) := by
  unfold implicitAt
  rw [descend?]
  cases catalog.subCatalog? segment <;> rfl

theorem implicitAt_newImplicit (name : String) (path : List String) :
    (newImplicit name).implicitAt path = if path = [] then some true else none := by
  cases path with
  | nil => rfl
  | cons segment path =>
    rw [implicitAt_cons, if_neg (List.cons_ne_nil _ _)]
    rfl

/-- A change at a path makes the nodes on the way that are missing, all of them implicit. -/
theorem implicitAt_updateOrCreate (h : Local change) (path other : List String)
    (catalog : Catalog) :
    (catalog.updateOrCreate change path).implicitAt other =
      (catalog.implicitAt other).or
        (if other.map Name.fold <+: path.map Name.fold then some true else none) := by
  induction path generalizing other catalog with
  | nil =>
    cases other with
    | nil => exact congrArg some (h.implicit catalog)
    | cons written other =>
      rw [if_neg (by simp), Option.or_none, implicitAt_cons, implicitAt_cons]
      exact congrArg (·.bind (implicitAt other)) (h.subCatalog? catalog written)
  | cons segment path ih =>
    cases other with
    | nil => exact congrArg some (implicit_enterOrCreate segment _ catalog)
    | cons written other =>
      rw [implicitAt_cons, implicitAt_cons, updateOrCreate_cons]
      simp only [List.map_cons, List.cons_prefix_cons]
      by_cases hfold : Name.fold written = Name.fold segment
      · rw [subCatalog?_congr hfold, subCatalog?_congr hfold, subCatalog?_enterOrCreate_self,
          Option.bind_some, ih]
        simp only [hfold, true_and]
        cases hsub : catalog.subCatalog? segment with
        | some sub => rfl
        | none =>
          -- a node that is made is at the end of the path or above it
          rw [Option.getD_none, implicitAt_newImplicit, Option.bind_none, Option.none_or]
          cases other with
          | nil => simp
          | cons _ _ => rfl
      · rw [subCatalog?_enterOrCreate_of_ne hfold]
        simp only [hfold, false_and, if_false, Option.or_none]

theorem isSome_descend?_updateOrCreate (h : Local change)
    (hnode : (catalog.descend? other).isSome = true) (path : List String) :
    ((catalog.updateOrCreate change path).descend? other).isSome = true := by
  have hafter := congrArg Option.isSome (implicitAt_updateOrCreate h path other catalog)
  simp only [implicitAt, Option.isSome_map, Option.isSome_or, hnode, Bool.true_or] at hafter
  exact hafter

end Catalog

end SchemaCatalog
