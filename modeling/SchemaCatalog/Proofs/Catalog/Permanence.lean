import SchemaCatalog.Proofs.Catalog.Built
import SchemaCatalog.Proofs.Catalog.Tidy

/-!
# Sub-catalogs that stay

Creates remove no node, and deletes prune only nodes that are implicit and empty.  So a sub-catalog
that is not implicit, and with it every node above, outlives whatever is done on the root, even if a
delete leaves it empty.
-/

namespace SchemaCatalog.Catalog

/-- At the end of the path stands a node with this name, implicit or not. -/
def Placed (path : List String) (name : String) (implicit : Bool) (catalog : Catalog) : Prop :=
  ∃ node, catalog.descend? path = some node ∧ node.name = name ∧ node.implicit = implicit

variable {path : List String} {name : String} {implicit : Bool} {kind : ResourceKind}

theorem placed_nil_iff {catalog : Catalog} :
    catalog.Placed [] name implicit ↔ catalog.name = name ∧ catalog.implicit = implicit := by
  simp [Placed, descend?]

theorem placed_cons_iff {segment : String} {catalog : Catalog} :
    catalog.Placed (segment :: path) name implicit ↔
      ∃ sub, catalog.subCatalog? segment = some sub ∧ sub.Placed path name implicit := by
  constructor
  · rintro ⟨node, hnode, hlabel⟩
    rcases descend?_cons_eq_some_iff.mp hnode with ⟨sub, hsub, hbelow⟩
    exact ⟨sub, hsub, node, hbelow, hlabel⟩
  · rintro ⟨sub, hsub, node, hbelow, hlabel⟩
    exact ⟨node, descend?_cons_eq_some_iff.mpr ⟨sub, hsub, hbelow⟩, hlabel⟩

-- The node is the explicit one itself, or it has a sub-catalog on the way to it.
theorem Placed.not_prunable {catalog : Catalog} (h : catalog.Placed path name false) :
    (catalog.implicit && catalog.isEmpty) = false := by
  cases path with
  | nil => rw [(placed_nil_iff.mp h).2, Bool.false_and]
  | cons segment path =>
    rcases placed_cons_iff.mp h with ⟨sub, hsub, -⟩
    rw [isEmpty_of_subCatalog? hsub, Bool.and_false]

/-! ## Creating and deleting -/

theorem name_registerAlong (resource : Resource kind) (segments : List String)
    (catalog : Catalog) : (catalog.registerAlong kind resource segments).name = catalog.name := by
  unfold registerAlong
  split
  · rfl
  · cases kind <;> rfl
  · unfold enterOrCreate
    split <;> cases kind <;> rfl

theorem name_unregisterAlong (selects : Selection) (segments : List String) (catalog : Catalog) :
    (catalog.unregisterAlong kind selects segments).name = catalog.name := by
  unfold unregisterAlong
  split
  · rfl
  · cases kind <;> rfl
  · unfold enterAndPrune
    split
    · split <;> cases kind <;> rfl
    · cases kind <;> rfl

theorem Placed.withResources {catalog : Catalog} {segment : String}
    (h : catalog.Placed (segment :: path) name implicit) (space : Namespace (Resource kind)) :
    (catalog.withResources kind space).Placed (segment :: path) name implicit := by
  rw [placed_cons_iff, subCatalog?_withResources]
  exact placed_cons_iff.mp h

-- The way to the node leads through the sub-catalog that is changed, or past it.
theorem Placed.of_change {catalog changed : Catalog} {segment other : String}
    (h : catalog.Placed (segment :: path) name implicit)
    (hself : ∀ sub, catalog.subCatalog? other = some sub → sub.Placed path name implicit →
      ∃ below, changed.subCatalog? other = some below ∧ below.Placed path name implicit)
    (hothers : Name.fold segment ≠ Name.fold other →
      changed.subCatalog? segment = catalog.subCatalog? segment) :
    changed.Placed (segment :: path) name implicit := by
  rw [placed_cons_iff] at h ⊢
  by_cases hfold : Name.fold segment = Name.fold other
  · rw [subCatalog?_congr hfold] at h ⊢
    rcases h with ⟨sub, hsub, hbelow⟩
    exact hself sub hsub hbelow
  · rw [hothers hfold]
    exact h

theorem Placed.enterOrCreate {catalog : Catalog} {segment : String}
    (h : catalog.Placed (segment :: path) name implicit) {change : Catalog → Catalog}
    (hchange : ∀ sub, sub.Placed path name implicit → (change sub).Placed path name implicit)
    (other : String) :
    (catalog.enterOrCreate other change).Placed (segment :: path) name implicit := by
  refine h.of_change (fun sub hsub hbelow => ⟨change sub, ?_, hchange sub hbelow⟩)
    fun hne => subCatalog?_enterOrCreate_of_ne hne change catalog
  rw [subCatalog?_enterOrCreate_self, hsub, Option.getD_some]

theorem Placed.enterAndPrune {catalog : Catalog} {segment : String}
    (h : catalog.Placed (segment :: path) name false) {change : Catalog → Catalog}
    (hchange : ∀ sub, sub.Placed path name false → (change sub).Placed path name false)
    (other : String) : (catalog.enterAndPrune other change).Placed (segment :: path) name false := by
  refine h.of_change (fun sub hsub hbelow => ⟨change sub, ?_, hchange sub hbelow⟩)
    fun hne => subCatalog?_enterAndPrune_of_ne hne change catalog
  rw [subCatalog?_enterAndPrune_self, hsub, Option.bind_some, (hchange sub hbelow).not_prunable]
  rfl

theorem placed_registerAlong (resource : Resource kind) (segments : List String)
    {catalog : Catalog} (h : catalog.Placed path name implicit) :
    (catalog.registerAlong kind resource segments).Placed path name implicit := by
  induction segments generalizing path catalog with
  | nil => exact h
  | cons segment rest ih =>
    cases path with
    | nil =>
      rw [placed_nil_iff, name_registerAlong, implicit_registerAlong]
      exact placed_nil_iff.mp h
    | cons first path =>
      cases rest with
      | nil => exact h.withResources _
      | cons next others => exact (h.withResources _).enterOrCreate (fun sub hsub => ih hsub) segment

theorem placed_unregisterAlong (selects : Selection) (segments : List String)
    {catalog : Catalog} (h : catalog.Placed path name false) :
    (catalog.unregisterAlong kind selects segments).Placed path name false := by
  induction segments generalizing path catalog with
  | nil => exact h
  | cons segment rest ih =>
    cases path with
    | nil =>
      rw [placed_nil_iff, name_unregisterAlong, implicit_unregisterAlong]
      exact placed_nil_iff.mp h
    | cons first path =>
      cases rest with
      | nil => exact h.withResources _
      | cons next others => exact (h.withResources _).enterAndPrune (fun sub hsub => ih hsub) segment

theorem keptByCreates_placed (path : List String) (name : String) (implicit : Bool) :
    KeptByCreates (Placed path name implicit) where
  register {_ resource segments _} _ _ h := placed_registerAlong resource segments h

theorem keptByDescents_placed (path : List String) (name : String) :
    KeptByDescents (Placed path name false) where
  toKeptByCreates := keptByCreates_placed path name false
  unregister {_ selects segments _} h := placed_unregisterAlong selects segments h

/-! ## Whole runs -/

/-- What is left after an operation with names nested or not.  One that fails changes nothing. -/
def after (catalog : Catalog) (request : Bool × Operation) : Catalog :=
  match request.2.run request.1 catalog with
  | .ok (changed, _) => changed
  | .error _ => catalog

theorem built_after {catalog : Catalog} (hbuilt : Built catalog) (request : Bool × Operation) :
    Built (catalog.after request) := by
  unfold after
  split
  · rename_i changed reply hrun
    have hcall : (Call.operation request.1 request.2).run catalog = .ok changed := by
      rw [Call.run, hrun]
      rfl
    have hsubs : ∀ sub ∈ (Call.operation request.1 request.2).catalogs, Built sub :=
      fun _ hsub => absurd hsub List.not_mem_nil
    exact @Built.call _ _ _ [] _ hbuilt rfl hsubs hcall
  · exact hbuilt

theorem built_foldl_after {catalog : Catalog} (hbuilt : Built catalog)
    (requests : List (Bool × Operation)) : Built (requests.foldl after catalog) := by
  induction requests generalizing catalog with
  | nil => exact hbuilt
  | cons request rest ih => exact ih (built_after hbuilt request)

theorem Placed.after {catalog : Catalog} {request : Bool × Operation}
    (h : catalog.Placed path name implicit)
    (hstays : implicit = false ∨ request.2.deletes = false) :
    (catalog.after request).Placed path name implicit := by
  unfold Catalog.after
  split
  · rename_i changed reply hrun
    rcases hstays with rfl | hcreates
    · exact (keptByDescents_placed path name).run h hrun
    · exact (keptByCreates_placed path name implicit).run hcreates h hrun
  · exact h

theorem Placed.foldl_after {requests : List (Bool × Operation)} {catalog : Catalog}
    (h : catalog.Placed path name implicit)
    (hstays : implicit = false ∨ ∀ request ∈ requests, request.2.deletes = false) :
    (requests.foldl Catalog.after catalog).Placed path name implicit := by
  induction requests generalizing catalog with
  | nil => exact h
  | cons request rest ih =>
    refine ih (h.after ?_) ?_
    · exact hstays.imp_right fun hcreates => hcreates request List.mem_cons_self
    · exact hstays.imp_right fun hcreates other hother =>
        hcreates other (List.mem_cons_of_mem request hother)

theorem placed_updateAt {tree node changed : Catalog} {below : List String}
    (hnode : tree.descend? path = some node) (h : changed.Placed below name implicit) :
    (tree.updateAt (fun _ => changed) path).Placed (path ++ below) name implicit := by
  induction path generalizing tree with
  | nil => exact h
  | cons segment path ih =>
    rcases descend?_cons_eq_some_iff.mp hnode with ⟨sub, hsub, hbelow⟩
    rw [updateAt, hsub]
    exact placed_cons_iff.mpr ⟨_, subCatalog?_replace_self _ hsub, ih hbelow⟩

/-- **A sub-catalog that the caller adds stays**, and so does every node below that it brings along.
That holds wherever in the tree it is added and whatever is done on the root afterwards, unless the
node is implicit and something is deleted. -/
theorem descend?_of_addSubCatalog {tree node sub changed part : Catalog} {path below : List String}
    {requests : List (Bool × Operation)} (hnode : tree.descend? path = some node)
    (hadd : node.addSubCatalog sub = .ok changed) (hpart : sub.descend? below = some part)
    (hstays : part.implicit = false ∨ ∀ request ∈ requests, request.2.deletes = false) :
    ∃ kept,
      (requests.foldl after (tree.updateAt (fun _ => changed) path)).descend?
        (path ++ sub.name :: below) = some kept ∧
      kept.name = part.name ∧ kept.implicit = part.implicit := by
  have hadded : changed.Placed (sub.name :: below) part.name part.implicit := by
    rcases addSubCatalog_eq_ok hadd with ⟨-, rfl⟩
    exact placed_cons_iff.mpr
      ⟨sub, subCatalog?_insert_self node sub sub.name, part, hpart, rfl, rfl⟩
  exact (placed_updateAt hnode hadded).foldl_after hstays

-- The delete leaves the sub-catalog empty.
theorem descend?_of_addSubCatalog_emptied :
    ∃ kept, (new "root").addSubCatalog (new "a") = .ok ((new "root").ensureSubCatalog "a") ∧
      ([(true, .create .createDefault .table "a.t" (Table.named "t" [])),
        (true, .delete .table "a.t")].foldl after ((new "root").ensureSubCatalog "a")).descend?
          ["a"] = some kept ∧
      kept.isEmpty = true ∧ kept.name = "a" ∧ kept.implicit = false := by
  have hadd : (new "root").addSubCatalog (new "a") = .ok ((new "root").ensureSubCatalog "a") := by
    rfl
  have hempty : (([(true, .create .createDefault .table "a.t" (Table.named "t" [])),
      (true, .delete .table "a.t")].foldl after ((new "root").ensureSubCatalog "a")).descend?
        ["a"]).map isEmpty = some true := by
    decide +kernel
  rcases @descend?_of_addSubCatalog (new "root") _ _ _ _ [] []
    [(true, .create .createDefault .table "a.t" (Table.named "t" [])),
      (true, .delete .table "a.t")] rfl hadd rfl (Or.inl rfl) with ⟨kept, hkept, hname, hexplicit⟩
  refine ⟨kept, hadd, hkept, ?_, hname, hexplicit⟩
  exact Option.some.inj ((congrArg (Option.map isEmpty) hkept).symm.trans hempty)

-- Taken out of a tree that made it for a dotted name, the sub-catalog is implicit where it is added.
theorem pruned_after_addSubCatalog :
    (do
      let (source, _) ← ((new "source").create true .createDefault .table "a.t"
        (Table.named "t" [])).toOption
      let sub ← source.subCatalog? "a"
      let added ← ((new "root").addSubCatalog sub).toOption
      let deleted ← (added.delete true .table "a.t").toOption
      some ((added.subCatalog? "a").isSome, (deleted.subCatalog? "a").isSome)) =
      some (true, false) := by
  decide +kernel

end SchemaCatalog.Catalog
