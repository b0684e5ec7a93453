import SchemaCatalog.Proofs.Catalog.Operation

/-!
# Trees without empty implicit nodes

A create fills every node that it makes, and a delete removes the implicit nodes that it leaves empty.
So in a tree that grows from an empty root by operations on the root, and by what callers add at any
node, every implicit node holds something.
-/

namespace SchemaCatalog.Catalog

/-- The nodes of a tree: its root, and the nodes of the sub-catalogs that the root lists. -/
inductive Contains : Catalog → Catalog → Prop where
  | self (catalog : Catalog) : Contains catalog catalog
  | nested {catalog node : Catalog} {entry : String × Catalog} :
      entry ∈ catalog.catalogs.entries → Contains entry.2 node → Contains catalog node

/-- No implicit node is empty. -/
def Tidy (catalog : Catalog) : Prop :=
  ∀ node, catalog.Contains node → node.implicit = true → node.isEmpty = false

/-- All sub-catalogs are tidy; nothing is said of the node itself. -/
def SubsTidy (catalog : Catalog) : Prop :=
  ∀ entry ∈ catalog.catalogs.entries, entry.2.Tidy

theorem tidy_iff {catalog : Catalog} :
    catalog.Tidy ↔ (catalog.implicit = true → catalog.isEmpty = false) ∧ catalog.SubsTidy := by
  constructor
  · intro h
    exact ⟨h catalog (.self catalog), fun entry hentry node hnode => h node (.nested hentry hnode)⟩
  · rintro ⟨hroot, hsubs⟩ node hnode
    cases hnode with
    | self => exact hroot
    | nested hentry hbelow => exact hsubs _ hentry node hbelow

theorem Tidy.subs {catalog : Catalog} (h : catalog.Tidy) : catalog.SubsTidy :=
  (tidy_iff.mp h).2

theorem SubsTidy.tidy {catalog : Catalog} (h : catalog.SubsTidy)
    (hempty : catalog.isEmpty = false) : catalog.Tidy :=
  tidy_iff.mpr ⟨fun _ => hempty, h⟩

/-! ## Nodes that hold something -/

theorem isEmpty_of_resources {catalog : Catalog} {kind : ResourceKind}
    (h : (catalog.resources kind).isEmpty = false) : catalog.isEmpty = false := by
  apply Bool.eq_false_iff.mpr
  intro hempty
  rw [resources_of_isEmpty hempty] at h
  cases h

theorem isEmpty_of_catalogs {catalog : Catalog} (h : catalog.catalogs.isEmpty = false) :
    catalog.isEmpty = false := by
  rw [isEmpty, h, Bool.and_false]

theorem isEmpty_insert {α : Type} (space : Namespace α) (name : String) (value : α) :
    (space.insert name value).isEmpty = false := by
  simp [Namespace.insert, Namespace.isEmpty]

theorem isEmpty_registerAlong {kind : ResourceKind} (resource : Resource kind) (segment : String)
    (rest : List String) (catalog : Catalog) :
    (catalog.registerAlong kind resource (segment :: rest)).isEmpty = false := by
  have hstored : ((catalog.registerAlong kind resource (segment :: rest)).resources kind).isEmpty =
      false := by
    rw [resources_registerAlong, resources_store]
    exact isEmpty_insert _ _ _
  exact isEmpty_of_resources hstored

/-! ## Changes of one node -/

theorem subsTidy_of_catalogs_eq {catalog changed : Catalog} (h : catalog.SubsTidy)
    (hcatalogs : changed.catalogs = catalog.catalogs) : changed.SubsTidy := by
  rw [SubsTidy, hcatalogs]
  exact h

theorem SubsTidy.sub {catalog sub : Catalog} {name : String} (h : catalog.SubsTidy)
    (hsub : catalog.subCatalog? name = some sub) : sub.Tidy :=
  h (Name.fold name, sub) (Namespace.mem_entries_of_get?_eq_some hsub)

theorem SubsTidy.replace {catalog changed : Catalog} (h : catalog.SubsTidy)
    (hchanged : changed.Tidy) (name : String) :
    ({ catalog with catalogs := catalog.catalogs.replace name changed } : Catalog).SubsTidy := by
  intro entry hentry
  rcases List.mem_map.mp hentry with ⟨old, hold, rfl⟩
  split
  · exact hchanged
  · exact h old hold

theorem SubsTidy.erase {catalog : Catalog} (h : catalog.SubsTidy) (name : String) :
    (catalog.removeSubCatalog name).SubsTidy :=
  fun entry hentry => h entry (List.mem_filter.mp hentry).1

theorem SubsTidy.insert {catalog sub : Catalog} (h : catalog.SubsTidy) (hsub : sub.Tidy)
    (name : String) :
    ({ catalog with catalogs := catalog.catalogs.insert name sub } : Catalog).SubsTidy := by
  intro entry hentry
  rcases List.mem_append.mp hentry with hold | hnew
  · exact h.erase name entry hold
  · rw [List.mem_singleton.mp hnew]
    exact hsub

theorem SubsTidy.enterOrCreate {catalog : Catalog} (h : catalog.SubsTidy)
    {change : Catalog → Catalog} (hchange : ∀ sub, sub.SubsTidy → (change sub).Tidy)
    (segment : String) : (catalog.enterOrCreate segment change).SubsTidy := by
  unfold Catalog.enterOrCreate
  cases hsub : catalog.subCatalog? segment with
  | some sub => exact h.replace (hchange sub (h.sub hsub).subs) segment
  | none =>
    -- a node that is made has no sub-catalogs yet
    have hmade : (newImplicit segment).SubsTidy := fun _ hentry => (nomatch hentry)
    exact h.insert (hchange _ hmade) segment

-- The change may empty the sub-catalog: if it is implicit it is removed then.
theorem SubsTidy.enterAndPrune {catalog : Catalog} (h : catalog.SubsTidy)
    {change : Catalog → Catalog} (hchange : ∀ sub, sub.SubsTidy → (change sub).SubsTidy)
    (segment : String) : (catalog.enterAndPrune segment change).SubsTidy := by
  unfold Catalog.enterAndPrune
  split
  · rename_i sub hsub
    split
    · exact h.erase segment
    · rename_i hstays
      have hkept : (change sub).implicit = true → (change sub).isEmpty = false := by
        intro himplicit
        simpa [himplicit] using hstays
      exact h.replace (tidy_iff.mpr ⟨hkept, hchange sub (h.sub hsub).subs⟩) segment
  · exact h

/-! ## Creating and deleting -/

variable {kind : ResourceKind}

-- Every node on the chain is filled, whether it was there or is made.
theorem tidy_registerAlong (resource : Resource kind) {segments : List String}
    (hne : segments ≠ []) {catalog : Catalog} (h : catalog.SubsTidy) :
    (catalog.registerAlong kind resource segments).Tidy := by
  induction segments generalizing catalog with
  | nil => exact absurd rfl hne
  | cons segment rest ih =>
    refine SubsTidy.tidy ?_ (isEmpty_registerAlong resource segment rest catalog)
    have hstored : ∀ name, (catalog.store kind resource name).SubsTidy :=
      fun name => subsTidy_of_catalogs_eq h (catalogs_withResources kind catalog _)
    cases rest with
    | nil => exact hstored segment
    | cons next others =>
      exact (hstored _).enterOrCreate (fun sub hsub => ih (List.cons_ne_nil _ _) hsub) segment

theorem subsTidy_unregisterAlong (selects : Selection) {segments : List String} {catalog : Catalog}
    (h : catalog.SubsTidy) : (catalog.unregisterAlong kind selects segments).SubsTidy := by
  induction segments generalizing catalog with
  | nil => exact h
  | cons segment rest ih =>
    have hdiscarded : ∀ name, (catalog.discard kind selects name).SubsTidy :=
      fun name => subsTidy_of_catalogs_eq h (catalogs_withResources kind catalog _)
    cases rest with
    | nil => exact hdiscarded segment
    | cons next others => exact (hdiscarded _).enterAndPrune (fun sub hsub => ih hsub) segment

-- The root may be left empty, which is allowed because it is the caller's.
theorem keptByDescents_subsTidy :
    KeptByDescents fun catalog => catalog.SubsTidy ∧ catalog.implicit = false where
  register {kind resource segments catalog} _ hne h := by
    rw [implicit_registerAlong]
    exact ⟨(tidy_registerAlong resource hne h.1).subs, h.2⟩
  unregister {kind selects segments catalog} h := by
    rw [implicit_unregisterAlong]
    exact ⟨subsTidy_unregisterAlong selects h.1, h.2⟩

theorem SubsTidy.tidy_of_explicit {catalog : Catalog} (h : catalog.SubsTidy)
    (hexplicit : catalog.implicit = false) : catalog.Tidy :=
  tidy_iff.mpr ⟨fun himplicit => absurd himplicit (Bool.eq_false_iff.mp hexplicit), h⟩

theorem tidy_new (name : String) : (new name).Tidy :=
  SubsTidy.tidy_of_explicit (fun _ hentry => (nomatch hentry)) rfl

/-! ## Adding at a node -/

theorem tidy_store {node : Catalog} (h : node.SubsTidy) (resource : Resource kind) (name : String) :
    (node.store kind resource name).Tidy := by
  have hstored : ((node.store kind resource name).resources kind).isEmpty = false := by
    rw [resources_store]
    exact isEmpty_insert _ _ _
  have hsubs : (node.store kind resource name).SubsTidy :=
    subsTidy_of_catalogs_eq h (catalogs_withResources kind node _)
  exact hsubs.tidy (isEmpty_of_resources hstored)

theorem tidy_insert {catalog sub : Catalog} (h : catalog.SubsTidy) (hsub : sub.Tidy)
    (name : String) :
    ({ catalog with catalogs := catalog.catalogs.insert name sub } : Catalog).Tidy :=
  (h.insert hsub name).tidy (isEmpty_of_catalogs (isEmpty_insert _ _ _))

theorem tidy_add {node changed : Catalog} {resource : Resource kind} (h : node.Tidy)
    (hadd : node.add kind resource = .ok changed) :
    changed.Tidy ∧ changed.implicit = node.implicit := by
  rcases add_eq_ok hadd with ⟨-, rfl⟩
  exact ⟨tidy_store h.subs resource _, implicit_withResources kind node _⟩

theorem tidy_addSubCatalog {node sub changed : Catalog} (h : node.Tidy) (hsub : sub.Tidy)
    (hadd : node.addSubCatalog sub = .ok changed) :
    changed.Tidy ∧ changed.implicit = node.implicit := by
  rcases addSubCatalog_eq_ok hadd with ⟨-, rfl⟩
  exact ⟨tidy_insert h.subs hsub sub.name, rfl⟩

theorem tidy_ensureSubCatalog {node : Catalog} (h : node.Tidy) (name : String) :
    (node.ensureSubCatalog name).Tidy ∧
      (node.ensureSubCatalog name).implicit = node.implicit := by
  rcases ensureSubCatalog_cases node name with hsame | ⟨-, hmade⟩
  · rw [hsame]
    exact ⟨h, rfl⟩
  · rw [hmade]
    exact ⟨tidy_insert h.subs (tidy_new name) name, rfl⟩

theorem isEmpty_of_subCatalog? {catalog sub : Catalog} {name : String}
    (hsub : catalog.subCatalog? name = some sub) : catalog.isEmpty = false := by
  apply Bool.eq_false_iff.mpr
  intro hempty
  rw [subCatalog?_of_isEmpty hempty] at hsub
  cases hsub

theorem Tidy.node {catalog node : Catalog} {path : List String} (h : catalog.Tidy)
    (hnode : catalog.descend? path = some node) : node.Tidy := by
  induction path generalizing catalog with
  | nil =>
    cases hnode
    exact h
  | cons name path ih =>
    rcases descend?_cons_eq_some_iff.mp hnode with ⟨sub, hsub, hnode⟩
    exact ih (h.subs.sub hsub) hnode

-- The nodes above the changed one hold a sub-catalog on the path, so they are not empty.
theorem tidy_updateAt {catalog node changed : Catalog} {path : List String} (h : catalog.Tidy)
    (hnode : catalog.descend? path = some node)
    (hchanged : changed.Tidy ∧ changed.implicit = node.implicit) :
    (catalog.updateAt (fun _ => changed) path).Tidy ∧
      (catalog.updateAt (fun _ => changed) path).implicit = catalog.implicit := by
  induction path generalizing catalog with
  | nil =>
    cases hnode
    exact hchanged
  | cons name path ih =>
    rcases descend?_cons_eq_some_iff.mp hnode with ⟨sub, hsub, hnode⟩
    have hbelow := (ih (h.subs.sub hsub) hnode).1
    have hempty := isEmpty_of_subCatalog?
      (subCatalog?_replace_self (sub.updateAt (fun _ => changed) path) hsub)
    rw [updateAt, hsub]
    exact ⟨(h.subs.replace hbelow name).tidy hempty, rfl⟩

/-! ## Whole runs -/

/-- Grown from an empty catalog: by operations on the root, each with names nested or not, and by
adding resources and sub-catalogs at any node.  A catalog that is added whole has grown alike. -/
inductive Maintained : Catalog → Prop where
  | new (name : String) : Maintained (new name)
  | operation {catalog changed : Catalog} {nested : Bool} {operation : Operation} {reply : Reply} :
      Maintained catalog → operation.run nested catalog = .ok (changed, reply) → Maintained changed
  | add {catalog node changed : Catalog} {path : List String} {kind : ResourceKind}
      {resource : Resource kind} :
      Maintained catalog → catalog.descend? path = some node → node.add kind resource = .ok changed →
        Maintained (catalog.updateAt (fun _ => changed) path)
  | addSubCatalog {catalog node sub changed : Catalog} {path : List String} :
      Maintained catalog → catalog.descend? path = some node → Maintained sub →
        node.addSubCatalog sub = .ok changed → Maintained (catalog.updateAt (fun _ => changed) path)
  | ensureSubCatalog {catalog node : Catalog} {path : List String} (name : String) :
      Maintained catalog → catalog.descend? path = some node →
        Maintained (catalog.updateAt (fun _ => node.ensureSubCatalog name) path)

theorem Maintained.tidy_and_explicit {catalog : Catalog} (h : Maintained catalog) :
    catalog.Tidy ∧ catalog.implicit = false := by
  induction h with
  | new name => exact ⟨tidy_new name, rfl⟩
  | operation _ hrun ih =>
    have hkept := keptByDescents_subsTidy.run ⟨ih.1.subs, ih.2⟩ hrun
    exact ⟨hkept.1.tidy_of_explicit hkept.2, hkept.2⟩
  | add _ hnode hadd ih =>
    have hupdated := tidy_updateAt ih.1 hnode (tidy_add (ih.1.node hnode) hadd)
    exact ⟨hupdated.1, hupdated.2.trans ih.2⟩
  | addSubCatalog _ hnode _ hadd ih ihsub =>
    have hupdated := tidy_updateAt ih.1 hnode (tidy_addSubCatalog (ih.1.node hnode) ihsub.1 hadd)
    exact ⟨hupdated.1, hupdated.2.trans ih.2⟩
  | ensureSubCatalog name _ hnode ih =>
    have hupdated := tidy_updateAt ih.1 hnode (tidy_ensureSubCatalog (ih.1.node hnode) name)
    exact ⟨hupdated.1, hupdated.2.trans ih.2⟩

/-- **No empty implicit node is left behind.** -/
theorem Maintained.isEmpty_of_implicit {catalog node : Catalog} (h : Maintained catalog)
    (hnode : catalog.Contains node) (himplicit : node.implicit = true) : node.isEmpty = false :=
  h.tidy_and_explicit.1 node hnode himplicit

-- The node that a dotted name makes holds the rest of the name.
theorem isEmpty_of_implicit_made :
    ∃ created reply node,
      Operation.run true (new "root") (.create .createDefault .table "a.b" (Table.named "b" [])) =
        .ok (created, reply) ∧
      Maintained created ∧ created.Contains node ∧ node.implicit = true ∧ node.isEmpty = false := by
  have hmade : ((Operation.run true (new "root")
      (.create .createDefault .table "a.b" (Table.named "b" []))).toOption.bind
        fun result => (result.1.subCatalog? "a").map (·.implicit)) = some true := by
    decide +kernel
  cases hrun : Operation.run true (new "root")
      (.create .createDefault .table "a.b" (Table.named "b" [])) with
  | error error =>
    rw [hrun] at hmade
    cases hmade
  | ok result =>
    rw [hrun] at hmade
    rcases Option.map_eq_some_iff.mp hmade with ⟨node, hsub, himplicit⟩
    have hmaintained : Maintained result.1 := .operation (.new "root") hrun
    have hnode : result.1.Contains node :=
      .nested (Namespace.mem_entries_of_get?_eq_some hsub) (.self node)
    exact ⟨result.1, result.2, node, rfl, hmaintained, hnode, himplicit,
      hmaintained.isEmpty_of_implicit hnode himplicit⟩

end SchemaCatalog.Catalog
