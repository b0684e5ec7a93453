import SchemaCatalog.Proofs.Catalog.Operation

/-!
# Catalogs that callers can build

A caller starts from empty catalogs and changes them, at the root or at any node below, by the calls
that there are.  Every call is made of a few elementary changes of a node, so what these keep holds of
every catalog that can be built.
-/

namespace SchemaCatalog

/-- A change that a caller can ask of one node. -/
inductive Call where
  | operation (nested : Bool) (operation : Operation)
  | add (kind : ResourceKind) (resource : Resource kind)
  | remove (kind : ResourceKind) (name : String)
  | addSubCatalog (sub : Catalog)
  | ensureSubCatalog (name : String)
  | removeSubCatalog (name : String)
  | ensurePath (path : List String)
  | prune (path : List String)

namespace Call

/-- The catalogs that the caller hands over. -/
def catalogs : Call → List Catalog
  | addSubCatalog sub => [sub]
  | _ => []

def run (node : Catalog) : Call → Except CatalogError Catalog
  | operation nested request => (request.run nested node).map (·.1)
  | add kind resource => node.add kind resource
  | remove kind name => .ok (node.remove kind name)
  | addSubCatalog sub => node.addSubCatalog sub
  | ensureSubCatalog name => .ok (node.ensureSubCatalog name)
  | removeSubCatalog name => .ok (node.removeSubCatalog name)
  | ensurePath path => .ok (node.ensurePath path)
  | prune path => .ok (node.prune path).1

end Call

namespace Catalog

/-- A property of every node of the tree. -/
def Everywhere (holds : Catalog → Prop) (catalog : Catalog) : Prop :=
  ∀ path node, catalog.descend? path = some node → holds node

/-- Built by calls on nodes that were reached from a root.  A part of a tree can be copied or taken
out, and a node can be exchanged for another catalog. -/
inductive Built : Catalog → Prop where
  | new (name : String) : Built (new name)
  | call {catalog node changed : Catalog} {path : List String} {call : Call} :
      Built catalog → catalog.descend? path = some node → (∀ sub ∈ call.catalogs, Built sub) →
        call.run node = .ok changed → Built (catalog.updateAt (fun _ => changed) path)
  | part {catalog node : Catalog} {path : List String} :
      Built catalog → catalog.descend? path = some node → Built node
  | exchange {catalog other : Catalog} (path : List String) :
      Built catalog → Built other → Built (catalog.updateAt (fun _ => other) path)

theorem everywhere_iff {holds : Catalog → Prop} {catalog : Catalog} :
    catalog.Everywhere holds ↔
      holds catalog ∧
        ∀ name sub, catalog.subCatalog? name = some sub → sub.Everywhere holds := by
  constructor
  · intro h
    refine ⟨h [] catalog rfl, fun name sub hsub path node hnode => ?_⟩
    exact h (name :: path) node (descend?_cons_eq_some_iff.mpr ⟨sub, hsub, hnode⟩)
  · rintro ⟨hroot, hsubs⟩ path node hnode
    cases path with
    | nil =>
      cases hnode
      exact hroot
    | cons name path =>
      rcases descend?_cons_eq_some_iff.mp hnode with ⟨sub, hsub, hnode⟩
      exact hsubs name sub hsub path node hnode

/-- Kept by the elementary changes of a node and its sub-catalogs. -/
structure Stable (holds : Catalog → Prop) : Prop where
  empty : ∀ name implicit, holds { new name with implicit := implicit }
  store : ∀ {node kind} {resource : Resource kind} (name : String),
    holds node → resource.validate kind = .ok () → holds (node.store kind resource name)
  discard : ∀ {node : Catalog} (kind : ResourceKind) (selects : Selection) (name : String),
    holds node → holds (node.discard kind selects name)
  sub : ∀ {node sub : Catalog} {name : String},
    holds node → node.subCatalog? name = some sub → holds sub
  replaceSub : ∀ {node sub changed : Catalog} {name : String},
    holds node → node.subCatalog? name = some sub → holds changed →
      holds { node with catalogs := node.catalogs.replace name changed }
  insertSub : ∀ {node sub : Catalog} {name : String},
    holds node → node.subCatalog? name = none → holds sub →
      holds { node with catalogs := node.catalogs.insert name sub }
  eraseSub : ∀ {node : Catalog} (name : String),
    holds node → holds (node.removeSubCatalog name)

namespace Stable

variable {holds : Catalog → Prop}

theorem updateAt (stable : Stable holds) {change : Catalog → Catalog}
    (hchange : ∀ node, holds node → holds (change node)) (path : List String) {catalog : Catalog}
    (h : holds catalog) : holds (catalog.updateAt change path) := by
  induction path generalizing catalog with
  | nil => exact hchange catalog h
  | cons name path ih =>
    rw [Catalog.updateAt]
    cases hsub : catalog.subCatalog? name with
    | none => exact h
    | some sub => exact stable.replaceSub h hsub (ih (stable.sub h hsub))

theorem updateOrCreate (stable : Stable holds) {change : Catalog → Catalog}
    (hchange : ∀ node, holds node → holds (change node)) (path : List String) {catalog : Catalog}
    (h : holds catalog) : holds (catalog.updateOrCreate change path) := by
  induction path generalizing catalog with
  | nil => exact hchange catalog h
  | cons name path ih =>
    rw [Catalog.updateOrCreate]
    cases hsub : catalog.subCatalog? name with
    | none => exact stable.insertSub h hsub (ih (stable.empty name true))
    | some sub => exact stable.replaceSub h hsub (ih (stable.sub h hsub))

theorem prune (stable : Stable holds) (path : List String) {catalog : Catalog}
    (h : holds catalog) : holds (catalog.prune path).1 := by
  induction path generalizing catalog with
  | nil => exact h
  | cons name path ih =>
    rw [Catalog.prune]
    cases hsub : catalog.subCatalog? name with
    | none => exact h
    | some sub =>
      have hpruned : holds (sub.prune path).1 := ih (stable.sub h hsub)
      simp only
      split
      · exact stable.eraseSub name h
      · exact stable.replaceSub h hsub hpruned

theorem descend (stable : Stable holds) (path : List String) {catalog node : Catalog}
    (h : holds catalog) (hnode : catalog.descend? path = some node) : holds node := by
  induction path generalizing catalog with
  | nil =>
    cases hnode
    exact h
  | cons name path ih =>
    rcases descend?_cons_eq_some_iff.mp hnode with ⟨sub, hsub, hnode⟩
    exact ih (stable.sub h hsub) hnode

theorem foldl (f : Catalog → Place → Catalog) (hstep : ∀ catalog place, holds catalog →
    holds (f catalog place)) (places : List Place) {catalog : Catalog} (h : holds catalog) :
    holds (places.foldl f catalog) := by
  induction places generalizing catalog with
  | nil => exact h
  | cons place rest ih => exact ih (hstep catalog place h)

/-! ## Operations -/

theorem keptByDescents (stable : Stable holds) : KeptByDescents holds where
  register {kind resource segments catalog} hvalid _ h := by
    rw [← foldl_register_splits]
    refine foldl _ (fun catalog place hcatalog => ?_) _ h
    exact stable.updateOrCreate (fun node hnode => stable.store place.name hnode hvalid)
      place.catalogs hcatalog
  unregister {kind selects segments catalog} h := by
    rw [← prunePlaces_foldl_unregister]
    have hunregistered : holds ((Place.splits segments).foldl (unregister kind selects) catalog) := by
      refine foldl _ (fun catalog place hcatalog => ?_) _ h
      exact stable.updateAt (fun node hnode => stable.discard kind selects place.name hnode)
        place.catalogs hcatalog
    exact foldl _ (fun catalog place hcatalog => stable.prune place.catalogs hcatalog)
      (Place.splits segments).reverse hunregistered

/-! ## Calls -/

theorem call (stable : Stable holds) {call : Call} {catalog changed : Catalog} (h : holds catalog)
    (hsubs : ∀ sub ∈ call.catalogs, holds sub) (hrun : call.run catalog = .ok changed) :
    holds changed := by
  cases call with
  | operation nested operation =>
    rcases map_eq_ok_iff.mp hrun with ⟨result, hresult, heq⟩
    cases heq
    exact stable.keptByDescents.run h hresult
  | add kind resource =>
    rcases add_eq_ok hrun with ⟨hvalid, rfl⟩
    exact stable.store _ h hvalid
  | remove kind name =>
    cases hrun
    exact stable.discard kind kind.selects name h
  | addSubCatalog sub =>
    rcases addSubCatalog_eq_ok hrun with ⟨hnone, rfl⟩
    exact stable.insertSub h hnone (hsubs sub (List.mem_singleton_self sub))
  | ensureSubCatalog name =>
    cases hrun
    rcases ensureSubCatalog_cases catalog name with hsame | ⟨hnone, hmade⟩
    · rw [hsame]
      exact h
    · rw [hmade]
      exact stable.insertSub h hnone (stable.empty name false)
  | removeSubCatalog name =>
    cases hrun
    exact stable.eraseSub name h
  | ensurePath path =>
    cases hrun
    exact stable.updateOrCreate (fun node hnode => hnode) path h
  | prune path =>
    cases hrun
    exact stable.prune path h

theorem built (stable : Stable holds) {catalog : Catalog} (hbuilt : Built catalog) :
    holds catalog := by
  induction hbuilt with
  | new name => exact stable.empty name false
  | call _ hnode _ hrun ih ihsubs =>
    exact stable.updateAt (fun _ _ => stable.call (stable.descend _ ih hnode) ihsubs hrun) _ ih
  | part _ hnode ih => exact stable.descend _ ih hnode
  | exchange path _ _ ih ihother => exact stable.updateAt (fun _ _ => ihother) path ih

end Stable

/-! ## Properties of all nodes -/

/-- Kept by the elementary changes of a node, whatever its sub-catalogs are. -/
structure NodeStable (holds : Catalog → Prop) : Prop where
  empty : ∀ name implicit, holds { new name with implicit := implicit }
  store : ∀ {node kind} {resource : Resource kind} (name : String),
    holds node → holds (node.store kind resource name)
  discard : ∀ {node : Catalog} (kind : ResourceKind) (selects : Selection) (name : String),
    holds node → holds (node.discard kind selects name)
  replaceSub : ∀ {node : Catalog} (name : String) (sub : Catalog),
    holds node → holds { node with catalogs := node.catalogs.replace name sub }
  insertSub : ∀ {node : Catalog} (name : String) (sub : Catalog),
    holds node → holds { node with catalogs := node.catalogs.insert name sub }
  eraseSub : ∀ {node : Catalog} (name : String),
    holds node → holds (node.removeSubCatalog name)

/-- What every node keeps by itself holds of all nodes of a tree that is built. -/
theorem NodeStable.everywhere {holds : Catalog → Prop} (h : NodeStable holds) :
    Stable (Everywhere holds) where
  empty name implicit := by
    refine everywhere_iff.mpr ⟨h.empty name implicit, fun _ sub hsub => ?_⟩
    cases hsub
  store {node kind resource} name hnode _ := by
    have hparts := everywhere_iff.mp hnode
    refine everywhere_iff.mpr ⟨h.store name hparts.1, fun other sub hsub => ?_⟩
    rw [Catalog.store, subCatalog?_withResources] at hsub
    exact hparts.2 other sub hsub
  discard {node} kind selects name hnode := by
    have hparts := everywhere_iff.mp hnode
    refine everywhere_iff.mpr ⟨h.discard kind selects name hparts.1, fun other sub hsub => ?_⟩
    rw [Catalog.discard, subCatalog?_withResources] at hsub
    exact hparts.2 other sub hsub
  sub {node sub name} hnode hsub := (everywhere_iff.mp hnode).2 name sub hsub
  replaceSub {node sub changed name} hnode _ hchanged := by
    have hparts := everywhere_iff.mp hnode
    refine everywhere_iff.mpr ⟨h.replaceSub name changed hparts.1, fun other found hfound => ?_⟩
    change (node.catalogs.replace name changed).get? other = some found at hfound
    rw [Namespace.get?_replace] at hfound
    split at hfound
    · rcases Option.map_eq_some_iff.mp hfound with ⟨old, -, rfl⟩
      exact hchanged
    · exact hparts.2 other found hfound
  insertSub {node sub name} hnode _ hnew := by
    have hparts := everywhere_iff.mp hnode
    refine everywhere_iff.mpr ⟨h.insertSub name sub hparts.1, fun other found hfound => ?_⟩
    change (node.catalogs.insert name sub).get? other = some found at hfound
    rw [Namespace.get?_insert] at hfound
    split at hfound
    · cases hfound
      exact hnew
    · exact hparts.2 other found hfound
  eraseSub {node} name hnode := by
    have hparts := everywhere_iff.mp hnode
    refine everywhere_iff.mpr ⟨h.eraseSub name hparts.1, fun other found hfound => ?_⟩
    change (node.catalogs.erase name).get? other = some found at hfound
    rw [Namespace.get?_erase] at hfound
    split at hfound
    · cases hfound
    · exact hparts.2 other found hfound

/-! ## Sub-catalogs have distinct keys -/

def DistinctSubs (catalog : Catalog) : Prop :=
  catalog.Everywhere fun node => node.catalogs.keys.Nodup

theorem nodeStable_nodup_keys : NodeStable fun node => node.catalogs.keys.Nodup where
  empty _ _ := Namespace.nodup_keys_empty
  store {_ kind _} name h := by rwa [store, catalogs_withResources]
  discard kind selects name h := by rwa [discard, catalogs_withResources]
  replaceSub name sub h := Namespace.nodup_keys_replace h name sub
  insertSub name sub h := Namespace.nodup_keys_insert h name sub
  eraseSub name h := Namespace.nodup_keys_removeWhere h _

theorem stable_distinctSubs : Stable DistinctSubs :=
  nodeStable_nodup_keys.everywhere

theorem distinctSubs_of_built {catalog : Catalog} (h : Built catalog) : catalog.DistinctSubs :=
  stable_distinctSubs.built h

end Catalog

end SchemaCatalog
