import Mathlib.Logic.Function.Basic
import SchemaCatalog.Proofs.Catalog.Built

/-!
# Trees by their faces

The face of a node is what can be seen of it without going further down: its name, whether it is
implicit, its entries of every kind in order, and the keys of its sub-catalogs in order.  The faces at
all paths make up the tree, so the effect of an operation can be told path by path.
-/

namespace SchemaCatalog

/-- A node without what is inside its sub-catalogs. -/
@[ext] structure Face where
  name : String
  implicit : Bool
  resources : (kind : ResourceKind) → List (String × Resource kind)
  catalogs : List String

namespace Catalog

def face (catalog : Catalog) : Face :=
  ⟨catalog.name, catalog.implicit, fun kind => (catalog.resources kind).entries,
    catalog.catalogs.keys⟩

/-- The face of the node at the end of a path. -/
def faceAt? (path : List String) (catalog : Catalog) : Option Face :=
  (catalog.descend? path).map face

@[simp] theorem faceAt?_nil (catalog : Catalog) : catalog.faceAt? [] = some catalog.face := rfl

theorem faceAt?_cons (segment : String) (path : List String) (catalog : Catalog) :
    catalog.faceAt? (segment :: path) = (catalog.subCatalog? segment).bind (faceAt? path) := by
  unfold faceAt?
  rw [descend?]
  cases catalog.subCatalog? segment <;> rfl

-- A path may be written in any case.
theorem faceAt?_congr {path other : List String} (h : path.map Name.fold = other.map Name.fold)
    (catalog : Catalog) : catalog.faceAt? path = catalog.faceAt? other := by
  induction path generalizing other catalog with
  | nil =>
    obtain rfl : other = [] := List.map_eq_nil_iff.mp h.symm
    rfl
  | cons segment path ih =>
    cases other with
    | nil => cases h
    | cons written other =>
      rw [List.map_cons, List.map_cons] at h
      injection h with hfold hpath
      have hbelow : faceAt? path = faceAt? other := funext (ih hpath)
      rw [faceAt?_cons, faceAt?_cons, subCatalog?_congr hfold, hbelow]

theorem faceAt?_newImplicit (name : String) (path : List String) :
    (newImplicit name).faceAt? path = if path = [] then some (newImplicit name).face else none := by
  cases path with
  | nil => rfl
  | cons segment path =>
    rw [faceAt?_cons, if_neg (List.cons_ne_nil _ _)]
    rfl

theorem face_withResources (kind : ResourceKind) (node : Catalog)
    (space : Namespace (Resource kind)) :
    (node.withResources kind space).face =
      { node.face with resources := Function.update node.face.resources kind space.entries } := by
  have hname : (node.withResources kind space).name = node.name := by
    cases kind <;> rfl
  have hresources : ∀ other, ((node.withResources kind space).resources other).entries =
      Function.update node.face.resources kind space.entries other := by
    intro other
    by_cases hkind : other = kind
    · subst hkind
      rw [resources_withResources, Function.update_self]
    · rw [resources_withResources_of_ne hkind, Function.update_of_ne hkind]
      rfl
  exact Face.ext hname (implicit_withResources kind node space) (funext hresources)
    (congrArg Namespace.keys (catalogs_withResources kind node space))

/-! ## Trees with the same faces -/

/-- The sub-catalogs of every node are under distinct keys, each of them the key of a name. -/
def Keyed (catalog : Catalog) : Prop :=
  catalog.Everywhere fun node => node.catalogs.keys.Nodup ∧
    ∀ key ∈ node.catalogs.keys, ∃ name, key = Name.fold name

theorem Keyed.sub {catalog sub : Catalog} {name : String} (h : catalog.Keyed)
    (hsub : catalog.subCatalog? name = some sub) : sub.Keyed :=
  (everywhere_iff.mp h).2 name sub hsub

theorem nodeStable_keyed :
    NodeStable fun node => node.catalogs.keys.Nodup ∧
      ∀ key ∈ node.catalogs.keys, ∃ name, key = Name.fold name where
  empty _ _ := ⟨Namespace.nodup_keys_empty, fun _ h => nomatch h⟩
  store {_ kind _} name h := by rwa [store, catalogs_withResources]
  discard kind selects name h := by rwa [discard, catalogs_withResources]
  replaceSub {node} name sub h := by
    refine ⟨Namespace.nodup_keys_replace h.1 name sub, ?_⟩
    show ∀ key ∈ (node.catalogs.replace name sub).keys, _
    rw [Namespace.keys_replace]
    exact h.2
  insertSub {node} name sub h := by
    refine ⟨Namespace.nodup_keys_insert h.1 name sub, fun key hkey => ?_⟩
    rcases List.mem_map.mp hkey with ⟨entry, hentry, rfl⟩
    rcases List.mem_append.mp hentry with hentry | hentry
    · exact h.2 _ (List.mem_map_of_mem (List.mem_filter.mp hentry).1)
    · exact ⟨name, by rw [List.mem_singleton.mp hentry]⟩
  eraseSub {node} name h := by
    refine ⟨Namespace.nodup_keys_removeWhere h.1 _, fun key hkey => ?_⟩
    rcases List.mem_map.mp hkey with ⟨entry, hentry, rfl⟩
    exact h.2 _ (List.mem_map_of_mem (List.mem_filter.mp hentry).1)

theorem keyed_of_built {catalog : Catalog} (h : Built catalog) : catalog.Keyed :=
  nodeStable_keyed.everywhere.built h

theorem sizeOf_sub_lt {catalog sub : Catalog} {name : String}
    (h : catalog.subCatalog? name = some sub) : sizeOf sub < sizeOf catalog := by
  have hmem := List.sizeOf_lt_of_mem (Namespace.mem_entries_of_get?_eq_some h)
  cases catalog with | mk _ _ _ _ _ _ catalogs
  cases catalogs with | mk entries
  simp only [Prod.mk.sizeOf_spec, mk.sizeOf_spec, Namespace.mk.sizeOf_spec] at hmem ⊢
  omega

end Catalog

theorem Namespace.eq_of_lookup_eq {α : Type} {entries others : List (String × α)}
    (hkeys : entries.map (·.1) = others.map (·.1)) (hnodup : (entries.map (·.1)).Nodup)
    (hvalues : ∀ key ∈ entries.map (·.1), entries.lookup key = others.lookup key) :
    entries = others := by
  induction entries generalizing others with
  | nil => exact (List.map_eq_nil_iff.mp hkeys.symm).symm
  | cons entry rest ih =>
    cases others with
    | nil => cases hkeys
    | cons other others =>
      cases entry with | mk key value
      cases other with | mk key' value'
      rw [List.map_cons, List.map_cons] at hkeys
      injection hkeys with hkey hkeys
      obtain rfl : key = key' := hkey
      rw [List.map_cons, List.nodup_cons] at hnodup
      have hvalue := hvalues key List.mem_cons_self
      rw [lookup_cons_self, lookup_cons_self] at hvalue
      obtain rfl : value = value' := Option.some.inj hvalue
      rw [ih hkeys hnodup.2 fun other hother => ?_]
      have hne : other ≠ key := fun heq => hnodup.1 (heq ▸ hother)
      have hlookup := hvalues other (List.mem_cons_of_mem _ hother)
      rwa [lookup_cons_of_ne hne, lookup_cons_of_ne hne] at hlookup

namespace Catalog

/-- **The faces at all paths determine the tree.** -/
theorem eq_of_faceAt?_eq {catalog other : Catalog} (hcatalog : catalog.Keyed) (hother : other.Keyed)
    (h : ∀ path, catalog.faceAt? path = other.faceAt? path) : catalog = other := by
  have hface : catalog.face = other.face := Option.some.inj (h [])
  have hkeys : catalog.catalogs.keys = other.catalogs.keys := congrArg Face.catalogs hface
  have hroot := (everywhere_iff.mp hcatalog).1
  have hsubs : catalog.catalogs = other.catalogs := by
    refine Namespace.ext_entries (Namespace.eq_of_lookup_eq hkeys hroot.1 fun key hkey => ?_)
    obtain ⟨name, rfl⟩ := hroot.2 key hkey
    show catalog.subCatalog? name = other.subCatalog? name
    cases hsub : catalog.subCatalog? name with
    | none => exact absurd hkey (Namespace.get?_eq_none_iff.mp hsub)
    | some sub =>
      cases hfound : other.subCatalog? name with
      | none => exact absurd (hkeys ▸ hkey) (Namespace.get?_eq_none_iff.mp hfound)
      | some found =>
        have hsize := sizeOf_sub_lt hsub
        rw [eq_of_faceAt?_eq (hcatalog.sub hsub) (hother.sub hfound) fun path => ?_]
        have hpath := h (name :: path)
        rwa [faceAt?_cons, faceAt?_cons, hsub, hfound] at hpath
  have hresources : ∀ kind, catalog.resources kind = other.resources kind := fun kind =>
    Namespace.ext_entries (congrFun (congrArg Face.resources hface) kind)
  have hname : catalog.name = other.name := congrArg Face.name hface
  have himplicit : catalog.implicit = other.implicit := congrArg Face.implicit hface
  have htables := hresources .table
  have hfunctions := hresources .function
  have hprocedures := hresources .procedure
  have htableFunctions := hresources .tableFunction
  cases catalog
  cases other
  simp only [resources] at *
  subst hname himplicit htables hfunctions hprocedures htableFunctions hsubs
  rfl
termination_by sizeOf catalog

/-! ## Trees that differ along a chain of segments -/

/-- The trees differ at most at the root and at the nodes along the segments, the last of which is
left out. -/
def SameElsewhere (segments : List String) (before after : Catalog) : Prop :=
  ∀ path : List String,
    (∀ count < segments.length, path.map Name.fold ≠ (segments.take count).map Name.fold) →
      after.faceAt? path = before.faceAt? path

theorem sameElsewhere_singleton (segment : String) {before after : Catalog}
    (h : ∀ name, after.subCatalog? name = before.subCatalog? name) :
    SameElsewhere [segment] before after := by
  intro path hpath
  cases path with
  | nil => exact absurd rfl (hpath 0 Nat.one_pos)
  | cons name path => rw [faceAt?_cons, faceAt?_cons, h name]

-- The nodes below the first segment can be reached under any spelling of it.
theorem sameElsewhere_cons {segment : String} {rest : List String} {before after : Catalog}
    (hrest : rest ≠ [])
    (hbelow : ∀ path, path ≠ [] →
      (∀ count < rest.length, path.map Name.fold ≠ (rest.take count).map Name.fold) →
        after.faceAt? (segment :: path) = before.faceAt? (segment :: path))
    (haside : ∀ other path, Name.fold other ≠ Name.fold segment →
      after.faceAt? (other :: path) = before.faceAt? (other :: path)) :
    SameElsewhere (segment :: rest) before after := by
  intro path hpath
  cases path with
  | nil => exact absurd rfl (hpath 0 (Nat.succ_pos _))
  | cons written path =>
    by_cases hfold : Name.fold written = Name.fold segment
    · have hsame : (written :: path).map Name.fold = (segment :: path).map Name.fold := by
        rw [List.map_cons, List.map_cons, hfold]
      have hoff : ∀ count < rest.length,
          path.map Name.fold ≠ (rest.take count).map Name.fold := by
        intro count hcount heq
        refine hpath (count + 1) (Nat.succ_lt_succ hcount) ?_
        rw [List.take_succ_cons, List.map_cons, List.map_cons, hfold, heq]
      have hnil : path ≠ [] := by
        rintro rfl
        exact hoff 0 (List.length_pos_iff.mpr hrest) rfl
      rw [faceAt?_congr hsame, faceAt?_congr hsame]
      exact hbelow path hnil hoff
    · exact haside written path hfold

theorem SameElsewhere.faceAt?_segments {segments : List String} {before after : Catalog}
    (h : SameElsewhere segments before after) :
    after.faceAt? segments = before.faceAt? segments := by
  refine h segments fun count hcount heq => ?_
  have hlength := congrArg List.length heq
  rw [List.length_map, List.length_map, List.length_take] at hlength
  omega

theorem eq_of_sameElsewhere {segments : List String} {before after other : Catalog}
    (hafter : after.Keyed) (hother : other.Keyed) (h : SameElsewhere segments before after)
    (h' : SameElsewhere segments before other)
    (halong : ∀ count < segments.length,
      after.faceAt? (segments.take count) = other.faceAt? (segments.take count)) :
    after = other := by
  refine eq_of_faceAt?_eq hafter hother fun path => ?_
  by_cases hpath : ∃ count < segments.length,
      path.map Name.fold = (segments.take count).map Name.fold
  · obtain ⟨count, hcount, hfold⟩ := hpath
    rw [faceAt?_congr hfold, faceAt?_congr hfold, halong count hcount]
  · have hne : ∀ count < segments.length,
        path.map Name.fold ≠ (segments.take count).map Name.fold :=
      fun count hcount hfold => hpath ⟨count, hcount, hfold⟩
    rw [h path hne, h' path hne]

end Catalog

end SchemaCatalog
