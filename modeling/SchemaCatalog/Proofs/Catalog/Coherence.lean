import SchemaCatalog.Proofs.Catalog.Built
import SchemaCatalog.Proofs.Catalog.Key

/-!
# Coherent trees

A tree is coherent if all that a sub-catalog holds is held by its parent as well, under longer names
and in the same order, and the parent holds nothing else under such names.  Then the root alone says
what the tree holds, and every place of a name sees the same.
-/

namespace SchemaCatalog.Catalog

/-- Each sub-catalog holds the part of the node below its own key, and a part that is not empty has
its sub-catalog. -/
structure Mirrored (node : Catalog) : Prop where
  implicit : ∀ name sub, node.subCatalog? name = some sub → sub.implicit = true
  holding : ∀ name sub, node.subCatalog? name = some sub →
    ∃ kind, sub.resources kind ≠ .empty
  restricted : ∀ name sub, node.subCatalog? name = some sub → ∀ kind,
    sub.resources kind = (node.resources kind).restrict (kind.strip (Name.fold name))
  missing : ∀ name, node.subCatalog? name = none → ∀ kind,
    (node.resources kind).restrict (kind.strip (Name.fold name)) = .empty
  keys : ∀ key ∈ node.catalogs.keys, ∃ name, key = Name.fold name

def Coherent (catalog : Catalog) : Prop :=
  catalog.Everywhere Mirrored

theorem Coherent.mirrored {catalog : Catalog} (h : Coherent catalog) : Mirrored catalog :=
  (everywhere_iff.mp h).1

theorem Coherent.sub {catalog sub : Catalog} {name : String} (h : Coherent catalog)
    (hsub : catalog.subCatalog? name = some sub) : Coherent sub :=
  (everywhere_iff.mp h).2 name sub hsub

/-! ## Nodes without resources -/

-- A mirrored node without resources of its own has no sub-catalogs either.
theorem Mirrored.isEmpty {node : Catalog} (h : Mirrored node)
    (hresources : ∀ kind, node.resources kind = .empty) : node.isEmpty = true := by
  have hcatalogs : node.catalogs.isEmpty = true := by
    cases hentries : node.catalogs.entries with
    | nil => exact List.isEmpty_iff.mpr hentries
    | cons entry rest =>
      have hkey : entry.1 ∈ node.catalogs.keys := by
        rw [Namespace.keys, hentries]
        exact List.mem_cons_self
      rcases h.keys _ hkey with ⟨name, hname⟩
      cases hsub : node.subCatalog? name with
      | none =>
        have hnone : Name.fold name ∉ node.catalogs.keys := Namespace.get?_eq_none_iff.mp hsub
        exact absurd (hname ▸ hkey) hnone
      | some sub =>
        rcases h.holding name sub hsub with ⟨kind, hkind⟩
        rw [h.restricted name sub hsub, hresources] at hkind
        exact absurd Namespace.restrict_empty hkind
  have htables : node.tables = .empty := hresources .table
  have hfunctions : node.functions = .empty := hresources .function
  have hprocedures : node.procedures = .empty := hresources .procedure
  have htableFunctions : node.tableFunctions = .empty := hresources .tableFunction
  rw [Catalog.isEmpty, htables, hfunctions, hprocedures, htableFunctions, hcatalogs]
  rfl

theorem coherent_of_isEmpty {catalog : Catalog} (h : catalog.isEmpty = true) :
    Coherent catalog := by
  have hsubs : ∀ name sub, ¬ catalog.subCatalog? name = some sub := by
    intro name sub hsub
    rw [subCatalog?_of_isEmpty h] at hsub
    cases hsub
  have hentries : catalog.catalogs.keys = [] := by
    simp only [isEmpty, Bool.and_eq_true] at h
    rw [Namespace.keys, List.isEmpty_iff.mp h.2]
    rfl
  refine everywhere_iff.mpr ⟨⟨?_, ?_, ?_, ?_, ?_⟩, ?_⟩
  · exact fun name sub hsub => absurd hsub (hsubs name sub)
  · exact fun name sub hsub => absurd hsub (hsubs name sub)
  · exact fun name sub hsub => absurd hsub (hsubs name sub)
  · intro name _ kind
    rw [resources_of_isEmpty h]
    exact Namespace.restrict_empty
  · intro key hkey
    rw [hentries] at hkey
    cases hkey
  · exact fun name sub hsub => absurd hsub (hsubs name sub)

/-! ## What the places of a name see -/

variable {kind : ResourceKind} {selects : Selection}

theorem Mirrored.find?_sub {node : Catalog} (h : Mirrored node) {name : String}
    {whole left : String → Bool}
    (hcarries : Namespace.Carries (kind.strip (Name.fold name)) whole left) :
    ((node.subCatalog? name).bind fun sub => (sub.resources kind).find? left) =
      (node.resources kind).find? whole := by
  rw [← Namespace.find?_restrict hcarries]
  cases hsub : node.subCatalog? name with
  | none =>
    rw [h.missing name hsub]
    rfl
  | some sub =>
    rw [← h.restricted name sub hsub]
    rfl

-- In a coherent tree a place sees what the root sees under the full name.
theorem Coherent.seen?_eq (hselects : ByName kind selects) {catalogs : List String} {name : String}
    (hcatalogs : ∀ segment ∈ catalogs, Name.SigmaFree segment ∧ '.' ∉ segment.toList)
    (hname : Name.SigmaFree name) {catalog : Catalog} (h : Coherent catalog) :
    catalog.seen? kind selects ⟨catalogs, name⟩ =
      (catalog.resources kind).find? (selects (Name.dotted (catalogs ++ [name]))) := by
  induction catalogs generalizing catalog with
  | nil =>
    rw [List.nil_append, Name.dotted_singleton]
    rfl
  | cons segment rest ih =>
    have hrest := fun other hother => hcatalogs other (List.mem_cons_of_mem _ hother)
    have hsegment := hcatalogs segment List.mem_cons_self
    have hne : rest ++ [name] ≠ [] := List.append_ne_nil_of_right_ne_nil _ (List.cons_ne_nil _ _)
    have hdotted : Name.SigmaFree (Name.dotted (rest ++ [name])) := by
      apply Name.sigmaFree_dotted
      intro other hother
      rcases List.mem_append.mp hother with hother | hother
      · exact (hrest other hother).1
      · exact List.mem_singleton.mp hother ▸ hname
    have hcarries := hselects.carries hsegment.1 hdotted hsegment.2
    rw [List.cons_append, Name.dotted_cons hne, ← h.mirrored.find?_sub hcarries]
    have hbelow := @seen?_below kind selects catalog segment ⟨rest, name⟩
    refine hbelow.trans ?_
    cases hsub : catalog.subCatalog? segment with
    | none => rfl
    | some sub => exact ih hrest (h.sub hsub)

theorem dotted_of_mem_splits {segments : List String} {place : Place}
    (h : place ∈ Place.splits segments) :
    Name.dotted (place.catalogs ++ [place.name]) = Name.dotted segments := by
  induction segments generalizing place with
  | nil => cases h
  | cons segment rest ih =>
    rw [Place.splits_cons] at h
    rcases List.mem_cons.mp h with rfl | h
    · exact Name.dotted_singleton _
    · rcases List.mem_map.mp h with ⟨inner, hinner, rfl⟩
      have hrest : rest ≠ [] := by
        rintro rfl
        cases hinner
      have hne : inner.catalogs ++ [inner.name] ≠ [] :=
        List.append_ne_nil_of_right_ne_nil _ (List.cons_ne_nil _ _)
      rw [Name.dotted_cons hrest, ← ih hinner, ← Name.dotted_cons hne]
      rfl

theorem Coherent.seen?_of_mem_splits (hselects : ByName kind selects) {segments : List String}
    (hsegments : ∀ segment ∈ segments, Name.SigmaFree segment ∧ '.' ∉ segment.toList)
    {place : Place} (hplace : place ∈ Place.splits segments) {catalog : Catalog}
    (h : Coherent catalog) :
    catalog.seen? kind selects place =
      (catalog.resources kind).find? (selects (Name.dotted segments)) := by
  have hdotted := dotted_of_mem_splits hplace
  rcases List.mem_map.mp hplace with ⟨count, -, rfl⟩
  rw [← hdotted]
  apply seen?_eq hselects _ _ h
  · exact fun segment hsegment => hsegments segment (List.mem_of_mem_take hsegment)
  · exact Name.sigmaFree_dotted fun segment hsegment =>
      (hsegments segment (List.mem_of_mem_drop hsegment)).1

end SchemaCatalog.Catalog
