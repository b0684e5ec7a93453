import SchemaCatalog.Proofs.Catalog.Coherence

/-!
# Creates and deletes keep trees coherent

Along the chain of a name a node and its sub-catalog change alike: what is stored or removed in the
node under a name is stored or removed in the sub-catalog under the rest of the name.
-/

namespace SchemaCatalog.Catalog

variable {kind : ResourceKind}

/-! ## A change of one sub-catalog -/

theorem mem_keys_erase {α : Type} {space : Namespace α} {name key : String}
    (h : key ∈ (space.erase name).keys) : key ∈ space.keys := by
  have hsublist : (space.erase name).keys.Sublist space.keys := List.filter_sublist.map _
  exact hsublist.subset h

theorem mem_keys_enterOrCreate {segment key : String} {change : Catalog → Catalog}
    {node : Catalog} (h : key ∈ (node.enterOrCreate segment change).catalogs.keys) :
    key = Name.fold segment ∨ key ∈ node.catalogs.keys := by
  unfold enterOrCreate at h
  cases hsub : node.subCatalog? segment with
  | none =>
    rw [hsub] at h
    have hkeys : key ∈ (node.catalogs.erase segment).keys ++ [Name.fold segment] := by
      simpa [Namespace.insert, Namespace.keys] using h
    rcases List.mem_append.mp hkeys with hkey | hkey
    · exact Or.inr (mem_keys_erase hkey)
    · exact Or.inl (List.mem_singleton.mp hkey)
  | some sub =>
    rw [hsub] at h
    have hkeys : key ∈ (node.catalogs.replace segment (change sub)).keys := h
    rw [Namespace.keys_replace] at hkeys
    exact Or.inr hkeys

theorem mem_keys_enterAndPrune {segment key : String} {change : Catalog → Catalog}
    {node : Catalog} (h : key ∈ (node.enterAndPrune segment change).catalogs.keys) :
    key ∈ node.catalogs.keys := by
  unfold enterAndPrune at h
  split at h
  · split at h
    · exact mem_keys_erase h
    · have hkeys : key ∈ (node.catalogs.replace segment _).keys := h
      rw [Namespace.keys_replace] at hkeys
      exact hkeys
  · exact h

/-! ## Trees that stay coherent -/

theorem coherent_of_same_subs {catalog changed : Catalog} (h : Coherent catalog)
    (hcatalogs : changed.catalogs = catalog.catalogs)
    (hrestrict : ∀ name kind, (changed.resources kind).restrict (kind.strip (Name.fold name)) =
      (catalog.resources kind).restrict (kind.strip (Name.fold name))) : Coherent changed := by
  have hsub : ∀ name, changed.subCatalog? name = catalog.subCatalog? name := by
    intro name
    unfold subCatalog?
    rw [hcatalogs]
  have hnode := h.mirrored
  refine everywhere_iff.mpr ⟨⟨?_, ?_, ?_, ?_, ?_⟩, ?_⟩
  · exact fun name sub hfound => hnode.implicit name sub (hsub name ▸ hfound)
  · exact fun name sub hfound => hnode.holding name sub (hsub name ▸ hfound)
  · intro name sub hfound kind
    rw [hrestrict]
    exact hnode.restricted name sub (hsub name ▸ hfound) kind
  · intro name hfound kind
    rw [hrestrict]
    exact hnode.missing name (hsub name ▸ hfound) kind
  · rw [hcatalogs]
    exact hnode.keys
  · exact fun name sub hfound => h.sub (hsub name ▸ hfound)

/-- What a node and the sub-catalog of one segment must satisfy after a change of both. -/
structure Fits (segment : String) (node : Catalog) : Prop where
  present : ∀ sub, node.subCatalog? segment = some sub →
    Coherent sub ∧ sub.implicit = true ∧ (∃ kind, sub.resources kind ≠ .empty) ∧
      ∀ kind, sub.resources kind =
        (node.resources kind).restrict (kind.strip (Name.fold segment))
  absent : node.subCatalog? segment = none → ∀ kind,
    (node.resources kind).restrict (kind.strip (Name.fold segment)) = .empty

theorem coherent_of_fits {catalog changed : Catalog} {segment : String} (h : Coherent catalog)
    (hfits : Fits segment changed)
    (hsubs : ∀ name, Name.fold name ≠ Name.fold segment →
      changed.subCatalog? name = catalog.subCatalog? name)
    (hrestrict : ∀ name kind, Name.fold name ≠ Name.fold segment →
      (changed.resources kind).restrict (kind.strip (Name.fold name)) =
        (catalog.resources kind).restrict (kind.strip (Name.fold name)))
    (hkeys : ∀ key ∈ changed.catalogs.keys,
      key = Name.fold segment ∨ key ∈ catalog.catalogs.keys) : Coherent changed := by
  have hnode := h.mirrored
  have hself : ∀ {name : String} {sub : Catalog}, Name.fold name = Name.fold segment →
      changed.subCatalog? name = some sub → changed.subCatalog? segment = some sub :=
    fun hname hfound => subCatalog?_congr hname changed ▸ hfound
  refine everywhere_iff.mpr ⟨⟨?_, ?_, ?_, ?_, ?_⟩, ?_⟩
  · intro name sub hfound
    by_cases hname : Name.fold name = Name.fold segment
    · exact (hfits.present sub (hself hname hfound)).2.1
    · exact hnode.implicit name sub (hsubs name hname ▸ hfound)
  · intro name sub hfound
    by_cases hname : Name.fold name = Name.fold segment
    · exact (hfits.present sub (hself hname hfound)).2.2.1
    · exact hnode.holding name sub (hsubs name hname ▸ hfound)
  · intro name sub hfound kind
    by_cases hname : Name.fold name = Name.fold segment
    · rw [hname]
      exact (hfits.present sub (hself hname hfound)).2.2.2 kind
    · rw [hrestrict name kind hname]
      exact hnode.restricted name sub (hsubs name hname ▸ hfound) kind
  · intro name hfound kind
    by_cases hname : Name.fold name = Name.fold segment
    · rw [hname]
      exact hfits.absent (subCatalog?_congr hname changed ▸ hfound) kind
    · rw [hrestrict name kind hname]
      exact hnode.missing name (hsubs name hname ▸ hfound) kind
  · intro key hkey
    rcases hkeys key hkey with rfl | hkey
    · exact ⟨segment, rfl⟩
    · exact hnode.keys key hkey
  · intro name sub hfound
    by_cases hname : Name.fold name = Name.fold segment
    · exact (hfits.present sub (hself hname hfound)).1
    · exact h.sub (hsubs name hname ▸ hfound)

/-- The sub-catalog of a segment, or the one that would be made for it. -/
def part (segment : String) (catalog : Catalog) : Catalog :=
  (catalog.subCatalog? segment).getD (newImplicit segment)

theorem resources_newImplicit (segment : String) (kind : ResourceKind) :
    (newImplicit segment).resources kind = .empty := by
  cases kind <;> rfl

theorem Coherent.part {catalog : Catalog} (h : Coherent catalog) (segment : String) :
    Coherent (catalog.part segment) ∧ (catalog.part segment).implicit = true ∧
      ∀ kind, (catalog.part segment).resources kind =
        (catalog.resources kind).restrict (kind.strip (Name.fold segment)) := by
  unfold Catalog.part
  cases hsub : catalog.subCatalog? segment with
  | none =>
    refine ⟨coherent_of_isEmpty rfl, rfl, fun kind => ?_⟩
    rw [h.mirrored.missing segment hsub kind]
    exact resources_newImplicit segment kind
  | some sub =>
    exact ⟨h.sub hsub, h.mirrored.implicit segment sub hsub, h.mirrored.restricted segment sub hsub⟩

theorem part_withResources (kind : ResourceKind) (segment : String) (node : Catalog)
    (space : Namespace (Resource kind)) :
    (node.withResources kind space).part segment = node.part segment := by
  unfold part
  rw [subCatalog?_withResources]

theorem fits_enterOrCreate {node : Catalog} {segment : String} {change : Catalog → Catalog}
    (hcoherent : Coherent (change (node.part segment)))
    (himplicit : (change (node.part segment)).implicit = true)
    (hholding : ∃ kind, (change (node.part segment)).resources kind ≠ .empty)
    (hresources : ∀ kind, (change (node.part segment)).resources kind =
      (node.resources kind).restrict (kind.strip (Name.fold segment))) :
    Fits segment (node.enterOrCreate segment change) := by
  constructor
  · intro sub hsub
    rw [subCatalog?_enterOrCreate_self] at hsub
    cases hsub
    refine ⟨hcoherent, himplicit, hholding, fun kind => ?_⟩
    rw [resources_enterOrCreate]
    exact hresources kind
  · intro habsent
    rw [subCatalog?_enterOrCreate_self] at habsent
    cases habsent

-- whether the sub-catalog stays or goes, what is left in it is the part of the node below it
theorem fits_enterAndPrune {node : Catalog} {segment : String} {change : Catalog → Catalog}
    (hcoherent : Coherent (change (node.part segment)))
    (himplicit : (change (node.part segment)).implicit = true)
    (hnew : ∀ kind, (change (newImplicit segment)).resources kind = .empty)
    (hresources : ∀ kind, (change (node.part segment)).resources kind =
      (node.resources kind).restrict (kind.strip (Name.fold segment))) :
    Fits segment (node.enterAndPrune segment change) := by
  constructor
  · intro sub hsub
    rw [subCatalog?_enterAndPrune_self] at hsub
    rcases Option.bind_eq_some_iff.mp hsub with ⟨old, hold, hstays⟩
    have hpart : node.part segment = old := by
      rw [Catalog.part, hold, Option.getD_some]
    rw [hpart] at hcoherent himplicit hresources
    split at hstays
    · cases hstays
    · rename_i hkept
      cases hstays
      rw [himplicit, Bool.true_and, Bool.not_eq_true] at hkept
      refine ⟨hcoherent, himplicit, ?_, fun kind => ?_⟩
      · -- it stays because it is not empty, and it has no sub-catalogs without resources
        apply Classical.byContradiction
        intro hnone
        have hempty := hcoherent.mirrored.isEmpty fun kind =>
          Classical.not_not.mp fun hkind => hnone ⟨kind, hkind⟩
        rw [hempty] at hkept
        cases hkept
      · rw [resources_enterAndPrune]
        exact hresources kind
  · intro habsent kind
    rw [resources_enterAndPrune, ← hresources]
    rw [subCatalog?_enterAndPrune_self] at habsent
    cases hold : node.subCatalog? segment with
    | none =>
      rw [Catalog.part, hold, Option.getD_none]
      exact hnew kind
    | some old =>
      rw [hold, Option.bind_some] at habsent
      split at habsent
      · rename_i hgone
        rw [Bool.and_eq_true] at hgone
        rw [Catalog.part, hold, Option.getD_some]
        exact resources_of_isEmpty hgone.2 kind
      · cases habsent

/-! ## A change of the resources and the part below a segment -/

theorem restrict_store (strip : ResourceKind → String → Option String) {name rest : String}
    {resource : Resource kind}
    (hcarries : Namespace.Carries (strip kind) (ownKey kind resource name)
      (ownKey kind resource rest))
    {node sub : Catalog}
    (hsub : ∀ other, sub.resources other = (node.resources other).restrict (strip other))
    (other : ResourceKind) :
    (sub.store kind resource rest).resources other =
      ((node.store kind resource name).resources other).restrict (strip other) := by
  by_cases hother : other = kind
  · subst hother
    rw [resources_store, resources_store, hsub]
    exact (Namespace.restrict_insert hcarries _ _).symm
  · unfold store
    rw [resources_withResources_of_ne hother, resources_withResources_of_ne hother]
    exact hsub other

theorem restrict_store_of_misses (strip : ResourceKind → String → Option String) {name : String}
    {resource : Resource kind} (hmisses : Namespace.Misses (strip kind) (ownKey kind resource name))
    (node : Catalog) (other : ResourceKind) :
    ((node.store kind resource name).resources other).restrict (strip other) =
      (node.resources other).restrict (strip other) := by
  by_cases hother : other = kind
  · subst hother
    rw [resources_store]
    exact Namespace.restrict_insert_of_misses hmisses _ _
  · unfold store
    rw [resources_withResources_of_ne hother]

theorem restrict_discard (strip : ResourceKind → String → Option String) {name rest : String}
    {selects : Selection}
    (hcarries : Namespace.Carries (strip kind) (selects name) (selects rest))
    {node sub : Catalog}
    (hsub : ∀ other, sub.resources other = (node.resources other).restrict (strip other))
    (other : ResourceKind) :
    (sub.discard kind selects rest).resources other =
      ((node.discard kind selects name).resources other).restrict (strip other) := by
  by_cases hother : other = kind
  · subst hother
    rw [resources_discard, resources_discard, hsub]
    exact (Namespace.restrict_removeWhere hcarries.agree _).symm
  · unfold discard
    rw [resources_withResources_of_ne hother, resources_withResources_of_ne hother]
    exact hsub other

theorem restrict_discard_of_misses (strip : ResourceKind → String → Option String)
    {name : String} {selects : Selection}
    (hmisses : Namespace.Misses (strip kind) (selects name)) (node : Catalog)
    (other : ResourceKind) :
    ((node.discard kind selects name).resources other).restrict (strip other) =
      (node.resources other).restrict (strip other) := by
  by_cases hother : other = kind
  · subst hother
    rw [resources_discard]
    exact Namespace.restrict_removeWhere_of_misses hmisses _
  · unfold discard
    rw [resources_withResources_of_ne hother]

theorem resources_discard_of_empty (selects : Selection) (name : String) {node : Catalog}
    (h : ∀ other, node.resources other = .empty) (other : ResourceKind) :
    (node.discard kind selects name).resources other = .empty := by
  by_cases hother : other = kind
  · subst hother
    rw [resources_discard, h]
    rfl
  · unfold discard
    rw [resources_withResources_of_ne hother, h]

/-! ## Whole chains -/

theorem coherent_registerAlong {resource : Resource kind}
    (hselects : ByName kind (ownKey kind resource)) {segments : List String}
    (hsegments : ∀ segment ∈ segments, Name.SigmaFree segment ∧ '.' ∉ segment.toList)
    {catalog : Catalog} (h : Coherent catalog) :
    Coherent (catalog.registerAlong kind resource segments) := by
  induction segments generalizing catalog with
  | nil => exact h
  | cons segment rest ih =>
    have hsegment := hsegments segment List.mem_cons_self
    have hrest := fun other hother => hsegments other (List.mem_cons_of_mem _ hother)
    cases rest with
    | nil =>
      refine coherent_of_same_subs h (catalogs_withResources kind catalog _) fun name other => ?_
      exact restrict_store_of_misses (fun kind => kind.strip (Name.fold name))
        (hselects.misses_of_dot_notMem hsegment.1 hsegment.2 _) catalog other
    | cons next others =>
      have hsigma : Name.SigmaFree (Name.dotted (next :: others)) :=
        Name.sigmaFree_dotted fun other hother => (hrest other hother).1
      have hdotted : Name.dotted (segment :: next :: others) =
          Name.under segment (Name.dotted (next :: others)) :=
        Name.dotted_cons (List.cons_ne_nil _ _) segment
      rcases h.part segment with ⟨hpart, himplicit, hresources⟩
      rw [registerAlong]
      -- below the segment the induction applies to the part, which has the same entries as the node
      -- sees below it; elsewhere the new key is not seen
      apply coherent_of_fits h
      · apply fits_enterOrCreate
        · rw [store, part_withResources]
          exact ih hrest hpart
        · rw [store, part_withResources]
          exact (implicit_registerAlong _ _ _).trans himplicit
        · -- the resource itself is in the sub-catalog
          refine ⟨kind, fun hempty => ?_⟩
          rw [resources_registerAlong, resources_store] at hempty
          have hentries := congrArg Namespace.entries hempty
          exact absurd hentries (List.append_ne_nil_of_right_ne_nil _ (List.cons_ne_nil _ _))
        · intro other
          rw [store, part_withResources, ← store, resources_registerAlong, hdotted]
          exact restrict_store (fun kind => kind.strip (Name.fold segment))
            (hselects.carries hsegment.1 hsigma hsegment.2) hresources other
      · intro name hname
        rw [subCatalog?_enterOrCreate_of_ne hname]
        exact subCatalog?_withResources kind catalog _ name
      · intro name other hname
        rw [resources_enterOrCreate, hdotted]
        exact restrict_store_of_misses (fun kind => kind.strip (Name.fold name))
          (hselects.misses_under hsegment.1 hsigma hsegment.2 hname) catalog other
      · intro key hkey
        have hkeys := mem_keys_enterOrCreate hkey
        rw [store, catalogs_withResources] at hkeys
        exact hkeys

theorem coherent_unregisterAlong {selects : Selection} (hselects : ByName kind selects)
    {segments : List String}
    (hsegments : ∀ segment ∈ segments, Name.SigmaFree segment ∧ '.' ∉ segment.toList)
    {catalog : Catalog} (h : Coherent catalog) :
    Coherent (catalog.unregisterAlong kind selects segments) := by
  induction segments generalizing catalog with
  | nil => exact h
  | cons segment rest ih =>
    have hsegment := hsegments segment List.mem_cons_self
    have hrest := fun other hother => hsegments other (List.mem_cons_of_mem _ hother)
    cases rest with
    | nil =>
      refine coherent_of_same_subs h (catalogs_withResources kind catalog _) fun name other => ?_
      exact restrict_discard_of_misses (fun kind => kind.strip (Name.fold name))
        (hselects.misses_of_dot_notMem hsegment.1 hsegment.2 _) catalog other
    | cons next others =>
      have hsigma : Name.SigmaFree (Name.dotted (next :: others)) :=
        Name.sigmaFree_dotted fun other hother => (hrest other hother).1
      have hdotted : Name.dotted (segment :: next :: others) =
          Name.under segment (Name.dotted (next :: others)) :=
        Name.dotted_cons (List.cons_ne_nil _ _) segment
      rcases h.part segment with ⟨hpart, himplicit, hresources⟩
      rw [unregisterAlong]
      apply coherent_of_fits h
      · apply fits_enterAndPrune
        · rw [discard, part_withResources]
          exact ih hrest hpart
        · rw [discard, part_withResources]
          exact (implicit_unregisterAlong _ _ _).trans himplicit
        · -- from a sub-catalog that is not there nothing is removed
          intro other
          rw [resources_unregisterAlong]
          exact resources_discard_of_empty _ _ (resources_newImplicit segment) other
        · intro other
          rw [discard, part_withResources, ← discard, resources_unregisterAlong, hdotted]
          exact restrict_discard (fun kind => kind.strip (Name.fold segment))
            (hselects.carries hsegment.1 hsigma hsegment.2) hresources other
      · intro name hname
        rw [subCatalog?_enterAndPrune_of_ne hname]
        exact subCatalog?_withResources kind catalog _ name
      · intro name other hname
        rw [resources_enterAndPrune, hdotted]
        exact restrict_discard_of_misses (fun kind => kind.strip (Name.fold name))
          (hselects.misses_under hsegment.1 hsigma hsegment.2 hname) catalog other
      · intro key hkey
        have hkeys := mem_keys_enterAndPrune hkey
        rw [discard, catalogs_withResources] at hkeys
        exact Or.inr hkeys

end SchemaCatalog.Catalog
