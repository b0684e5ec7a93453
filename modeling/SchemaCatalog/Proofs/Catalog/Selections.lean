import SchemaCatalog.Proofs.Catalog.DeleteEffect

/-!
# Deletes by several selections

Two deletes along the same segments are one delete by both selections: a node that the first one
prunes is empty, so the second one would have left it alone.  Deletes by selections that share no keys
do not get in each other's way, so a list of them succeeds as one.
-/

namespace SchemaCatalog

theorem Namespace.removeWhere_removeWhere {α : Type} (space : Namespace α)
    (first second : String → Bool) :
    (space.removeWhere first).removeWhere second =
      space.removeWhere fun key => first key || second key := by
  apply ext_entries
  simp only [removeWhere, List.filter_filter, Bool.not_or, Bool.and_comm]

theorem Namespace.removeWhere_congr {α : Type} {space : Namespace α} {first second : String → Bool}
    (h : ∀ key ∈ space.keys, first key = second key) :
    space.removeWhere first = space.removeWhere second := by
  apply ext_entries
  refine List.filter_congr fun entry hentry => ?_
  rw [h _ (List.mem_map_of_mem hentry)]

/-- A node that holds something stays. -/
theorem Face.kept?_of_mem {kind : ResourceKind} {face : Face} {entry : String × Resource kind}
    (h : entry ∈ face.resources kind) (depth : Nat) : face.kept? depth = some face := by
  have hkind : (face.resources kind).isEmpty = false :=
    List.isEmpty_eq_false_iff.mpr (List.ne_nil_of_mem h)
  have hface : face.isEmpty = false := by
    unfold isEmpty
    cases kind <;> simp only [hkind, Bool.false_and, Bool.and_false]
  rw [kept?, hface, Bool.and_false, Bool.and_false]
  rfl

namespace Catalog

variable {kind : ResourceKind} {selects first second : Selection} {segments : List String}
  {catalog : Catalog}

/-! ## One after the other -/

theorem discard_discard (name : String) (node : Catalog) :
    (node.discard kind first name).discard kind second name =
      node.discard kind (fun name key => first name key || second name key) name := by
  rw [discard, resources_discard, Namespace.removeWhere_removeWhere, discard,
    withResources_withResources]
  rfl

theorem discard_enterAndPrune (name segment : String) (change : Catalog → Catalog)
    (node : Catalog) :
    (node.enterAndPrune segment change).discard kind selects name =
      (node.discard kind selects name).enterAndPrune segment change := by
  have hsame : (node.discard kind selects name).subCatalog? segment = node.subCatalog? segment :=
    subCatalog?_withResources kind node _ segment
  unfold enterAndPrune
  rw [hsame]
  cases node.subCatalog? segment with
  | none => rfl
  | some sub =>
    cases hgone : (change sub).implicit && (change sub).isEmpty <;>
      simp only [hgone, Bool.false_eq_true, if_false, if_true] <;> cases kind <;> rfl

theorem discard_of_isEmpty (h : catalog.isEmpty = true) (name : String) :
    catalog.discard kind selects name = catalog := by
  have hnone : (catalog.resources kind).removeWhere (selects name) = catalog.resources kind := by
    rw [resources_of_isEmpty h]
    rfl
  rw [discard, hnone, withResources_resources]

theorem unregisterAlong_of_isEmpty (h : catalog.isEmpty = true) (segments : List String) :
    catalog.unregisterAlong kind selects segments = catalog := by
  unfold unregisterAlong
  split
  · rfl
  · exact discard_of_isEmpty h _
  · rw [discard_of_isEmpty h, enterAndPrune, subCatalog?_of_isEmpty h]

-- A sub-catalog that goes at once must not be changed by the second visit.
theorem enterAndPrune_enterAndPrune (segment : String) {first second : Catalog → Catalog}
    (hempty : ∀ sub : Catalog, sub.isEmpty = true → second sub = sub) (catalog : Catalog) :
    (catalog.enterAndPrune segment first).enterAndPrune segment second =
      catalog.enterAndPrune segment (second ∘ first) := by
  cases hsub : catalog.subCatalog? segment with
  | none => simp only [enterAndPrune, hsub]
  | some sub =>
    cases hgone : (first sub).implicit && (first sub).isEmpty with
    | true =>
      have hsame : second (first sub) = first sub :=
        hempty _ (Bool.and_eq_true_iff.mp hgone).2
      have hnone := subCatalog?_removeSubCatalog_self catalog segment
      simp only [enterAndPrune, hsub, hgone, Function.comp_apply, hsame, if_true, hnone]
    | false =>
      have hafter := subCatalog?_replace_self (first sub) hsub
      simp only [enterAndPrune, hsub, hgone, Bool.false_eq_true, if_false, Function.comp_apply,
        hafter, removeSubCatalog, Namespace.replace_replace, Namespace.erase_replace]

theorem unregisterAlong_unregisterAlong (first second : Selection) (segments : List String)
    (catalog : Catalog) :
    (catalog.unregisterAlong kind first segments).unregisterAlong kind second segments =
      catalog.unregisterAlong kind (fun name key => first name key || second name key)
        segments := by
  induction segments generalizing catalog with
  | nil => rfl
  | cons segment rest ih =>
    by_cases hne : rest = []
    · subst hne
      exact discard_discard segment catalog
    · have hboth : unregisterAlong kind second rest ∘ unregisterAlong kind first rest =
          unregisterAlong kind (fun name key => first name key || second name key) rest :=
        funext ih
      rw [unregisterAlong_cons first segment hne, unregisterAlong_cons second segment hne,
        discard_enterAndPrune, discard_discard, unregisterAlong_cons _ segment hne,
        enterAndPrune_enterAndPrune segment (fun _ h => unregisterAlong_of_isEmpty h rest), hboth]

/-! ## Selections that agree -/

theorem enterAndPrune_apply_congr {segment : String} {first second : Catalog → Catalog}
    (h : ∀ sub, catalog.subCatalog? segment = some sub → first sub = second sub) :
    catalog.enterAndPrune segment first = catalog.enterAndPrune segment second := by
  cases hsub : catalog.subCatalog? segment with
  | none => simp only [enterAndPrune, hsub]
  | some sub => simp only [enterAndPrune, hsub, h sub hsub]

-- Only the keys that are stored at the places of the name matter.
theorem unregisterAlong_eq_of_agree
    (h : ∀ place ∈ Place.splits segments, ∀ node, catalog.descend? place.catalogs = some node →
      ∀ key ∈ (node.resources kind).keys, first place.name key = second place.name key) :
    catalog.unregisterAlong kind first segments = catalog.unregisterAlong kind second segments := by
  induction segments generalizing catalog with
  | nil => rfl
  | cons segment rest ih =>
    rw [Place.splits_cons] at h
    have hdiscard : catalog.discard kind first (Name.dotted (segment :: rest)) =
        catalog.discard kind second (Name.dotted (segment :: rest)) := by
      rw [discard, discard,
        Namespace.removeWhere_congr (h _ List.mem_cons_self catalog rfl)]
    by_cases hne : rest = []
    · subst hne
      rw [Name.dotted_singleton] at hdiscard
      exact hdiscard
    · rw [unregisterAlong_cons first segment hne, unregisterAlong_cons second segment hne, hdiscard]
      refine enterAndPrune_apply_congr fun sub hsub => ih fun place hplace node hnode => ?_
      rw [discard, subCatalog?_withResources] at hsub
      exact h (place.below segment) (List.mem_cons_of_mem _ (List.mem_map_of_mem hplace)) node
        (descend?_cons_eq_some_iff.mpr ⟨sub, hsub, hnode⟩)

/-! ## Selections that share no keys -/

theorem exists_of_mem_splits {place : Place} (h : place ∈ Place.splits segments) :
    ∃ count < segments.length,
      place = ⟨segments.take count, Name.dotted (segments.drop count)⟩ := by
  obtain ⟨count, hcount, rfl⟩ := List.mem_map.mp h
  exact ⟨count, List.mem_range.mp hcount, rfl⟩

/-- What is stored at a place and not chosen there is stored after the delete. -/
theorem holdsAt_unregisterAlong {place : Place} (hplace : place ∈ Place.splits segments)
    (hdisjoint : ∀ key, second place.name key = true → first place.name key = false)
    (hholds : catalog.holdsAt kind second place = true) :
    (catalog.unregisterAlong kind first segments).holdsAt kind second place = true := by
  obtain ⟨count, hcount, rfl⟩ := exists_of_mem_splits hplace
  obtain ⟨face, hface, entry, hentry, hchosen⟩ := holdsAt_iff.mp hholds
  have halong := (withdrawn_unregisterAlong kind first segments catalog).along count hcount
  rw [hface, Option.bind_some] at halong
  generalize ((catalog.unregisterAlong kind first segments).faceAt? _).isSome = stays at halong
  have hstays : entry ∈ (face.withdraw kind first stays (segments.drop count)).resources kind := by
    have hnot := hdisjoint entry.1 hchosen
    cases hdrop : segments.drop count with
    | nil => exact hentry
    | cons segment rest =>
      rw [hdrop] at hnot
      rw [Face.withdraw]
      simp only [Function.update_self, List.mem_filter, hentry, hnot, Bool.not_false, and_self]
  rw [Face.kept?_of_mem hstays] at halong
  exact holdsAt_iff.mpr ⟨_, halong, entry, hstays, hchosen⟩

/-! ## A list of deletes -/

variable {ι : Type} {nested : Bool} {name : String} {identity : ι → String}
  {chooses : ι → Selection}

/-- Deletes by selections that share no keys succeed one after the other, and are one delete by all
of them. -/
theorem foldlM_deleteSelected {order : List ι} (hne : order ≠ [])
    (hname : ∀ segment ∈ Name.segments name, Text.isBlank segment = false)
    (hholds : ∀ i ∈ order, ∃ place ∈ Place.splits (Place.chain nested name),
      catalog.holdsAt kind (chooses i) place = true)
    (hdisjoint : order.Pairwise fun i j => ∀ place ∈ Place.splits (Place.chain nested name),
      ∀ key, chooses j place.name key = true → chooses i place.name key = false) :
    order.foldlM (fun tree i => tree.deleteSelected nested kind (identity i) name (chooses i))
        catalog =
      .ok (catalog.unregisterAlong kind (fun place key => order.any fun i => chooses i place key)
        (Place.chain nested name)) := by
  induction order generalizing catalog with
  | nil => exact absurd rfl hne
  | cons i rest ih =>
    rw [List.pairwise_cons] at hdisjoint
    have hfirst : catalog.deleteSelected nested kind (identity i) name (chooses i) =
        .ok (catalog.unregisterAlong kind (chooses i) (Place.chain nested name)) := by
      rw [deleteSelected_eq hname, if_pos (hholds i List.mem_cons_self)]
    rw [List.foldlM_cons, hfirst]
    show rest.foldlM _ (catalog.unregisterAlong kind (chooses i) _) = _
    by_cases hrest : rest = []
    · subst hrest
      simp only [List.any_cons, List.any_nil, Bool.or_false]
      rfl
    · rw [ih hrest ?_ hdisjoint.2, unregisterAlong_unregisterAlong]
      · simp only [List.any_cons]
      · -- what a later selection chooses is still there
        intro j hj
        obtain ⟨place, hplace, hholds⟩ := hholds j (List.mem_cons_of_mem i hj)
        exact ⟨place, hplace,
          holdsAt_unregisterAlong hplace (hdisjoint.1 j hj place hplace) hholds⟩

end Catalog

end SchemaCatalog
