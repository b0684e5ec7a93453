import SchemaCatalog.Proofs.Catalog.Face
import SchemaCatalog.Proofs.Catalog.Permanence

/-!
# What a delete changes

A delete changes the nodes along the segments of its name and nothing else.  Each of them loses the
entries that are chosen, and those below the root that are implicit and empty then are gone, innermost
first.
-/

namespace SchemaCatalog

namespace Face

def isEmpty (face : Face) : Bool :=
  (face.resources .table).isEmpty && (face.resources .function).isEmpty &&
    (face.resources .procedure).isEmpty && (face.resources .tableFunction).isEmpty &&
    face.catalogs.isEmpty

/-- The chosen entries are removed from a node, given the segments that lie below it, and so is its
sub-catalog of the first segment unless that stays.  All else keeps its order. -/
def withdraw (kind : ResourceKind) (selects : Catalog.Selection) (stays : Bool) :
    List String → Face → Face
  | [], face => face
  | segment :: rest, face =>
    { face with
      resources := Function.update face.resources kind
        ((face.resources kind).filter fun entry =>
          !selects (Name.dotted (segment :: rest)) entry.1)
      catalogs := face.catalogs.filter fun key => key != Name.fold segment || stays }

/-- A node at some depth stays unless it is implicit and empty; the root always does. -/
def kept? (depth : Nat) (face : Face) : Option Face :=
  if 0 < depth && (face.implicit && face.isEmpty) then none else some face

end Face

namespace Catalog

variable {kind : ResourceKind} {selects : Selection} {segments : List String}

theorem isEmpty_face (catalog : Catalog) : catalog.face.isEmpty = catalog.isEmpty := by
  have hkeys : catalog.catalogs.keys.isEmpty = catalog.catalogs.isEmpty := List.isEmpty_map
  show (_ && catalog.catalogs.keys.isEmpty) = _
  rw [hkeys]
  rfl

theorem face_discard (node : Catalog) (name : String) :
    (node.discard kind selects name).face =
      { node.face with
        resources := Function.update node.face.resources kind
          ((node.face.resources kind).filter fun entry => !selects name entry.1) } :=
  face_withResources kind node _

-- A sub-catalog is listed if it is there.
theorem filter_keys_eq_self (node : Catalog) (segment : String) :
    (node.catalogs.keys.filter fun key =>
      key != Name.fold segment || (node.subCatalog? segment).isSome) = node.catalogs.keys := by
  refine List.filter_eq_self.mpr fun key hkey => ?_
  cases hsub : node.subCatalog? segment with
  | some sub => rw [Option.isSome_some, Bool.or_true]
  | none =>
    have hne : key ≠ Name.fold segment := by
      rintro rfl
      exact Namespace.get?_eq_none_iff.mp hsub hkey
    simpa using hne

theorem face_enterAndPrune (segment : String) (change : Catalog → Catalog) (node : Catalog) :
    (node.enterAndPrune segment change).face =
      { node.face with
        catalogs := node.face.catalogs.filter fun key =>
          key != Name.fold segment ||
            ((node.enterAndPrune segment change).subCatalog? segment).isSome } := by
  have hresources : (node.enterAndPrune segment change).face.resources = node.face.resources :=
    funext fun other => congrArg Namespace.entries (resources_enterAndPrune other segment change node)
  have hname : (node.enterAndPrune segment change).name = node.name := by
    unfold enterAndPrune
    split
    · split <;> rfl
    · rfl
  refine Face.ext hname (implicit_enterAndPrune segment change node) hresources ?_
  have hself := filter_keys_eq_self node segment
  show (node.enterAndPrune segment change).catalogs.keys = node.catalogs.keys.filter _
  rw [subCatalog?_enterAndPrune_self]
  cases hsub : node.subCatalog? segment with
  | none =>
    rw [hsub] at hself
    simp only [enterAndPrune, hsub, Option.bind_none, hself]
  | some sub =>
    rw [hsub] at hself
    simp only [enterAndPrune, hsub, Option.bind_some]
    split
    · show (node.catalogs.erase segment).keys = _
      simp [Namespace.keys_erase]
    · exact (Namespace.keys_replace _ _ _).trans hself.symm

theorem face_unregisterAlong (segment : String) (rest : List String) (catalog : Catalog) :
    (catalog.unregisterAlong kind selects (segment :: rest)).face =
      catalog.face.withdraw kind selects
        ((catalog.unregisterAlong kind selects (segment :: rest)).faceAt? [segment]).isSome
        (segment :: rest) := by
  have hstays : ∀ node : Catalog,
      (node.faceAt? [segment]).isSome = (node.subCatalog? segment).isSome := by
    intro node
    rw [faceAt?_cons]
    cases node.subCatalog? segment <;> rfl
  rw [hstays, Face.withdraw]
  cases rest with
  | nil =>
    have hself := filter_keys_eq_self catalog segment
    rw [unregisterAlong, face_discard, discard, subCatalog?_withResources, Name.dotted_singleton]
    exact Face.ext rfl rfl rfl hself.symm
  | cons next rest =>
    rw [unregisterAlong, face_enterAndPrune, face_discard]

/-! ## Along the segments and elsewhere -/

/-- The second tree is the first with the chosen entries removed along the segments, and with them the
nodes that this leaves implicit and empty. -/
structure Withdrawn (kind : ResourceKind) (selects : Selection) (segments : List String)
    (before after : Catalog) : Prop where
  along : ∀ count < segments.length, after.faceAt? (segments.take count) =
    (before.faceAt? (segments.take count)).bind fun face =>
      (face.withdraw kind selects (after.faceAt? (segments.take (count + 1))).isSome
        (segments.drop count)).kept? count
  elsewhere : SameElsewhere segments before after

theorem faceAt?_of_isEmpty {catalog : Catalog} (h : catalog.isEmpty = true) {path : List String}
    (hpath : path ≠ []) : catalog.faceAt? path = none := by
  cases path with
  | nil => exact absurd rfl hpath
  | cons segment path => rw [faceAt?_cons, subCatalog?_of_isEmpty h, Option.bind_none]

section Below

variable {segment : String} {rest path : List String}

-- A node that is pruned has nothing below it.
theorem faceAt?_unregisterAlong_below (hrest : rest ≠ []) (hpath : path ≠ [])
    (catalog : Catalog) :
    (catalog.unregisterAlong kind selects (segment :: rest)).faceAt? (segment :: path) =
      (catalog.subCatalog? segment).bind fun sub =>
        (sub.unregisterAlong kind selects rest).faceAt? path := by
  rw [unregisterAlong_cons selects segment hrest, faceAt?_cons, subCatalog?_enterAndPrune_self,
    discard, subCatalog?_withResources]
  cases catalog.subCatalog? segment with
  | none => rfl
  | some sub =>
    rw [Option.bind_some, Option.bind_some]
    split
    · rename_i hgone
      rw [Bool.and_eq_true] at hgone
      rw [faceAt?_of_isEmpty hgone.2 hpath, Option.bind_none]
    · rw [Option.bind_some]

theorem faceAt?_unregisterAlong_singleton (hrest : rest ≠ []) (catalog : Catalog) :
    (catalog.unregisterAlong kind selects (segment :: rest)).faceAt? [segment] =
      (catalog.subCatalog? segment).bind fun sub =>
        (sub.unregisterAlong kind selects rest).face.kept? 1 := by
  rw [unregisterAlong_cons selects segment hrest, faceAt?_cons, subCatalog?_enterAndPrune_self,
    discard, subCatalog?_withResources]
  cases catalog.subCatalog? segment with
  | none => rfl
  | some sub =>
    rw [Option.bind_some, Option.bind_some]
    generalize sub.unregisterAlong kind selects rest = changed
    have himplicit : changed.face.implicit = changed.implicit := rfl
    rw [Face.kept?, isEmpty_face, himplicit]
    cases changed.implicit && changed.isEmpty <;> rfl

end Below

theorem faceAt?_unregisterAlong_take {count : Nat} (hcount : count < segments.length)
    (catalog : Catalog) :
    (catalog.unregisterAlong kind selects segments).faceAt? (segments.take count) =
      (catalog.faceAt? (segments.take count)).bind fun face =>
        (face.withdraw kind selects
          ((catalog.unregisterAlong kind selects segments).faceAt?
            (segments.take (count + 1))).isSome
          (segments.drop count)).kept? count := by
  induction segments generalizing catalog count with
  | nil => cases hcount
  | cons segment rest ih =>
    cases count with
    | zero =>
      have hface := @face_unregisterAlong kind selects segment rest catalog
      rw [List.take_zero, List.drop_zero, faceAt?_nil, faceAt?_nil, Option.bind_some, hface]
      rfl
    | succ count =>
      have hcount : count < rest.length := Nat.lt_of_succ_lt_succ hcount
      have hrest : rest ≠ [] := List.ne_nil_of_length_pos (Nat.zero_lt_of_lt hcount)
      have hnext : rest.take (count + 1) ≠ [] := by simp [hrest]
      simp only [List.take_succ_cons, List.drop_succ_cons]
      rw [faceAt?_unregisterAlong_below hrest hnext, faceAt?_cons segment _ catalog]
      cases count with
      | zero =>
        rw [List.take_zero, faceAt?_unregisterAlong_singleton hrest]
        cases catalog.subCatalog? segment with
        | none => rfl
        | some sub =>
          have hface := ih hcount sub
          rw [List.take_zero, faceAt?_nil, faceAt?_nil, Option.bind_some] at hface
          exact congrArg (Face.kept? 1) (Option.some.inj hface)
      | succ count =>
        have htake : rest.take (count + 1) ≠ [] := by simp [hrest]
        rw [faceAt?_unregisterAlong_below hrest htake]
        cases catalog.subCatalog? segment with
        | none => rfl
        | some sub =>
          rw [Option.bind_some, Option.bind_some, Option.bind_some, ih hcount]
          rfl

theorem sameElsewhere_unregisterAlong (kind : ResourceKind) (selects : Selection)
    (segments : List String) (catalog : Catalog) :
    SameElsewhere segments catalog (catalog.unregisterAlong kind selects segments) := by
  induction segments generalizing catalog with
  | nil => exact fun _ _ => rfl
  | cons segment rest ih =>
    by_cases hrest : rest = []
    · subst hrest
      exact sameElsewhere_singleton segment fun name => subCatalog?_withResources _ catalog _ name
    · refine sameElsewhere_cons hrest (fun path hpath hoff => ?_) fun other path hother => ?_
      · rw [faceAt?_unregisterAlong_below hrest hpath, faceAt?_cons]
        exact congrArg _ (funext fun sub => ih sub path hoff)
      · rw [unregisterAlong_cons selects segment hrest, faceAt?_cons, faceAt?_cons,
          subCatalog?_enterAndPrune_of_ne hother, discard, subCatalog?_withResources]

theorem withdrawn_unregisterAlong (kind : ResourceKind) (selects : Selection)
    (segments : List String) (catalog : Catalog) :
    Withdrawn kind selects segments catalog (catalog.unregisterAlong kind selects segments) :=
  ⟨fun _ hcount => faceAt?_unregisterAlong_take hcount catalog,
    sameElsewhere_unregisterAlong kind selects segments catalog⟩

/-- There is only one way to remove the chosen entries. -/
theorem Withdrawn.unique {before after other : Catalog} (hafter : after.Keyed)
    (hother : other.Keyed) (h : Withdrawn kind selects segments before after)
    (h' : Withdrawn kind selects segments before other) : after = other := by
  -- what becomes of a node depends on the next one, so the induction starts at the end
  have hfaces : ∀ left ≤ segments.length,
      after.faceAt? (segments.take (segments.length - left)) =
        other.faceAt? (segments.take (segments.length - left)) := by
    intro left hleft
    induction left with
    | zero =>
      rw [Nat.sub_zero, List.take_length, h.elsewhere.faceAt?_segments,
        h'.elsewhere.faceAt?_segments]
    | succ left ih =>
      have hnext : segments.length - (left + 1) + 1 = segments.length - left := by omega
      have hcount : segments.length - (left + 1) < segments.length := by omega
      rw [h.along _ hcount, h'.along _ hcount, hnext, ih (Nat.le_of_succ_le hleft)]
  refine eq_of_sameElsewhere hafter hother h.elsewhere h'.elsewhere fun count hcount => ?_
  have hface := hfaces (segments.length - count) (Nat.sub_le _ _)
  rwa [Nat.sub_sub_self (Nat.le_of_lt hcount)] at hface

/-! ## Deletes -/

variable {nested : Bool} {name identity : String} {catalog : Catalog}

theorem holdsAt_iff {place : Place} :
    catalog.holdsAt kind selects place = true ↔
      ∃ face, catalog.faceAt? place.catalogs = some face ∧
        ∃ entry ∈ face.resources kind, selects place.name entry.1 = true := by
  unfold holdsAt faceAt?
  cases catalog.descend? place.catalogs with
  | none => simp
  | some node => simp [face, Namespace.keys]

/-- A delete by some selection of keys: it succeeds if a place of the name holds a chosen key, and then
all of them are withdrawn. -/
structure DeletesChosen (nested : Bool) (kind : ResourceKind) (name : String) (selects : Selection)
    (catalog : Catalog) (result : Except CatalogError Catalog) : Prop where
  ok_iff : (∃ deleted, result = .ok deleted) ↔
    ∃ place ∈ Place.splits (Place.chain nested name),
      ∃ face, catalog.faceAt? place.catalogs = some face ∧
        ∃ entry ∈ face.resources kind, selects place.name entry.1 = true
  withdrawn : ∀ deleted, result = .ok deleted →
    Withdrawn kind selects (Place.chain nested name) catalog deleted

theorem deleteSelected_eq (hname : ∀ segment ∈ Name.segments name, Text.isBlank segment = false)
    (nested : Bool) (kind : ResourceKind) (identity : String) (selects : Selection)
    (catalog : Catalog) :
    catalog.deleteSelected nested kind identity name selects =
      if ∃ place ∈ Place.splits (Place.chain nested name), catalog.holdsAt kind selects place = true
      then .ok (catalog.unregisterAlong kind selects (Place.chain nested name))
      else .error (.notFound kind identity) := by
  have hplaces : Place.ofName nested name = .ok (Place.splits (Place.chain nested name)) := by
    rw [Place.ofName_eq, if_neg (by simpa using hname)]
  rw [deleteSelected, hplaces, ← prunePlaces_foldl_unregister]
  simp only [← List.any_eq_true]
  rfl

theorem deletesChosen_deleteSelected
    (hname : ∀ segment ∈ Name.segments name, Text.isBlank segment = false) (nested : Bool)
    (kind : ResourceKind) (identity : String) (selects : Selection) (catalog : Catalog) :
    DeletesChosen nested kind name selects catalog
      (catalog.deleteSelected nested kind identity name selects) := by
  rw [deleteSelected_eq hname]
  simp only [holdsAt_iff]
  split
  · rename_i hholds
    refine ⟨iff_of_true ⟨_, rfl⟩ hholds, fun deleted hdelete => ?_⟩
    cases hdelete
    exact withdrawn_unregisterAlong kind selects _ catalog
  · rename_i hfree
    exact ⟨iff_of_false (fun ⟨_, h⟩ => nomatch h) hfree, fun _ h => nomatch h⟩

/-- **What a delete does.**  A plain name stands for the keys that it selects, a full name for the key
of its group.  The delete succeeds if and only if some place of the name holds such a key, and removes
these entries and the nodes that they leave empty.  One that fails changes nothing. -/
theorem delete_effect (hname : ∀ segment ∈ Name.segments name, Text.isBlank segment = false)
    (nested : Bool) (catalog : Catalog) :
    (∀ kind : ResourceKind, DeletesChosen nested kind name kind.selects catalog
      (catalog.deleteNamed nested kind name)) ∧
    (∀ kind, (kind = .function → ':' ∉ name.toList) →
      catalog.delete nested kind name = catalog.deleteNamed nested kind name) ∧
    (∀ group : String, ':' ∉ group.toList →
      DeletesChosen nested .function name
          (fun placeName key => key == Name.fold (Name.qualify group placeName)) catalog
          (catalog.deleteFunctionByFullName nested (Name.qualify group name)) ∧
        catalog.delete nested .function (Name.qualify group name) =
          catalog.deleteFunctionByFullName nested (Name.qualify group name)) ∧
    ∀ operation error, operation.deletes = true → operation.run nested catalog = .error error →
      catalog.after (nested, operation) = catalog := by
  refine ⟨fun kind => ?_, fun kind hkind => ?_, fun group hgroup => ⟨?_, ?_⟩, ?_⟩
  · exact deletesChosen_deleteSelected hname nested kind name kind.selects catalog
  · rw [delete, if_neg fun h => hkind h.1 h.2]
  · rw [deleteFunctionByFullName_qualify hgroup]
    exact deletesChosen_deleteSelected hname nested .function _ _ catalog
  · exact delete_qualify nested group name catalog
  · intro operation error _ hrun
    rw [after, hrun]

/-- Of the nodes along the name one stays, which holds another table, and one goes. -/
theorem delete_effect_below_shared :
    let catalog := [(true, Operation.create .createDefault .table "a.b.c" (Table.named "c" [])),
      (true, Operation.create .createDefault .table "A.d" (Table.named "d" []))].foldl after
        (new "root")
    ∃ deleted, catalog.delete true .table "a.B.c" = .ok deleted ∧
      Withdrawn .table (ResourceKind.selects .table) (Place.chain true "a.B.c") catalog deleted := by
  intro catalog
  have hname : ∀ segment ∈ Name.segments "a.B.c", Text.isBlank segment = false := by decide
  have heffect := delete_effect hname true catalog
  have hsame := heffect.2.1 .table (fun h => nomatch h)
  have hok : (catalog.deleteNamed true .table "a.B.c").isOk = true := by decide +kernel
  cases hdelete : catalog.deleteNamed true .table "a.B.c" with
  | error error =>
    rw [hdelete] at hok
    cases hok
  | ok deleted => exact ⟨deleted, hsame.trans hdelete, (heffect.1 .table).withdrawn deleted hdelete⟩

end Catalog

end SchemaCatalog
