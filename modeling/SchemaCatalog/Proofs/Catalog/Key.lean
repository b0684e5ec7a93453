import SchemaCatalog.Catalog.Find
import SchemaCatalog.Proofs.Catalog.Chain
import SchemaCatalog.Proofs.Catalog.Restriction
import SchemaCatalog.Proofs.Name.Folding

/-!
# Keys of dotted names

A key is a name, for functions with a group in front.  Taking the first segment off the name leaves
the group.  The operations choose keys by their name and perhaps by their group, so what they choose
for a name is what they choose for the rest of the name once its first segment is taken off.
-/

namespace SchemaCatalog

namespace Name

/-- What is left of a name below a first segment. -/
def below? (segment name : String) : Option String :=
  match splitFirst? '.' name with
  | some (first, rest) => if first = segment then some rest else none
  | none => none

theorem below?_under {first : String} (hfirst : '.' ∉ first.toList) (segment rest : String) :
    below? segment (under first rest) = if first = segment then some rest else none := by
  rw [below?, splitFirst?_under hfirst]

theorem eq_under_of_below? {segment name rest : String} (h : below? segment name = some rest) :
    '.' ∉ segment.toList ∧ name = under segment rest := by
  unfold below? at h
  split at h
  · rename_i first others hsplit
    split at h
    · rename_i hfirst
      cases h
      subst hfirst
      have hparts := splitFirst?_eq_some_iff.mp hsplit
      refine ⟨hparts.1, String.toList_injective ?_⟩
      rw [hparts.2]
      simp [under]
    · cases h
  · cases h

theorem under_inj {first second segment other : String} (hfirst : '.' ∉ first.toList)
    (hsecond : '.' ∉ second.toList) (h : under first segment = under second other) :
    first = second ∧ segment = other := by
  have hsplit := splitFirst?_under hfirst segment
  rw [h, splitFirst?_under hsecond] at hsplit
  cases hsplit
  exact ⟨rfl, rfl⟩

end Name

/-- The group that a resource is stored with; only functions have one. -/
def Resource.group : (kind : ResourceKind) → Resource kind → String
  | .function, function => SqlFunction.group function
  | _, _ => ""

namespace ResourceKind

/-- The key of a name in a group. -/
def key : ResourceKind → String → String → String
  | function, group, name => Name.qualify group name
  | _, _, name => name

/-- Takes a first segment off the name in a key. -/
def strip : ResourceKind → String → String → Option String
  | function, segment, key =>
    match Name.splitQualified? key with
    | some (group, name) => (Name.below? segment name).map (Name.qualify group)
    | none => none
  | _, segment, key => Name.below? segment key

theorem storageKey_eq (kind : ResourceKind) (resource : Resource kind) (name : String) :
    resource.storageKey kind name = kind.key (resource.group kind) name := by
  cases kind <;> rfl

theorem fold_key {group name : String} (hgroup : Name.SigmaFree group)
    (hname : Name.SigmaFree name) (kind : ResourceKind) :
    Name.fold (kind.key group name) = kind.key (Name.fold group) (Name.fold name) := by
  cases kind with
  | table => rfl
  | function => exact Name.fold_qualify hgroup hname
  | procedure => rfl
  | tableFunction => rfl

-- Keys are equal only if the names are; the groups then make no difference.
theorem key_inj {kind : ResourceKind} {group other name another : String}
    (hgroup : ':' ∉ group.toList) (hother : ':' ∉ other.toList)
    (h : kind.key group name = kind.key other another) :
    name = another ∧ ∀ third, kind.key group third = kind.key other third := by
  cases kind with
  | table => exact ⟨h, fun _ => rfl⟩
  | function =>
    have hsplit := Name.splitQualified?_qualify hgroup name
    have hqualify : Name.qualify group name = Name.qualify other another := h
    rw [hqualify, Name.splitQualified?_qualify hother] at hsplit
    cases hsplit
    exact ⟨rfl, fun _ => rfl⟩
  | procedure => exact ⟨h, fun _ => rfl⟩
  | tableFunction => exact ⟨h, fun _ => rfl⟩

theorem strip_key {group : String} (hgroup : ':' ∉ group.toList) (kind : ResourceKind)
    (segment name : String) :
    kind.strip segment (kind.key group name) =
      (Name.below? segment name).map (kind.key group) := by
  cases kind with
  | table => exact Option.map_id'.symm
  | function =>
    show (match Name.splitQualified? (Name.qualify group name) with
      | some (group, name) => (Name.below? segment name).map (Name.qualify group)
      | none => none) = _
    rw [Name.splitQualified?_qualify hgroup]
    rfl
  | procedure => exact Option.map_id'.symm
  | tableFunction => exact Option.map_id'.symm

theorem eq_key_of_strip {kind : ResourceKind} {segment key rest : String}
    (h : kind.strip segment key = some rest) :
    '.' ∉ segment.toList ∧ ∃ group name, ':' ∉ group.toList ∧
      key = kind.key group (Name.under segment name) ∧ rest = kind.key group name := by
  have hplain : ∀ {name rest : String}, Name.below? segment name = some rest →
      '.' ∉ segment.toList ∧ ∃ group other : String, ':' ∉ group.toList ∧
        name = Name.under segment other ∧ rest = other := by
    intro name rest hbelow
    have hparts := Name.eq_under_of_below? hbelow
    exact ⟨hparts.1, "", rest, by decide, hparts.2, rfl⟩
  cases kind with
  | table => exact hplain h
  | function =>
    change (match Name.splitQualified? key with
      | some (group, name) => (Name.below? segment name).map (Name.qualify group)
      | none => none) = some rest at h
    split at h
    · rename_i group name hsplit
      have hqualified := Name.eq_qualify_of_splitQualified? hsplit
      rcases Option.map_eq_some_iff.mp h with ⟨below, hbelow, rfl⟩
      have hparts := Name.eq_under_of_below? hbelow
      refine ⟨hparts.1, group, below, hqualified.1, ?_, rfl⟩
      rw [hqualified.2, hparts.2]
      rfl
    · cases h
  | procedure => exact hplain h
  | tableFunction => exact hplain h

end ResourceKind

namespace Catalog

/-- Selects the key under which a resource itself is stored. -/
def ownKey (kind : ResourceKind) (resource : Resource kind) : Selection :=
  fun name key => key == Name.fold (resource.storageKey kind name)

theorem colon_notMem_group {kind : ResourceKind} {resource : Resource kind}
    (hvalid : resource.validate kind = .ok ()) : ':' ∉ (resource.group kind).toList := by
  cases kind with
  | table => exact List.not_mem_nil
  | function =>
    intro hcolon
    have hcontains : (SqlFunction.group resource).toList.contains ':' = true :=
      List.contains_iff_mem.mpr hcolon
    rw [Resource.validate, hcontains, Bool.or_true, if_pos rfl] at hvalid
    cases hvalid
  | procedure => exact List.not_mem_nil
  | tableFunction => exact List.not_mem_nil

/-- Chooses, for a name, the keys of this name in some groups. -/
def ByName (kind : ResourceKind) (selects : Selection) : Prop :=
  ∃ wanted : String → Prop, ∀ name key, Name.SigmaFree name →
    (selects name key = true ↔
      ∃ group, ':' ∉ group.toList ∧ wanted group ∧ key = kind.key group (Name.fold name))

theorem byName_selects (kind : ResourceKind) : ByName kind kind.selects := by
  refine ⟨fun _ => True, fun name key _ => ?_⟩
  have hplain : (key == Name.fold name) = true ↔
      ∃ group : String, ':' ∉ group.toList ∧ True ∧ key = Name.fold name := by
    rw [beq_iff_eq]
    exact ⟨fun h => ⟨"", by decide, trivial, h⟩, fun ⟨_, _, _, h⟩ => h⟩
  cases kind with
  | table => exact hplain
  | function =>
    show ((Name.splitQualified? key).map (·.2) == some (Name.fold name)) = true ↔ _
    rw [beq_iff_eq, Option.map_eq_some_iff]
    constructor
    · rintro ⟨⟨group, rest⟩, hsplit, rfl⟩
      have hqualified := Name.eq_qualify_of_splitQualified? hsplit
      exact ⟨group, hqualified.1, trivial, hqualified.2⟩
    · rintro ⟨group, hgroup, -, rfl⟩
      exact ⟨(group, Name.fold name), Name.splitQualified?_qualify hgroup _, rfl⟩
  | procedure => exact hplain
  | tableFunction => exact hplain

theorem byName_key {group : String} (hsigma : Name.SigmaFree group) (hcolon : ':' ∉ group.toList)
    (kind : ResourceKind) :
    ByName kind fun name key => key == Name.fold (kind.key group name) := by
  refine ⟨fun other => other = Name.fold group, fun name key hname => ?_⟩
  rw [beq_iff_eq, ResourceKind.fold_key hsigma hname]
  constructor
  · rintro rfl
    exact ⟨Name.fold group, mt Name.colon_mem_fold_iff.mp hcolon, rfl, rfl⟩
  · rintro ⟨_, _, rfl, rfl⟩
    rfl

theorem byName_ownKey {kind : ResourceKind} {resource : Resource kind}
    (hvalid : resource.validate kind = .ok ()) (hsigma : Name.SigmaFree (resource.group kind)) :
    ByName kind (ownKey kind resource) := by
  have hown : ownKey kind resource =
      fun name key => key == Name.fold (kind.key (resource.group kind) name) := by
    funext name key
    rw [ownKey, ResourceKind.storageKey_eq]
  rw [hown]
  exact byName_key hsigma (colon_notMem_group hvalid) kind

namespace ByName

variable {kind : ResourceKind} {selects : Selection}

theorem carries (h : ByName kind selects) {segment rest : String}
    (hsegment : Name.SigmaFree segment) (hrest : Name.SigmaFree rest)
    (hdot : '.' ∉ segment.toList) :
    Namespace.Carries (kind.strip (Name.fold segment)) (selects (Name.under segment rest))
      (selects rest) := by
  rcases h with ⟨wanted, hselects⟩
  have hunder := Name.fold_under hsegment hrest
  have hfold : '.' ∉ (Name.fold segment).toList := mt Name.dot_mem_fold_iff.mp hdot
  have hwhole := fun key => hselects (Name.under segment rest) key
    (Name.sigmaFree_under.mpr ⟨hsegment, hrest⟩)
  constructor
  · intro key left hstrip
    rcases ResourceKind.eq_key_of_strip hstrip with ⟨-, group, name, hgroup, rfl, rfl⟩
    rw [Bool.eq_iff_iff, hwhole, hselects rest _ hrest, hunder]
    constructor
    · rintro ⟨other, hother, hwanted, hkey⟩
      rcases ResourceKind.key_inj hgroup hother hkey with ⟨hname, hgroups⟩
      have hname := (Name.under_inj hfold hfold hname).2
      exact ⟨other, hother, hwanted, hname ▸ hgroups name⟩
    · rintro ⟨other, hother, hwanted, hkey⟩
      rcases ResourceKind.key_inj hgroup hother hkey with ⟨hname, hgroups⟩
      exact ⟨other, hother, hwanted, hname ▸ hgroups _⟩
  · intro key hkey
    rcases (hwhole key).mp hkey with ⟨group, hgroup, -, rfl⟩
    rw [hunder, ResourceKind.strip_key hgroup, Name.below?_under hfold, if_pos rfl]
    rfl

theorem misses_under (h : ByName kind selects) {segment rest other : String}
    (hsegment : Name.SigmaFree segment) (hrest : Name.SigmaFree rest)
    (hdot : '.' ∉ segment.toList) (hne : other ≠ Name.fold segment) :
    Namespace.Misses (kind.strip other) (selects (Name.under segment rest)) := by
  rcases h with ⟨wanted, hselects⟩
  have hfold : '.' ∉ (Name.fold segment).toList := mt Name.dot_mem_fold_iff.mp hdot
  intro key left hstrip
  rcases ResourceKind.eq_key_of_strip hstrip with ⟨hother, group, name, hgroup, rfl, rfl⟩
  apply Bool.eq_false_iff.mpr
  intro hkey
  rw [hselects _ _ (Name.sigmaFree_under.mpr ⟨hsegment, hrest⟩),
    Name.fold_under hsegment hrest] at hkey
  rcases hkey with ⟨another, hanother, -, hkey⟩
  have hname := (ResourceKind.key_inj hgroup hanother hkey).1
  exact hne (Name.under_inj hother hfold hname).1

theorem misses_of_dot_notMem (h : ByName kind selects) {name : String}
    (hname : Name.SigmaFree name) (hdot : '.' ∉ name.toList) (other : String) :
    Namespace.Misses (kind.strip other) (selects name) := by
  rcases h with ⟨wanted, hselects⟩
  intro key left hstrip
  rcases ResourceKind.eq_key_of_strip hstrip with ⟨-, group, below, hgroup, rfl, rfl⟩
  apply Bool.eq_false_iff.mpr
  intro hkey
  rcases (hselects name _ hname).mp hkey with ⟨another, hanother, -, hkey⟩
  have hfold : Name.under other below = Name.fold name :=
    (ResourceKind.key_inj hgroup hanother hkey).1
  apply mt Name.dot_mem_fold_iff.mp hdot
  rw [← hfold]
  simp [Name.under]

end ByName

/-! ## What is seen at a place -/

variable {kind : ResourceKind} {selects : Selection}

/-- The first resource at a place under a key that is chosen for the place's name. -/
def seen? (kind : ResourceKind) (selects : Selection) (catalog : Catalog) (place : Place) :
    Option (Resource kind) :=
  (catalog.descend? place.catalogs).bind fun node =>
    (node.resources kind).find? (selects place.name)

theorem occupant?_eq (resource : Resource kind) (catalog : Catalog) (place : Place) :
    catalog.occupant? kind resource place = catalog.seen? kind (ownKey kind resource) place := by
  unfold occupant? seen?
  congr 1
  funext node
  exact Namespace.get?_eq_find? _ _

theorem holdsAt_eq (catalog : Catalog) (place : Place) :
    catalog.holdsAt kind selects place = (catalog.seen? kind selects place).isSome := by
  unfold holdsAt seen?
  cases catalog.descend? place.catalogs with
  | none => rfl
  | some node => exact Namespace.any_keys _ _

theorem find_eq (kind : ResourceKind) (catalogs : List String) (name : String) (catalog : Catalog) :
    catalog.find kind (catalogs ++ [name]) =
      (catalog.seen? kind kind.selects ⟨catalogs, name⟩).elim
        (.error (.notFound kind (Name.dotted (catalogs ++ [name])))) .ok := by
  rw [find, List.getLast?_concat, List.dropLast_concat, seen?]
  cases catalog.descend? catalogs with
  | none => rfl
  | some node =>
    have hget : node.get? kind name = (node.resources kind).find? (kind.selects name) := rfl
    simp only [hget, Option.bind_some]
    cases (node.resources kind).find? (kind.selects name) <;> rfl

theorem seen?_below (catalog : Catalog) (segment : String) (place : Place) :
    catalog.seen? kind selects (place.below segment) =
      (catalog.subCatalog? segment).bind fun sub => sub.seen? kind selects place := by
  unfold seen? Place.below
  rw [descend?]
  cases catalog.subCatalog? segment <;> rfl

theorem findSome?_seen?_splits_cons (catalog : Catalog) (segment : String) (rest : List String) :
    (Place.splits (segment :: rest)).findSome? (catalog.seen? kind selects) =
      ((catalog.resources kind).find? (selects (Name.dotted (segment :: rest)))).or
        ((catalog.subCatalog? segment).bind fun sub =>
          (Place.splits rest).findSome? (sub.seen? kind selects)) := by
  have hroot : catalog.seen? kind selects ⟨[], Name.dotted (segment :: rest)⟩ =
      (catalog.resources kind).find? (selects (Name.dotted (segment :: rest))) := rfl
  have hbelow : catalog.seen? kind selects ∘ Place.below segment = fun place =>
      (catalog.subCatalog? segment).bind fun sub => sub.seen? kind selects place :=
    funext fun place => seen?_below catalog segment place
  rw [Place.splits_cons, List.findSome?_cons, hroot, List.findSome?_map, hbelow]
  cases (catalog.resources kind).find? (selects (Name.dotted (segment :: rest))) with
  | some resource => rfl
  | none =>
    cases catalog.subCatalog? segment with
    | none => exact List.findSome?_eq_none_iff.mpr fun _ _ => rfl
    | some sub => rfl

theorem seen?_of_isEmpty {catalog : Catalog} (h : catalog.isEmpty = true) (place : Place) :
    catalog.seen? kind selects place = none := by
  cases place with | mk catalogs name
  cases catalogs with
  | nil =>
    show (catalog.resources kind).find? (selects name) = none
    rw [resources_of_isEmpty h]
    rfl
  | cons segment rest =>
    have hbelow := @seen?_below kind selects catalog segment ⟨rest, name⟩
    rw [subCatalog?_of_isEmpty h] at hbelow
    exact hbelow

end Catalog

end SchemaCatalog
