import SchemaCatalog.Proofs.Catalog.Undo
import SchemaCatalog.Catalog.Find

/-!
# Pruning a path

Pruning removes the dead tail of a path: the nodes at its end that are implicit and hold nothing but
each other.  The tree loses them in one piece, with the first of them, and nothing that can be found
is lost.  After a path has been made sure of, pruning it takes away what had to be made.
-/

namespace SchemaCatalog.Catalog

theorem DistinctSubs.sub {catalog inner : Catalog} {name : String} (h : catalog.DistinctSubs)
    (hsub : catalog.subCatalog? name = some inner) : inner.DistinctSubs :=
  (everywhere_iff.mp h).2 name inner hsub

theorem replaceSub_self {catalog inner : Catalog} {name : String} (h : catalog.DistinctSubs)
    (hsub : catalog.subCatalog? name = some inner) :
    { catalog with catalogs := catalog.catalogs.replace name inner } = catalog := by
  rw [Namespace.replace_self (everywhere_iff.mp h).1 hsub]
  cases catalog
  rfl

theorem removeSubCatalog_replaceSub (catalog inner : Catalog) (name : String) :
    ({ catalog with catalogs := catalog.catalogs.replace name inner } : Catalog).removeSubCatalog
      name = catalog.removeSubCatalog name := by
  simp only [removeSubCatalog, Namespace.erase_replace]

/-! ## Dead tails -/

/-- Implicit, without resources, and without sub-catalogs but the next one on the path below. -/
structure Spare (below : List String) (node : Catalog) : Prop where
  implicit : node.implicit = true
  resources : ∀ kind, (node.resources kind).isEmpty = true
  catalogs : node.catalogs.keys = (below.take 1).map Name.fold

/-- The nodes of a path from some depth on are there and hold nothing but each other. -/
def DeadFrom (depth : Nat) (path : List String) (catalog : Catalog) : Prop :=
  ∀ count, depth ≤ count → count ≤ path.length →
    ∃ node, catalog.descend? (path.take count) = some node ∧ node.Spare (path.drop count)

theorem DeadFrom.mono {depth deeper : Nat} {path : List String} {catalog : Catalog}
    (h : catalog.DeadFrom depth path) (hle : depth ≤ deeper) : catalog.DeadFrom deeper path :=
  fun count hcount => h count (Nat.le_trans hle hcount)

theorem isEmpty_iff {node : Catalog} :
    node.isEmpty = true ↔
      (∀ kind, (node.resources kind).isEmpty = true) ∧ node.catalogs.keys = [] := by
  have hkeys : node.catalogs.keys = [] ↔ node.catalogs.isEmpty = true := by
    rw [Namespace.keys, List.map_eq_nil_iff, Namespace.isEmpty, List.isEmpty_iff]
  rw [hkeys]
  constructor
  · intro h
    refine ⟨fun kind => by rw [resources_of_isEmpty h]; rfl, ?_⟩
    simp only [isEmpty, Bool.and_eq_true] at h
    exact h.2
  · rintro ⟨hresources, hcatalogs⟩
    have htables : node.tables.isEmpty = true := hresources .table
    have hfunctions : node.functions.isEmpty = true := hresources .function
    have hprocedures : node.procedures.isEmpty = true := hresources .procedure
    have htableFunctions : node.tableFunctions.isEmpty = true := hresources .tableFunction
    simp only [isEmpty, htables, hfunctions, hprocedures, htableFunctions, hcatalogs, Bool.and_self]

theorem spare_nil_iff {node : Catalog} :
    node.Spare [] ↔ node.implicit = true ∧ node.isEmpty = true := by
  rw [isEmpty_iff]
  exact ⟨fun h => ⟨h.implicit, h.resources, h.catalogs⟩, fun h => ⟨h.1, h.2.1, h.2.2⟩⟩

theorem eq_singleton_of_filter_eq_nil {keys : List String} {key : String} (hnodup : keys.Nodup)
    (hmem : key ∈ keys) (h : keys.filter (· != key) = []) : keys = [key] := by
  have hall : ∀ other ∈ keys, other = key := by
    simpa [List.filter_eq_nil_iff] using h
  cases keys with
  | nil => cases hmem
  | cons first rest =>
    obtain rfl : first = key := hall first List.mem_cons_self
    cases rest with
    | nil => rfl
    | cons second others =>
      have hsecond : second = first := hall second (List.mem_cons_of_mem _ List.mem_cons_self)
      rw [hsecond, List.nodup_cons] at hnodup
      exact absurd List.mem_cons_self hnodup.1

-- What holds only the next sub-catalog is empty without it.
theorem spare_cons_iff {node sub : Catalog} {name : String} {rest : List String}
    (hkeys : node.catalogs.keys.Nodup) (hsub : node.subCatalog? name = some sub) :
    node.Spare (name :: rest) ↔
      (node.removeSubCatalog name).implicit = true ∧
        (node.removeSubCatalog name).isEmpty = true := by
  have hmem : Name.fold name ∈ node.catalogs.keys :=
    List.mem_map_of_mem (Namespace.mem_entries_of_get?_eq_some hsub)
  have herased : (node.removeSubCatalog name).catalogs.keys = [] ↔
      node.catalogs.keys = [Name.fold name] := by
    show (node.catalogs.erase name).keys = [] ↔ _
    rw [Namespace.keys_erase]
    refine ⟨eq_singleton_of_filter_eq_nil hkeys hmem, fun h => ?_⟩
    rw [h]
    simp
  have hresources : ∀ kind,
      (node.removeSubCatalog name).resources kind = node.resources kind :=
    fun kind => by cases kind <;> rfl
  rw [isEmpty_iff, herased]
  simp only [hresources]
  exact ⟨fun h => ⟨h.implicit, h.resources, h.catalogs⟩, fun h => ⟨h.1, h.2.1, h.2.2⟩⟩

section Tails

variable {catalog sub : Catalog} {name : String} {path : List String} {depth : Nat}

theorem deadFrom_zero_iff :
    catalog.DeadFrom 0 path ↔ catalog.Spare path ∧ catalog.DeadFrom 1 path := by
  constructor
  · intro h
    obtain ⟨node, hnode, hspare⟩ := h 0 (Nat.le_refl _) (Nat.zero_le _)
    cases hnode
    exact ⟨hspare, h.mono (Nat.zero_le _)⟩
  · rintro ⟨hspare, hbelow⟩ count - hcount
    cases count with
    | zero => exact ⟨catalog, rfl, hspare⟩
    | succ count => exact hbelow (count + 1) (Nat.succ_pos _) hcount

theorem deadFrom_succ_cons_iff (hsub : catalog.subCatalog? name = some sub) :
    catalog.DeadFrom (depth + 1) (name :: path) ↔ sub.DeadFrom depth path := by
  have hnode : ∀ (count : Nat) (node : Catalog),
      catalog.descend? ((name :: path).take (count + 1)) = some node ↔
        sub.descend? (path.take count) = some node := by
    intro count node
    rw [List.take_succ_cons, descend?, hsub]
  constructor
  · intro h count hle hcount
    obtain ⟨node, hdescend, hspare⟩ := h (count + 1) (Nat.succ_le_succ hle) (Nat.succ_le_succ hcount)
    exact ⟨node, (hnode count node).mp hdescend, hspare⟩
  · intro h count hle hcount
    cases count with
    | zero => cases hle
    | succ count =>
      obtain ⟨node, hdescend, hspare⟩ :=
        h count (Nat.le_of_succ_le_succ hle) (Nat.le_of_succ_le_succ hcount)
      exact ⟨node, (hnode count node).mpr hdescend, hspare⟩

theorem DeadFrom.exists_sub (h : catalog.DeadFrom (depth + 1) (name :: path))
    (hdepth : depth ≤ path.length) :
    ∃ sub, catalog.subCatalog? name = some sub ∧ sub.DeadFrom depth path := by
  obtain ⟨node, hnode, -⟩ := h (depth + 1) (Nat.le_refl _) (Nat.succ_le_succ hdepth)
  obtain ⟨sub, hsub, -⟩ := descend?_cons_eq_some_iff.mp hnode
  exact ⟨sub, hsub, (deadFrom_succ_cons_iff hsub).mp h⟩

/-! ## One node -/

/-- All nodes below the first are pruned, and the first is implicit and empty then. -/
def PrunesAway (path : List String) (catalog : Catalog) : Prop :=
  (catalog.prune path).2 = path.length ∧ (catalog.prune path).1.implicit = true ∧
    (catalog.prune path).1.isEmpty = true

theorem prune_cons_of_none (hsub : catalog.subCatalog? name = none) :
    catalog.prune (name :: path) = (catalog, 0) := by
  rw [prune, hsub]

theorem prune_cons_of_prunesAway (hsub : catalog.subCatalog? name = some sub)
    (h : sub.PrunesAway path) :
    catalog.prune (name :: path) = (catalog.removeSubCatalog name, path.length + 1) := by
  obtain ⟨hcount, himplicit, hempty⟩ := h
  simp [prune, hsub, hcount, himplicit, hempty]

theorem prune_cons_of_not_prunesAway (hsub : catalog.subCatalog? name = some sub)
    (h : ¬ sub.PrunesAway path) :
    catalog.prune (name :: path) =
      ({ catalog with catalogs := catalog.catalogs.replace name (sub.prune path).1 },
        (sub.prune path).2) := by
  have hstays : (decide ((sub.prune path).2 = path.length) && (sub.prune path).1.implicit &&
      (sub.prune path).1.isEmpty) = false := by
    rw [← Bool.not_eq_true]
    intro hgoes
    simp only [Bool.and_eq_true, decide_eq_true_eq] at hgoes
    exact h ⟨hgoes.1.1, hgoes.1.2, hgoes.2⟩
  simp [prune, hsub, hstays]

-- A node is pruned away, with all that is below it on the path, exactly if they are all dead.
theorem prunesAway_iff (h : catalog.DistinctSubs) :
    catalog.PrunesAway path ↔ catalog.DeadFrom 0 path := by
  induction path generalizing catalog with
  | nil =>
    rw [deadFrom_zero_iff, spare_nil_iff]
    refine ⟨fun hgoes => ⟨hgoes.2, fun count hle hcount => ?_⟩, fun hdead => ⟨rfl, hdead.1⟩⟩
    exact absurd (Nat.le_trans hle hcount) (Nat.not_succ_le_zero 0)
  | cons name path ih =>
    rw [deadFrom_zero_iff]
    cases hsub : catalog.subCatalog? name with
    | none =>
      rw [PrunesAway, prune_cons_of_none hsub]
      refine iff_of_false (fun hgoes => nomatch hgoes.1) fun hdead => ?_
      obtain ⟨sub, hfound, -⟩ := hdead.2.exists_sub (Nat.zero_le _)
      rw [hsub] at hfound
      cases hfound
    | some sub =>
      rw [deadFrom_succ_cons_iff hsub, ← ih (h.sub hsub), PrunesAway]
      by_cases hgoes : sub.PrunesAway path
      · rw [prune_cons_of_prunesAway hsub hgoes, spare_cons_iff (everywhere_iff.mp h).1 hsub]
        exact ⟨fun hroot => ⟨hroot.2, hgoes⟩, fun hroot => ⟨rfl, hroot.1⟩⟩
      · -- the node keeps a sub-catalog, so it is not empty
        rw [prune_cons_of_not_prunesAway hsub hgoes]
        refine iff_of_false (fun hroot => ?_) fun hroot => hgoes hroot.2
        have hkept := subCatalog?_replace_self (sub.prune path).1 hsub
        rw [subCatalog?_of_isEmpty hroot.2.2] at hkept
        cases hkept

/-! ## The whole path -/

-- The first dead node goes, and all nodes below it with it.
theorem prune_of_deadFrom (h : catalog.DistinctSubs) (hdepth : depth < path.length)
    (hdead : catalog.DeadFrom (depth + 1) path)
    (hleast : 0 < depth → ¬ catalog.DeadFrom depth path) :
    catalog.prune path =
      (catalog.updateAt (·.removeSubCatalog path[depth]) (path.take depth), path.length - depth) := by
  induction path generalizing catalog depth with
  | nil => cases hdepth
  | cons name path ih =>
    have hlength : depth ≤ path.length := Nat.le_of_lt_succ hdepth
    obtain ⟨sub, hsub, hdead⟩ := hdead.exists_sub hlength
    cases depth with
    | zero => exact prune_cons_of_prunesAway hsub ((prunesAway_iff (h.sub hsub)).mpr hdead)
    | succ depth =>
      have hbefore : ¬ sub.DeadFrom depth path := fun hsooner =>
        hleast (Nat.succ_pos _) ((deadFrom_succ_cons_iff hsub).mpr hsooner)
      have hstays : ¬ sub.PrunesAway path := fun hgoes =>
        hbefore (((prunesAway_iff (h.sub hsub)).mp hgoes).mono (Nat.zero_le _))
      have hsubs := ih (h.sub hsub) hlength hdead fun _ => hbefore
      rw [prune_cons_of_not_prunesAway hsub hstays, hsubs, List.take_succ_cons, updateAt, hsub,
        List.length_cons, Nat.succ_sub_succ]
      rfl

theorem prune_of_not_deadFrom (h : catalog.DistinctSubs)
    (hnone : ∀ depth < path.length, ¬ catalog.DeadFrom (depth + 1) path) :
    catalog.prune path = (catalog, 0) := by
  induction path generalizing catalog with
  | nil => rfl
  | cons name path ih =>
    cases hsub : catalog.subCatalog? name with
    | none => exact prune_cons_of_none hsub
    | some sub =>
      have hbelow : ∀ depth < path.length + 1, ¬ sub.DeadFrom depth path := fun depth hdepth hdead =>
        hnone depth hdepth ((deadFrom_succ_cons_iff hsub).mpr hdead)
      have hstays : ¬ sub.PrunesAway path := fun hgoes =>
        hbelow 0 (Nat.succ_pos _) ((prunesAway_iff (h.sub hsub)).mp hgoes)
      have hsame := ih (h.sub hsub) fun depth hdepth => hbelow (depth + 1) (Nat.succ_lt_succ hdepth)
      rw [prune_cons_of_not_prunesAway hsub hstays, hsame, replaceSub_self h hsub]

-- A node that is missing is not dead.
theorem not_deadFrom_of_descend?_eq_none (hmissing : catalog.descend? path = none)
    (hdepth : depth ≤ path.length) : ¬ catalog.DeadFrom depth path := by
  intro hdead
  obtain ⟨node, hnode, -⟩ := hdead path.length hdepth (Nat.le_refl _)
  rw [List.take_length, hmissing] at hnode
  cases hnode

/-! ## From the last node upwards -/

/-- Removes the nodes of a path, given from the last one upwards, one after the other.  Each is looked
up from the root of what the removals before have left, and the first one that is missing, explicit
or not empty stops the walk. -/
def pruneUpwards : List String → Catalog → Catalog × Nat
  | [], catalog => (catalog, 0)
  | name :: above, catalog =>
    match (catalog.descend? above.reverse).bind (·.subCatalog? name) with
    | some node =>
      if node.implicit && node.isEmpty then
        let (pruned, count) :=
          pruneUpwards above (catalog.updateAt (·.removeSubCatalog name) above.reverse)
        (pruned, count + 1)
      else (catalog, 0)
    | none => (catalog, 0)

-- The walk below a node is a walk in its sub-catalog, and the node itself comes last.
theorem pruneUpwards_concat (h : catalog.DistinctSubs) (hsub : catalog.subCatalog? name = some sub)
    (upwards : List String) :
    catalog.pruneUpwards (upwards ++ [name]) =
      let (pruned, count) := sub.pruneUpwards upwards
      if count = upwards.length && pruned.implicit && pruned.isEmpty then
        (catalog.removeSubCatalog name, count + 1)
      else ({ catalog with catalogs := catalog.catalogs.replace name pruned }, count) := by
  induction upwards generalizing catalog sub with
  | nil =>
    simp [pruneUpwards, descend?, updateAt, hsub, replaceSub_self h hsub]
  | cons last above ih =>
    have hnode : (catalog.descend? (above ++ [name]).reverse).bind (·.subCatalog? last) =
        (sub.descend? above.reverse).bind (·.subCatalog? last) := by
      rw [List.reverse_concat, descend?, hsub]
    rw [List.cons_append, pruneUpwards, hnode, pruneUpwards]
    cases hlast : (sub.descend? above.reverse).bind (·.subCatalog? last) with
    | none => simp [replaceSub_self h hsub]
    | some node =>
      by_cases hgoes : (node.implicit && node.isEmpty) = true
      · have hchanged : catalog.updateAt (·.removeSubCatalog last) (above ++ [name]).reverse =
            { catalog with
              catalogs := catalog.catalogs.replace name
                (sub.updateAt (·.removeSubCatalog last) above.reverse) } := by
          rw [List.reverse_concat, updateAt, hsub]
        have hdistinct :=
          stable_distinctSubs.updateAt (fun _ hnode => stable_distinctSubs.eraseSub last hnode)
            (above ++ [name]).reverse h
        have hinner := subCatalog?_replace_self
          (sub.updateAt (·.removeSubCatalog last) above.reverse) hsub
        rw [hchanged] at hdistinct
        simp only [hgoes, if_true, hchanged, ih hdistinct hinner, removeSubCatalog_replaceSub,
          Namespace.replace_replace, List.length_cons, Nat.add_right_cancel_iff]
        split <;> rfl
      · simp [hgoes, replaceSub_self h hsub]

theorem pruneUpwards_concat_of_none (hsub : catalog.subCatalog? name = none)
    (upwards : List String) : catalog.pruneUpwards (upwards ++ [name]) = (catalog, 0) := by
  cases upwards with
  | nil => simp [pruneUpwards, descend?, hsub]
  | cons last above => simp [pruneUpwards, descend?, hsub]

-- Pruning is this walk.
theorem pruneUpwards_reverse (h : catalog.DistinctSubs) (path : List String) :
    catalog.pruneUpwards path.reverse = catalog.prune path := by
  induction path generalizing catalog with
  | nil => rfl
  | cons name path ih =>
    rw [List.reverse_cons]
    cases hsub : catalog.subCatalog? name with
    | none => rw [pruneUpwards_concat_of_none hsub, prune_cons_of_none hsub]
    | some sub =>
      rw [pruneUpwards_concat h hsub, ih (h.sub hsub), prune, hsub, List.length_reverse]

/-! ## What is found -/

section Found

variable {kind : ResourceKind} {selects : Selection}

-- A look-up sees the resources of the root and what look-ups in its sub-catalogs see.
theorem seen?_congr {changed : Catalog}
    (hresources : changed.resources kind = catalog.resources kind)
    (hbelow : ∀ segment inner,
      ((changed.subCatalog? segment).bind fun sub => sub.seen? kind selects inner) =
        (catalog.subCatalog? segment).bind fun sub => sub.seen? kind selects inner)
    (place : Place) : changed.seen? kind selects place = catalog.seen? kind selects place := by
  obtain ⟨_ | ⟨segment, rest⟩, name⟩ := place
  · show (changed.resources kind).find? _ = (catalog.resources kind).find? _
    rw [hresources]
  · have hplace : (⟨segment :: rest, name⟩ : Place) = Place.below segment ⟨rest, name⟩ := rfl
    rw [hplace, seen?_below, seen?_below, hbelow]

theorem seen?_prune (path : List String) (catalog : Catalog) (place : Place) :
    (catalog.prune path).1.seen? kind selects place = catalog.seen? kind selects place := by
  induction path generalizing catalog place with
  | nil => rfl
  | cons name path ih =>
    cases hsub : catalog.subCatalog? name with
    | none => rw [prune_cons_of_none hsub]
    | some sub =>
      by_cases hgoes : sub.PrunesAway path
      · rw [prune_cons_of_prunesAway hsub hgoes]
        refine seen?_congr (by cases kind <;> rfl) (fun segment inner => ?_) place
        show ((catalog.catalogs.erase name).get? segment).bind _ =
          (catalog.catalogs.get? segment).bind _
        rw [Namespace.get?_erase]
        split
        · -- what is pruned away is empty in the end, so nothing was found in it before
          rename_i hname
          have hfound : catalog.catalogs.get? segment = some sub :=
            (subCatalog?_congr hname catalog).trans hsub
          rw [hfound, Option.bind_none, Option.bind_some, ← ih, seen?_of_isEmpty hgoes.2.2]
        · rfl
      · rw [prune_cons_of_not_prunesAway hsub hgoes]
        refine seen?_congr (by cases kind <;> rfl) (fun segment inner => ?_) place
        show ((catalog.catalogs.replace name (sub.prune path).1).get? segment).bind _ =
          (catalog.catalogs.get? segment).bind _
        rw [Namespace.get?_replace]
        split
        · rename_i hname
          have hfound : catalog.catalogs.get? segment = some sub :=
            (subCatalog?_congr hname catalog).trans hsub
          rw [hfound, Option.map_some, Option.bind_some, Option.bind_some, ih]
        · rfl

theorem find_prune (kind : ResourceKind) (path query : List String) (catalog : Catalog) :
    (catalog.prune path).1.find kind query = catalog.find kind query := by
  rcases List.eq_nil_or_concat query with rfl | ⟨catalogs, name, rfl⟩
  · rfl
  · rw [List.concat_eq_append, find_eq, find_eq, seen?_prune]

theorem findFunctionByFullName_prune (path : List String) (fullName : String) (catalog : Catalog) :
    (catalog.prune path).1.findFunctionByFullName fullName =
      catalog.findFunctionByFullName fullName := by
  have hroot : (catalog.prune path).1.functions.find? (· == Name.fold fullName) =
      catalog.functions.find? (· == Name.fold fullName) :=
    @seen?_prune .function (fun _ key => key == Name.fold fullName) path catalog ⟨[], fullName⟩
  rw [findFunctionByFullName, findFunctionByFullName, functionByFullName?, functionByFullName?,
    Namespace.get?_eq_find?, Namespace.get?_eq_find?, hroot]

end Found

/-! ## After a path has been made sure of -/

/-- How many nodes of a path are not there. -/
def missing (path : List String) (catalog : Catalog) : Nat :=
  (List.range path.length).countP fun count => (catalog.descend? (path.take (count + 1))).isNone

theorem missing_cons_of_some (hsub : catalog.subCatalog? name = some sub) :
    catalog.missing (name :: path) = sub.missing path := by
  rw [missing, List.length_cons, List.range_succ_eq_map, List.countP_cons, List.countP_map]
  simp [descend?, hsub, missing, Function.comp_def]

theorem missing_cons_of_none (hsub : catalog.subCatalog? name = none) :
    catalog.missing (name :: path) = path.length + 1 := by
  rw [missing, List.countP_eq_length.mpr, List.length_range, List.length_cons]
  intro count _
  rw [List.take_succ_cons, descend?, hsub]
  rfl

theorem missing_of_isEmpty (h : catalog.isEmpty = true) : catalog.missing path = path.length := by
  cases path with
  | nil => rfl
  | cons name path => rw [missing_cons_of_none (subCatalog?_of_isEmpty h name), List.length_cons]

theorem ensurePath_cons_of_some (hsub : catalog.subCatalog? name = some sub) :
    catalog.ensurePath (name :: path) =
      { catalog with catalogs := catalog.catalogs.replace name (sub.ensurePath path) } := by
  rw [ensurePath, updateOrCreate, hsub]
  rfl

theorem ensurePath_cons_of_none (hsub : catalog.subCatalog? name = none) :
    catalog.ensurePath (name :: path) =
      { catalog with
        catalogs := catalog.catalogs.insert name ((newImplicit name).ensurePath path) } := by
  rw [ensurePath, updateOrCreate, hsub]
  rfl

theorem missing_ensurePath (path : List String) (catalog : Catalog) :
    (catalog.ensurePath path).missing path = 0 := by
  induction path generalizing catalog with
  | nil => rfl
  | cons name path ih =>
    cases hsub : catalog.subCatalog? name with
    | none =>
      rw [ensurePath_cons_of_none hsub, missing_cons_of_some (subCatalog?_insert_self _ _ _), ih]
    | some sub =>
      rw [ensurePath_cons_of_some hsub, missing_cons_of_some (subCatalog?_replace_self _ hsub), ih]

-- The root is not on the path, so it may be implicit and empty.
theorem prune_ensurePath (h : catalog.DistinctSubs) (htidy : catalog.TidyBelow) :
    (catalog.ensurePath path).prune path = (catalog, catalog.missing path) := by
  induction path generalizing catalog with
  | nil => rfl
  | cons name path ih =>
    cases hsub : catalog.subCatalog? name with
    | none =>
      -- the node that is made is empty again when the nodes below it are gone
      have hmade : ((newImplicit name).ensurePath path).prune path =
          (newImplicit name, path.length) := by
        have hbelow := ih (stable_distinctSubs.empty name true) fun _ _ hinner => nomatch hinner
        rwa [missing_of_isEmpty rfl] at hbelow
      have hgoes : ((newImplicit name).ensurePath path).PrunesAway path := by
        rw [PrunesAway, hmade]
        exact ⟨rfl, rfl, rfl⟩
      rw [ensurePath_cons_of_none hsub,
        prune_cons_of_prunesAway (subCatalog?_insert_self _ _ _) hgoes, missing_cons_of_none hsub]
      simp only [removeSubCatalog, Namespace.erase_insert, Namespace.erase_of_get?_eq_none hsub]
      cases catalog
      rfl
    | some sub =>
      have hnode := everywhere_iff.mp (htidy name sub hsub)
      have hbelow := ih (h.sub hsub) hnode.2
      have hstays : ¬ (sub.ensurePath path).PrunesAway path := by
        rw [PrunesAway, hbelow]
        rintro ⟨-, himplicit, hempty⟩
        rw [hnode.1 himplicit] at hempty
        cases hempty
      rw [ensurePath_cons_of_some hsub,
        prune_cons_of_not_prunesAway (subCatalog?_replace_self _ hsub) hstays, hbelow,
        missing_cons_of_some hsub]
      simp only [Namespace.replace_replace, replaceSub_self h hsub]

end Tails

/-- **Pruning removes exactly the dead tail of a path.**  A path with a missing node is left alone.
Otherwise the first node from which on all nodes are dead is removed from its parent, and the nodes
from there on are counted; if there is none, nothing changes.  This is what a walk from the last node
upwards does.  Nothing is found or lost by it, and it takes back what was made for the path in a tree
without empty implicit nodes. -/
theorem prune_effect {catalog : Catalog} (h : catalog.DistinctSubs) (path : List String) :
    (catalog.descend? path = none → catalog.prune path = (catalog, 0)) ∧
    (∀ (depth : Nat) (hdepth : depth < path.length), catalog.DeadFrom (depth + 1) path →
      (∀ above, 0 < above → above ≤ depth → ¬ catalog.DeadFrom above path) →
        catalog.prune path =
          (catalog.updateAt (·.removeSubCatalog path[depth]) (path.take depth),
            path.length - depth)) ∧
    ((∀ depth < path.length, ¬ catalog.DeadFrom (depth + 1) path) →
      catalog.prune path = (catalog, 0)) ∧
    catalog.pruneUpwards path.reverse = catalog.prune path ∧
    (∀ kind query, (catalog.prune path).1.find kind query = catalog.find kind query) ∧
    (∀ fullName, (catalog.prune path).1.findFunctionByFullName fullName =
      catalog.findFunctionByFullName fullName) ∧
    ((catalog.Everywhere fun node => node.implicit = true → node.isEmpty = false) →
      (catalog.ensurePath path).missing path = 0 ∧
        (catalog.ensurePath path).prune path = (catalog, catalog.missing path)) := by
  refine ⟨fun hmissing => ?_, fun depth hdepth hdead hleast => ?_, prune_of_not_deadFrom h,
    pruneUpwards_reverse h path, fun kind query => find_prune kind path query catalog,
    fun fullName => findFunctionByFullName_prune path fullName catalog,
    fun htidy => ⟨missing_ensurePath path catalog, prune_ensurePath h ?_⟩⟩
  · exact prune_of_not_deadFrom h fun depth hdepth =>
      not_deadFrom_of_descend?_eq_none hmissing (Nat.succ_le_of_lt hdepth)
  · exact prune_of_deadFrom h hdepth hdead fun hpositive => hleast depth hpositive (Nat.le_refl _)
  · exact tidyBelow_of_everywhere htidy

/-- The caller's node stays, and the two nodes below it go. -/
theorem prune_effect_below_explicit :
    let catalog := ((new "root").ensureSubCatalog "a").ensurePath ["a", "b", "c"]
    catalog.DistinctSubs ∧ catalog.DeadFrom 2 ["A", "b", "C"] ∧ ¬ catalog.DeadFrom 1 ["A", "b", "C"] ∧
      catalog.prune ["A", "b", "C"] = (catalog.updateAt (·.removeSubCatalog "b") ["A"], 2) := by
  intro catalog
  have hbuilt : Built catalog :=
    @Built.call _ _ _ [] (.ensurePath ["a", "b", "c"])
      (@Built.call _ _ _ [] (.ensureSubCatalog "a") (.new "root") rfl (fun _ h => nomatch h) rfl)
      rfl (fun _ h => nomatch h) rfl
  have hdistinct := distinctSubs_of_built hbuilt
  have hdead : catalog.DeadFrom 2 ["A", "b", "C"] := by
    intro count hle hcount
    obtain rfl | rfl : count = 2 ∨ count = 3 := by simp at hcount; omega
    · exact ⟨_, rfl, rfl, fun kind => by cases kind <;> rfl, rfl⟩
    · exact ⟨_, rfl, rfl, fun kind => by cases kind <;> rfl, rfl⟩
  have hexplicit : ¬ catalog.DeadFrom 1 ["A", "b", "C"] := by
    intro hdead
    obtain ⟨node, hnode, hspare⟩ := hdead 1 (Nat.le_refl _) (by decide)
    cases hnode
    exact nomatch hspare.implicit
  refine ⟨hdistinct, hdead, hexplicit, ?_⟩
  refine (prune_effect hdistinct ["A", "b", "C"]).2.1 1 (by decide) hdead fun above hpos hle => ?_
  obtain rfl : above = 1 := by omega
  exact hexplicit

end SchemaCatalog.Catalog
