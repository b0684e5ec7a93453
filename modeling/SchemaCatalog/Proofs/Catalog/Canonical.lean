import Mathlib.Data.List.Nodup
import SchemaCatalog.Proofs.Catalog.Face
import SchemaCatalog.Proofs.Catalog.Resolution
import SchemaCatalog.Proofs.Catalog.Selections

/-!
# Canonical keys

Every key of a namespace is folded and stands there once, so looking up or removing a listed key means
exactly its entry, although the key is folded again on the way.  A function is stored under its own
group, a sub-catalog under its own name.  This holds at every node of a catalog that grows by calls at
its nodes, and it makes the ways of asking a node for a name agree.
-/

namespace SchemaCatalog

namespace Namespace

variable {α : Type}

/-- All keys are distinct and folded. -/
structure Canonical (space : Namespace α) : Prop where
  nodup : space.keys.Nodup
  folded : ∀ key ∈ space.keys, Name.fold key = key

variable {space : Namespace α} {entry : String × α} {front back : List (String × α)}

theorem Canonical.get?_of_mem (h : space.Canonical) (hentry : entry ∈ space.entries) :
    space.get? entry.1 = some entry.2 := by
  refine get?_eq_some_of_mem h.nodup ?_
  rw [h.folded entry.1 (List.mem_map_of_mem hentry)]
  exact hentry

-- Erasing a listed key takes its entry out and no other.
theorem Canonical.entries_erase (h : space.Canonical)
    (hentries : space.entries = front ++ entry :: back) :
    (space.erase entry.1).entries = front ++ back := by
  have hkeys : space.keys = front.map (·.1) ++ entry.1 :: back.map (·.1) := by
    simp [keys, hentries]
  have hfolded : Name.fold entry.1 = entry.1 := h.folded entry.1 (by simp [hkeys])
  have hnodup := h.nodup
  rw [hkeys, List.nodup_middle, List.nodup_cons, List.mem_append] at hnodup
  have hkept : ∀ other ∈ front ++ back, (!(other.1 == Name.fold entry.1)) = true := by
    intro other hother
    have hne : other.1 ≠ entry.1 := by
      rintro heq
      refine hnodup.1 ?_
      rw [← heq]
      exact (List.mem_append.mp hother).imp List.mem_map_of_mem List.mem_map_of_mem
    simpa [hfolded] using hne
  have hfront := fun other hother => hkept other (List.mem_append_left back hother)
  have hback := fun other hother => hkept other (List.mem_append_right front hother)
  show space.entries.filter _ = _
  rw [hentries, List.filter_append, List.filter_cons_of_neg (by simp [hfolded]),
    List.filter_eq_self.mpr hfront, List.filter_eq_self.mpr hback]

/-- Under each listed key stands its own entry: the key finds it, and erasing the key takes it out and
nothing else. -/
def Faithful (space : Namespace α) : Prop :=
  ∀ front entry back, space.entries = front ++ entry :: back →
    space.get? entry.1 = some entry.2 ∧ (space.erase entry.1).entries = front ++ back

theorem Canonical.faithful (h : space.Canonical) : space.Faithful := by
  intro front entry back hentries
  refine ⟨h.get?_of_mem ?_, h.entries_erase hentries⟩
  rw [hentries]
  exact List.mem_append_right front List.mem_cons_self

/-- Takes out what is stored under one name after the other. -/
def takeEach : List String → Namespace α → List α × Namespace α
  | [], space => ([], space)
  | name :: names, space =>
    let (values, left) := takeEach names (space.erase name)
    ((space.get? name).toList ++ values, left)

theorem takeEach_eq {names : List String} (hnodup : names.Nodup)
    (hfolded : ∀ name ∈ names, Name.fold name = name) (space : Namespace α) :
    takeEach names space = (names.filterMap space.get?, space.removeWhere names.contains) := by
  induction names generalizing space with
  | nil =>
    have hnone : space.removeWhere (List.contains []) = space :=
      ext_entries (List.filter_eq_self.mpr fun _ _ => rfl)
    rw [takeEach, hnone, List.filterMap_nil]
  | cons name names ih =>
    obtain ⟨hname, hnodup⟩ := List.nodup_cons.mp hnodup
    obtain ⟨hself, hfolded⟩ := List.forall_mem_cons.mp hfolded
    have hothers : ∀ other ∈ names, (space.erase name).get? other = space.get? other := by
      intro other hother
      rw [get?_erase, hself, hfolded other hother, if_neg]
      rintro rfl
      exact hname hother
    have hleft : (space.erase name).removeWhere names.contains =
        space.removeWhere (name :: names).contains := by
      rw [erase, removeWhere_removeWhere, hself]
      rfl
    rw [takeEach, ih hnodup hfolded, List.filterMap_congr hothers, hleft, List.filterMap_cons]
    cases space.get? name <;> rfl

variable {wanted : String → Bool}

theorem Canonical.filterMap_get? (h : space.Canonical) :
    (space.keys.filter wanted).filterMap space.get? = space.select wanted := by
  have hget : ∀ entry ∈ space.entries.filter fun entry => wanted entry.1,
      (space.get? ∘ (·.1)) entry = some entry.2 :=
    fun entry hentry => h.get?_of_mem (List.mem_filter.mp hentry).1
  rw [keys, List.filter_map, List.filterMap_map]
  exact (List.filterMap_congr hget).trans (congrFun List.filterMap_eq_map _)

theorem Canonical.head?_bind_get? (h : space.Canonical) :
    (space.keys.filter wanted).head?.bind space.get? = space.find? wanted := by
  have hentry : space.entries.find? (wanted ∘ (·.1)) =
      space.entries.find? fun entry => wanted entry.1 := rfl
  rw [List.head?_filter, keys, List.find?_map, find?, hentry]
  cases hfound : space.entries.find? fun entry => wanted entry.1 with
  | none => rfl
  | some entry => exact h.get?_of_mem (List.mem_of_find?_eq_some hfound)

-- What a condition selects can be taken out key by key.
theorem Canonical.takeEach_filter (h : space.Canonical) :
    takeEach (space.keys.filter wanted) space =
      (space.select wanted, space.removeWhere wanted) := by
  have hfolded : ∀ key ∈ space.keys.filter wanted, Name.fold key = key :=
    fun key hkey => h.folded key (List.mem_filter.mp hkey).1
  have hselected : ∀ key ∈ space.keys, (space.keys.filter wanted).contains key = wanted key := by
    intro key hkey
    rw [Bool.eq_iff_iff, List.contains_iff_mem, List.mem_filter]
    exact and_iff_right hkey
  rw [takeEach_eq (h.nodup.filter wanted) hfolded, h.filterMap_get?, removeWhere_congr hselected]

end Namespace

/-- The keys of a namespace that a plain name stands for.  For functions all keys are compared, for the
other kinds one is looked up. -/
def ResourceKind.keysNamed :
    (kind : ResourceKind) → Namespace (Resource kind) → String → List String
  | .function, space, name => space.keys.filter (ResourceKind.function.selects name)
  | .table, space, name => if space.contains name then [Name.fold name] else []
  | .procedure, space, name => if space.contains name then [Name.fold name] else []
  | .tableFunction, space, name => if space.contains name then [Name.fold name] else []

theorem Namespace.Canonical.filter_fold {α : Type} {space : Namespace α} (h : space.Canonical)
    (name : String) : space.keys.filter (· == Name.fold name) =
      if space.contains name then [Name.fold name] else [] := by
  rw [List.filter_beq, h.nodup.count, Namespace.contains]
  cases hget : space.get? name with
  | none =>
    rw [if_neg (Namespace.get?_eq_none_iff.mp hget)]
    rfl
  | some value =>
    have hkey : Name.fold name ∈ space.keys :=
      List.mem_map_of_mem (Namespace.mem_entries_of_get?_eq_some hget)
    rw [if_pos hkey]
    rfl

theorem ResourceKind.keysNamed_eq {kind : ResourceKind} {space : Namespace (Resource kind)}
    (h : space.Canonical) (name : String) :
    kind.keysNamed space name = space.keys.filter (kind.selects name) := by
  cases kind with
  | function => rfl
  | table => exact (h.filter_fold name).symm
  | procedure => exact (h.filter_fold name).symm
  | tableFunction => exact (h.filter_fold name).symm

namespace Catalog

/-! ## Keys of one node -/

/-- What is stored at a node is under distinct keys, each of them the storage key of a name for the
resource under it. -/
def KeepsKeys (node : Catalog) : Prop :=
  ∀ kind, (node.resources kind).keys.Nodup ∧
    ∀ entry ∈ (node.resources kind).entries,
      ∃ name, entry.1 = Name.fold (entry.2.storageKey kind name)

theorem resources_withCatalogs (node : Catalog) (subs : Namespace Catalog) (kind : ResourceKind) :
    ({ node with catalogs := subs } : Catalog).resources kind = node.resources kind := by
  cases kind <;> rfl

theorem KeepsKeys.withCatalogs {node : Catalog} (h : node.KeepsKeys) (subs : Namespace Catalog) :
    ({ node with catalogs := subs } : Catalog).KeepsKeys := by
  intro kind
  rw [resources_withCatalogs]
  exact h kind

theorem nodeStable_keepsKeys : NodeStable KeepsKeys where
  empty name implicit kind := by
    cases kind <;> exact ⟨Namespace.nodup_keys_empty, fun _ h => nomatch h⟩
  store {node kind resource} name h other := by
    by_cases hkind : other = kind
    · subst hkind
      rw [resources_store]
      refine ⟨Namespace.nodup_keys_insert (h other).1 _ _, fun entry hentry => ?_⟩
      rcases List.mem_append.mp hentry with hentry | hentry
      · exact (h other).2 entry (List.mem_filter.mp hentry).1
      · rw [List.mem_singleton.mp hentry]
        exact ⟨name, rfl⟩
    · rw [store, resources_withResources_of_ne hkind]
      exact h other
  discard {node} kind selects name h other := by
    by_cases hkind : other = kind
    · subst hkind
      rw [resources_discard]
      exact ⟨Namespace.nodup_keys_removeWhere (h other).1 _,
        fun entry hentry => (h other).2 entry (List.mem_filter.mp hentry).1⟩
    · rw [discard, resources_withResources_of_ne hkind]
      exact h other
  replaceSub name sub h := h.withCatalogs _
  insertSub name sub h := h.withCatalogs _
  eraseSub name h := h.withCatalogs _

theorem keepsKeys_of_built {catalog : Catalog} (h : Built catalog) :
    catalog.Everywhere KeepsKeys :=
  nodeStable_keepsKeys.everywhere.built h

theorem KeepsKeys.canonical {node : Catalog} (h : node.KeepsKeys) (kind : ResourceKind) :
    (node.resources kind).Canonical := by
  refine ⟨(h kind).1, fun key hkey => ?_⟩
  obtain ⟨entry, hentry, rfl⟩ := List.mem_map.mp hkey
  obtain ⟨name, hname⟩ := (h kind).2 entry hentry
  rw [hname, Name.fold_fold]

/-! ## Sub-catalogs under their own names -/

/-- Every sub-catalog, at every depth, is listed under its own name. -/
def OwnNamed (catalog : Catalog) : Prop :=
  ∀ node, catalog.Contains node → ∀ entry ∈ node.catalogs.entries,
    entry.1 = Name.fold entry.2.name

theorem ownNamed_iff {catalog : Catalog} : catalog.OwnNamed ↔
    ∀ entry ∈ catalog.catalogs.entries, entry.1 = Name.fold entry.2.name ∧ entry.2.OwnNamed := by
  constructor
  · intro h entry hentry
    exact ⟨h catalog (.self catalog) entry hentry,
      fun node hnode => h node (.nested hentry hnode)⟩
  · intro h node hnode
    cases hnode with
    | self => exact fun entry hentry => (h entry hentry).1
    | nested hentry hbelow => exact (h _ hentry).2 node hbelow

namespace OwnNamed

variable {catalog sub changed : Catalog} {name : String}

theorem new (name : String) (implicit : Bool) :
    ({ Catalog.new name with implicit := implicit } : Catalog).OwnNamed :=
  ownNamed_iff.mpr fun _ hentry => nomatch hentry

theorem of_catalogs_eq (h : catalog.OwnNamed) (hcatalogs : changed.catalogs = catalog.catalogs) :
    changed.OwnNamed := by
  rw [ownNamed_iff, hcatalogs]
  exact ownNamed_iff.mp h

theorem of_subCatalog? (h : catalog.OwnNamed) (hsub : catalog.subCatalog? name = some sub) :
    Name.fold sub.name = Name.fold name ∧ sub.OwnNamed := by
  have hentry := ownNamed_iff.mp h _ (Namespace.mem_entries_of_get?_eq_some hsub)
  exact ⟨hentry.1.symm, hentry.2⟩

theorem replace (h : catalog.OwnNamed) (hname : Name.fold changed.name = Name.fold name)
    (hchanged : changed.OwnNamed) :
    ({ catalog with catalogs := catalog.catalogs.replace name changed } : Catalog).OwnNamed := by
  refine ownNamed_iff.mpr fun entry hentry => ?_
  obtain ⟨old, hold, rfl⟩ := List.mem_map.mp hentry
  split
  · rename_i hkey
    exact ⟨(beq_iff_eq.mp hkey).trans hname.symm, hchanged⟩
  · exact ownNamed_iff.mp h old hold

theorem erase (h : catalog.OwnNamed) (name : String) : (catalog.removeSubCatalog name).OwnNamed :=
  ownNamed_iff.mpr fun entry hentry => ownNamed_iff.mp h entry (List.mem_filter.mp hentry).1

theorem insert (h : catalog.OwnNamed) (hname : Name.fold sub.name = Name.fold name)
    (hsub : sub.OwnNamed) :
    ({ catalog with catalogs := catalog.catalogs.insert name sub } : Catalog).OwnNamed := by
  refine ownNamed_iff.mpr fun entry hentry => ?_
  rcases List.mem_append.mp hentry with hold | hnew
  · exact ownNamed_iff.mp h entry (List.mem_filter.mp hold).1
  · rw [List.mem_singleton.mp hnew]
    exact ⟨hname.symm, hsub⟩

end OwnNamed

/-- A change of a node that leaves it its name, and all sub-catalogs below it under theirs. -/
def KeepsNames (change : Catalog → Catalog) : Prop :=
  ∀ node, node.OwnNamed → (change node).name = node.name ∧ (change node).OwnNamed

namespace KeepsNames

variable {change : Catalog → Catalog} {kind : ResourceKind}

theorem comp {second : Catalog → Catalog} (hsecond : KeepsNames second)
    (h : KeepsNames change) : KeepsNames (second ∘ change) := by
  intro node hnode
  obtain ⟨hname, hchanged⟩ := h node hnode
  obtain ⟨hsame, hown⟩ := hsecond (change node) hchanged
  exact ⟨hsame.trans hname, hown⟩

theorem withResources (space : Catalog → Namespace (Resource kind)) :
    KeepsNames fun node => node.withResources kind (space node) := by
  intro node hnode
  refine ⟨?_, hnode.of_catalogs_eq (catalogs_withResources kind node _)⟩
  cases kind <;> rfl

theorem store (resource : Resource kind) (name : String) :
    KeepsNames (store kind resource name) :=
  withResources _

theorem discard (selects : Selection) (name : String) : KeepsNames (discard kind selects name) :=
  withResources _

theorem enterOrCreate (h : KeepsNames change) (segment : String) :
    KeepsNames (enterOrCreate segment change) := by
  intro node hnode
  unfold Catalog.enterOrCreate
  cases hsub : node.subCatalog? segment with
  | some sub =>
    obtain ⟨hname, hown⟩ := hnode.of_subCatalog? hsub
    obtain ⟨hsame, hchanged⟩ := h sub hown
    exact ⟨rfl, hnode.replace (hsame ▸ hname) hchanged⟩
  | none =>
    -- a node that is made is named as the path writes it
    obtain ⟨hsame, hmade⟩ := h (newImplicit segment) (OwnNamed.new segment true)
    exact ⟨rfl, hnode.insert (congrArg Name.fold hsame) hmade⟩

theorem enterAndPrune (h : KeepsNames change) (segment : String) :
    KeepsNames (enterAndPrune segment change) := by
  intro node hnode
  unfold Catalog.enterAndPrune
  split
  · rename_i sub hsub
    split
    · exact ⟨rfl, hnode.erase segment⟩
    · obtain ⟨hname, hown⟩ := hnode.of_subCatalog? hsub
      obtain ⟨hsame, hchanged⟩ := h sub hown
      exact ⟨rfl, hnode.replace (hsame ▸ hname) hchanged⟩
  · exact ⟨rfl, hnode⟩

theorem registerAlong (resource : Resource kind) (segments : List String) :
    KeepsNames (registerAlong kind resource segments) := by
  induction segments with
  | nil => exact fun node hnode => ⟨rfl, hnode⟩
  | cons segment rest ih =>
    cases rest with
    | nil => exact store resource segment
    | cons next others => exact (ih.enterOrCreate segment).comp (store resource _)

theorem unregisterAlong (selects : Selection) (segments : List String) :
    KeepsNames (unregisterAlong kind selects segments) := by
  induction segments with
  | nil => exact fun node hnode => ⟨rfl, hnode⟩
  | cons segment rest ih =>
    cases rest with
    | nil => exact discard selects segment
    | cons next others => exact (ih.enterAndPrune segment).comp (discard selects _)

theorem updateOrCreate (h : KeepsNames change) (path : List String) :
    KeepsNames (updateOrCreate change path) := by
  induction path with
  | nil => exact h
  | cons name path ih => exact ih.enterOrCreate name

theorem prune (path : List String) : KeepsNames fun node => (node.prune path).1 := by
  induction path with
  | nil => exact fun node hnode => ⟨rfl, hnode⟩
  | cons name path ih =>
    intro node hnode
    dsimp only [Catalog.prune]
    cases hsub : node.subCatalog? name with
    | none => exact ⟨rfl, hnode⟩
    | some sub =>
      obtain ⟨hname, hown⟩ := hnode.of_subCatalog? hsub
      obtain ⟨hsame, hchanged⟩ := ih sub hown
      dsimp only
      split
      · exact ⟨rfl, hnode.erase name⟩
      · exact ⟨rfl, hnode.replace (hsame ▸ hname) hchanged⟩

end KeepsNames

theorem keptByDescents_ownNamed (root : String) :
    KeptByDescents fun catalog => catalog.name = root ∧ catalog.OwnNamed where
  register {kind resource segments catalog} _ _ h := by
    obtain ⟨hname, hown⟩ := KeepsNames.registerAlong resource segments catalog h.2
    exact ⟨hname.trans h.1, hown⟩
  unregister {kind selects segments catalog} h := by
    obtain ⟨hname, hown⟩ := KeepsNames.unregisterAlong selects segments catalog h.2
    exact ⟨hname.trans h.1, hown⟩

-- A call keeps names if the catalogs that it is handed have grown alike.
theorem OwnNamed.call {call : Call} {node changed : Catalog} (h : node.OwnNamed)
    (hsubs : ∀ sub ∈ call.catalogs, sub.OwnNamed) (hrun : call.run node = .ok changed) :
    changed.name = node.name ∧ changed.OwnNamed := by
  cases call with
  | operation nested operation =>
    rcases map_eq_ok_iff.mp hrun with ⟨result, hresult, heq⟩
    cases heq
    exact (keptByDescents_ownNamed node.name).run ⟨rfl, h⟩ hresult
  | add kind resource =>
    rcases add_eq_ok hrun with ⟨-, rfl⟩
    exact KeepsNames.store resource _ node h
  | remove kind name =>
    cases hrun
    exact KeepsNames.discard kind.selects name node h
  | addSubCatalog sub =>
    rcases addSubCatalog_eq_ok hrun with ⟨-, rfl⟩
    exact ⟨rfl, h.insert rfl (hsubs sub (List.mem_singleton_self sub))⟩
  | ensureSubCatalog name =>
    cases hrun
    rcases ensureSubCatalog_cases node name with hsame | ⟨-, hmade⟩
    · rw [hsame]
      exact ⟨rfl, h⟩
    · rw [hmade]
      exact ⟨rfl, h.insert rfl (OwnNamed.new name false)⟩
  | removeSubCatalog name =>
    cases hrun
    exact ⟨rfl, h.erase name⟩
  | ensurePath path =>
    cases hrun
    exact KeepsNames.updateOrCreate (fun node hnode => ⟨rfl, hnode⟩) path node h
  | prune path =>
    cases hrun
    exact KeepsNames.prune path node h

theorem OwnNamed.descend {catalog node : Catalog} {path : List String} (h : catalog.OwnNamed)
    (hnode : catalog.descend? path = some node) : node.OwnNamed := by
  induction path generalizing catalog with
  | nil =>
    cases hnode
    exact h
  | cons name path ih =>
    rcases descend?_cons_eq_some_iff.mp hnode with ⟨sub, hsub, hnode⟩
    exact ih (h.of_subCatalog? hsub).2 hnode

theorem OwnNamed.updateAt {catalog node changed : Catalog} {path : List String}
    (h : catalog.OwnNamed) (hnode : catalog.descend? path = some node)
    (hchanged : changed.name = node.name ∧ changed.OwnNamed) :
    (catalog.updateAt (fun _ => changed) path).name = catalog.name ∧
      (catalog.updateAt (fun _ => changed) path).OwnNamed := by
  induction path generalizing catalog with
  | nil =>
    cases hnode
    exact hchanged
  | cons name path ih =>
    rcases descend?_cons_eq_some_iff.mp hnode with ⟨sub, hsub, hnode⟩
    obtain ⟨hname, hown⟩ := h.of_subCatalog? hsub
    obtain ⟨hsame, hupdated⟩ := ih hown hnode
    rw [Catalog.updateAt, hsub]
    exact ⟨rfl, h.replace (hsame ▸ hname) hupdated⟩

/-! ## Catalogs that grow by calls -/

/-- Grown by calls on nodes that were reached from a root; parts of a tree can be copied or taken out.
Unlike in `Built`, no node is exchanged for another catalog. -/
inductive Grown : Catalog → Prop where
  | new (name : String) : Grown (new name)
  | call {catalog node changed : Catalog} {path : List String} {call : Call} :
      Grown catalog → catalog.descend? path = some node → (∀ sub ∈ call.catalogs, Grown sub) →
        call.run node = .ok changed → Grown (catalog.updateAt (fun _ => changed) path)
  | part {catalog node : Catalog} {path : List String} :
      Grown catalog → catalog.descend? path = some node → Grown node

theorem Grown.built {catalog : Catalog} (h : Grown catalog) : Built catalog := by
  induction h with
  | new name => exact .new name
  | call _ hnode _ hrun ih ihsubs => exact .call ih hnode ihsubs hrun
  | part _ hnode ih => exact .part ih hnode

theorem Grown.ownNamed {catalog : Catalog} (h : Grown catalog) : catalog.OwnNamed := by
  induction h with
  | new name => exact OwnNamed.new name false
  | call _ hnode _ hrun ih ihsubs =>
    exact (ih.updateAt hnode ((ih.descend hnode).call ihsubs hrun)).2
  | part _ hnode ih => exact ih.descend hnode

-- A listed node is reached by a path, because its keys are found again.
theorem exists_descend?_of_contains {catalog node : Catalog} (h : catalog.Keyed)
    (hnode : catalog.Contains node) : ∃ path, catalog.descend? path = some node := by
  induction hnode with
  | self catalog => exact ⟨[], rfl⟩
  | @nested catalog node entry hentry _ ih =>
    obtain ⟨hnodup, hnames⟩ := (everywhere_iff.mp h).1
    obtain ⟨name, hname⟩ := hnames entry.1 (List.mem_map_of_mem hentry)
    have hsub : catalog.subCatalog? name = some entry.2 := by
      refine Namespace.get?_eq_some_of_mem hnodup ?_
      rw [← hname]
      exact hentry
    obtain ⟨path, hpath⟩ := ih (h.sub hsub)
    exact ⟨name :: path, descend?_cons_eq_some_iff.mpr ⟨entry.2, hsub, hpath⟩⟩

/-- The keys of a node are canonical, and tell whose they are. -/
structure CanonicalKeys (node : Catalog) : Prop where
  resources : ∀ kind, (node.resources kind).Canonical
  catalogs : node.catalogs.Canonical
  functions : ∀ entry ∈ node.functions.entries,
    ∃ name, entry.1 = Name.fold (Name.qualify entry.2.group name)
  subCatalogs : ∀ entry ∈ node.catalogs.entries, entry.1 = Name.fold entry.2.name

theorem Grown.canonicalKeys {catalog node : Catalog} (h : Grown catalog)
    (hnode : catalog.Contains node) : node.CanonicalKeys := by
  have hkeyed := keyed_of_built h.built
  obtain ⟨path, hpath⟩ := exists_descend?_of_contains hkeyed hnode
  have hkeeps := keepsKeys_of_built h.built path node hpath
  obtain ⟨hnodup, hnames⟩ := hkeyed path node hpath
  refine ⟨hkeeps.canonical, ⟨hnodup, fun key hkey => ?_⟩, (hkeeps .function).2,
    h.ownNamed node hnode⟩
  obtain ⟨name, rfl⟩ := hnames key hkey
  exact Name.fold_fold name

/-! ## The ways to ask for a name -/

theorem head?_named (kind : ResourceKind) (node : Catalog) (name : String) :
    (node.named kind name).head? = node.get? kind name := by
  rw [named, Namespace.select, List.head?_map, List.head?_filter]
  rfl

theorem find_singleton_eq_ok_iff {kind : ResourceKind} {node : Catalog} {name : String}
    {found : Resource kind} :
    node.find kind [name] = .ok found ↔ node.get? kind name = some found := by
  rw [find_singleton, get?]
  cases (node.resources kind).find? (kind.selects name) <;> simp

theorem isSome_get?_table (node : Catalog) (name : String) :
    (node.get? .table name).isSome = node.tables.contains name := by
  have hkey : ∀ key, ResourceKind.table.selects name key = true ↔ key = Name.fold name :=
    fun key => beq_iff_eq
  rw [Bool.eq_iff_iff, get?, Namespace.isSome_find?_iff]
  simp only [hkey, exists_eq_left]
  rfl

/-- **What a node lists is what it finds.** Under a listed key stands its own entry, whether it is
looked up or taken out.  The ways of asking for a plain name agree: its first key looked up, all its
keys taken out one after the other, the lookup at the node, the removal, the find by a path of one
segment, and for tables the test for presence. -/
theorem Grown.lookups_agree {catalog node : Catalog} (h : Grown catalog)
    (hnode : catalog.Contains node) :
    node.CanonicalKeys ∧
      (∀ kind, (node.resources kind).Faithful) ∧ node.catalogs.Faithful ∧
      ∀ kind name,
        ((kind.keysNamed (node.resources kind) name).head?.bind (node.resources kind).get? =
          node.get? kind name) ∧
        Namespace.takeEach (kind.keysNamed (node.resources kind) name) (node.resources kind) =
          (node.named kind name, (node.remove kind name).resources kind) ∧
        (∀ found, node.find kind [name] = .ok found ↔ node.get? kind name = some found) ∧
        (node.named kind name = [] ↔ node.get? kind name = none) ∧
        (kind = .table → (node.get? kind name).isSome = node.tables.contains name) := by
  have hkeys := h.canonicalKeys hnode
  refine ⟨hkeys, fun kind => (hkeys.resources kind).faithful, hkeys.catalogs.faithful,
    fun kind name => ?_⟩
  have hspace := hkeys.resources kind
  refine ⟨?_, ?_, fun found => find_singleton_eq_ok_iff, ?_, ?_⟩
  · rw [ResourceKind.keysNamed_eq hspace]
    exact hspace.head?_bind_get?
  · rw [ResourceKind.keysNamed_eq hspace, hspace.takeEach_filter, remove,
      resources_withResources]
    rfl
  · rw [← head?_named, List.head?_eq_none_iff]
  · rintro rfl
    exact isSome_get?_table node name

-- The key of the made node ends in the final form of sigma, its name in none.
theorem lookups_agree_made :
    ∃ created reply node,
      Operation.run true (new "root") (.create .createDefault .function "ΟΔΟΣ.F"
        ⟨["F"], "Udf", .scalar, []⟩) = .ok (created, reply) ∧
      Grown created ∧ created.Contains node ∧ node.name = "ΟΔΟΣ" ∧
      node.functions.keys = ["udf:f"] ∧ node.CanonicalKeys ∧
      (∀ kind, (node.resources kind).Faithful) ∧ node.catalogs.Faithful ∧
      ∀ kind name,
        ((kind.keysNamed (node.resources kind) name).head?.bind (node.resources kind).get? =
          node.get? kind name) ∧
        Namespace.takeEach (kind.keysNamed (node.resources kind) name) (node.resources kind) =
          (node.named kind name, (node.remove kind name).resources kind) ∧
        (∀ found, node.find kind [name] = .ok found ↔ node.get? kind name = some found) ∧
        (node.named kind name = [] ↔ node.get? kind name = none) ∧
        (kind = .table → (node.get? kind name).isSome = node.tables.contains name) := by
  have hmade : ((Operation.run true (new "root") (.create .createDefault .function "ΟΔΟΣ.F"
      ⟨["F"], "Udf", .scalar, []⟩)).toOption.bind fun result =>
        (result.1.subCatalog? "οδος").map fun node => (node.name, node.functions.keys)) =
      some ("ΟΔΟΣ", ["udf:f"]) := by
    decide +kernel
  cases hrun : Operation.run true (new "root") (.create .createDefault .function "ΟΔΟΣ.F"
      ⟨["F"], "Udf", .scalar, []⟩) with
  | error error =>
    rw [hrun] at hmade
    cases hmade
  | ok result =>
    rw [hrun] at hmade
    obtain ⟨node, hsub, hshape⟩ := Option.map_eq_some_iff.mp hmade
    obtain ⟨hname, hkeys⟩ := Prod.mk.inj hshape
    have hcall : (Call.operation true (.create .createDefault .function "ΟΔΟΣ.F"
        ⟨["F"], "Udf", .scalar, []⟩)).run (new "root") = .ok result.1 :=
      congrArg (Except.map Prod.fst) hrun
    have hroot : (new "root").descend? [] = some (new "root") := rfl
    have hgrown : Grown result.1 :=
      .call (.new "root") hroot (fun sub hsub => by cases hsub) hcall
    have hnode : result.1.Contains node :=
      .nested (Namespace.mem_entries_of_get?_eq_some hsub) (.self node)
    exact ⟨result.1, result.2, node, rfl, hgrown, hnode, hname, hkeys,
      hgrown.lookups_agree hnode⟩

end Catalog

end SchemaCatalog
