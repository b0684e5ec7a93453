import SchemaCatalog.Proofs.Catalog.Permanence
import SchemaCatalog.Proofs.Catalog.Registration

/-!
# Clients that create at the same time

Clients take turns, one whole create at a time, and none of them replaces.  Then a catalog only grows:
every node stays, and what it holds is followed by what comes later.  So the first create that stores a
resource under a key wins; all later ones find the key taken at the root, the first of their places.
-/

namespace SchemaCatalog

/-- A create as a client asks for it, with names nested or not. -/
structure Attempt where
  nested : Bool
  mode : CreateMode
  request : NamedResource

def Attempt.operation (attempt : Attempt) : Bool × Operation :=
  (attempt.nested, attempt.request.create attempt.mode)

def Attempt.run (attempt : Attempt) (catalog : Catalog) :
    Except CatalogError (Catalog × Reply) :=
  attempt.operation.2.run attempt.operation.1 catalog

/-- Where a resource is stored under its whole name, at the root. -/
def NamedResource.slot (request : NamedResource) : Slot :=
  ⟨request.kind, [], Name.fold (request.resource.storageKey request.kind request.name)⟩

namespace Catalog

variable {kind : ResourceKind} {path : List String} {catalog node kept tree later : Catalog}

/-! ## Growing -/

/-- A later state of a node: what the node holds comes first, in its order, and is followed by what is
new. -/
structure Continues (node kept : Catalog) : Prop where
  name : kept.name = node.name
  implicit : kept.implicit = node.implicit
  resources : ∀ kind, (node.resources kind).entries <+: (kept.resources kind).entries
  catalogs : node.catalogs.keys <+: kept.catalogs.keys

theorem Continues.refl (node : Catalog) : Continues node node :=
  ⟨rfl, rfl, fun _ => List.prefix_refl _, List.prefix_refl _⟩

theorem Continues.trans {last : Catalog} (h : Continues node kept) (hlast : Continues kept last) :
    Continues node last :=
  ⟨hlast.name.trans h.name, hlast.implicit.trans h.implicit,
    fun kind => (h.resources kind).trans (hlast.resources kind), h.catalogs.trans hlast.catalogs⟩

/-- A later state of a tree: every node continues at its path. -/
def Grows (tree later : Catalog) : Prop :=
  ∀ path node, tree.descend? path = some node →
    ∃ kept, later.descend? path = some kept ∧ Continues node kept

theorem Grows.refl (tree : Catalog) : Grows tree tree :=
  fun _ node hnode => ⟨node, hnode, .refl node⟩

theorem Grows.trans {last : Catalog} (h : Grows tree later) (hlast : Grows later last) :
    Grows tree last := by
  intro path node hnode
  rcases h path node hnode with ⟨kept, hkept, hcontinues⟩
  rcases hlast path kept hkept with ⟨ending, hending, hagain⟩
  exact ⟨ending, hending, hcontinues.trans hagain⟩

theorem Grows.stored? (h : Grows tree later) {key : String} {value : Resource kind}
    (hvalue : tree.stored? kind path key = some value) :
    later.stored? kind path key = some value := by
  unfold Catalog.stored? nodeAt at hvalue ⊢
  cases hnode : tree.descend? path with
  | none =>
    rw [hnode] at hvalue
    cases kind <;> cases hvalue
  | some node =>
    rcases h path node hnode with ⟨kept, hkept, hcontinues⟩
    rcases hcontinues.resources kind with ⟨more, hmore⟩
    rw [hnode, Option.getD_some] at hvalue
    rw [hkept, Option.getD_some, ← hmore, List.lookup_append, hvalue, Option.some_or]

theorem continues_store {resource : Resource kind} {name : String}
    (hfree : (node.resources kind).get? (resource.storageKey kind name) = none) :
    Continues node (node.store kind resource name) where
  name := by cases kind <;> rfl
  implicit := (local_store kind resource name).implicit node
  catalogs := by
    simp only [(local_store kind resource name).catalogs, List.prefix_refl]
  resources other := by
    by_cases hkind : other = kind
    · subst hkind
      rw [resources_store, Namespace.insert, Namespace.erase_of_get?_eq_none hfree]
      exact List.prefix_append _ _
    · simp only [store, resources_withResources_of_ne hkind, List.prefix_refl]

theorem continues_enterOrCreate (segment : String) (change : Catalog → Catalog)
    (node : Catalog) : Continues node (node.enterOrCreate segment change) where
  name := by
    unfold enterOrCreate
    split <;> rfl
  implicit := implicit_enterOrCreate segment change node
  resources kind := by
    simp only [resources_enterOrCreate, List.prefix_refl]
  catalogs := by
    unfold enterOrCreate
    split
    · simp only [Namespace.keys_replace, List.prefix_refl]
    · rename_i hfree
      simp only [Namespace.keys, Namespace.insert, Namespace.erase_of_get?_eq_none hfree,
        List.map_append]
      exact List.prefix_append _ _

theorem grows_updateOrCreate {change : Catalog → Catalog} (hlocal : Local change)
    (h : ∀ node, catalog.descend? path = some node → Continues node (change node)) :
    Grows catalog (catalog.updateOrCreate change path) := by
  induction path generalizing catalog with
  | nil =>
    intro other node hnode
    cases other with
    | nil =>
      cases hnode
      exact ⟨_, rfl, h catalog rfl⟩
    | cons written other =>
      rcases descend?_cons_eq_some_iff.mp hnode with ⟨sub, hsub, hbelow⟩
      refine ⟨node, descend?_cons_eq_some_iff.mpr ⟨sub, ?_, hbelow⟩, .refl node⟩
      exact (hlocal.subCatalog? catalog written).trans hsub
  | cons segment path ih =>
    intro other node hnode
    rw [updateOrCreate_cons]
    cases other with
    | nil =>
      cases hnode
      exact ⟨_, rfl, continues_enterOrCreate segment _ catalog⟩
    | cons written other =>
      rcases descend?_cons_eq_some_iff.mp hnode with ⟨sub, hsub, hbelow⟩
      simp only [descend?_cons_eq_some_iff]
      by_cases hfold : Name.fold written = Name.fold segment
      · -- the node is below the sub-catalog that is entered, so it was there before
        rw [subCatalog?_congr hfold] at hsub ⊢
        have hgrows := ih fun node hnode =>
          h node (descend?_cons_eq_some_iff.mpr ⟨sub, hsub, hnode⟩)
        rcases hgrows other node hbelow with ⟨kept, hkept, hcontinues⟩
        refine ⟨kept, ⟨_, subCatalog?_enterOrCreate_self segment _ catalog, ?_⟩, hcontinues⟩
        rw [hsub, Option.getD_some]
        exact hkept
      · rw [subCatalog?_enterOrCreate_of_ne hfold]
        exact ⟨node, ⟨sub, hsub, hbelow⟩, .refl node⟩

theorem grows_perform {registration : Registration}
    (hfree : catalog.occupant? registration.kind registration.resource registration.place = none) :
    Grows catalog (catalog.perform registration) := by
  rw [perform_eq]
  refine grows_updateOrCreate (local_store _ _ _) fun node hnode => continues_store ?_
  unfold occupant? at hfree
  rw [hnode] at hfree
  exact hfree

theorem Vacant.grows {registrations : List Registration} (h : Vacant registrations catalog) :
    Grows catalog (registrations.foldl perform catalog) := by
  induction registrations generalizing catalog with
  | nil => exact .refl catalog
  | cons registration rest ih => exact (grows_perform h.of_cons.1).trans (ih h.of_cons.2)

/-! ## One attempt -/

variable {attempt winner loser : Attempt} {changed : Catalog} {reply : Reply}

theorem run_eq_ok_iff (hmode : attempt.mode ≠ .createOrReplace) :
    attempt.run catalog = .ok (changed, reply) ↔
      attempt.request.Valid ∧
        ((catalog.existing? attempt.nested attempt.request = none ∧
            (attempt.request.registrations attempt.nested).foldl perform catalog = changed ∧
            reply = .stored attempt.request.kind attempt.request.resource) ∨
          ∃ stored, catalog.existing? attempt.nested attempt.request = some stored ∧
            attempt.mode = .createIfNotExists ∧ catalog = changed ∧
            reply = .stored attempt.request.kind stored) := by
  show (catalog.create attempt.nested attempt.mode attempt.request.kind attempt.request.name
    attempt.request.resource).map _ = _ ↔ _
  rw [map_eq_ok_iff]
  constructor
  · rintro ⟨⟨created, stored⟩, hcreate, heq⟩
    cases heq
    rcases create_request_eq_ok_iff.mp hcreate with
      ⟨hvalid, ⟨hkeeps, hfound, rfl⟩ | ⟨hfree | hreplaces, rfl, rfl⟩⟩
    · exact ⟨hvalid, Or.inr ⟨stored, hfound, hkeeps, rfl, rfl⟩⟩
    · exact ⟨hvalid, Or.inl ⟨hfree, rfl, rfl⟩⟩
    · exact absurd hreplaces hmode
  · rintro ⟨hvalid, ⟨hfree, rfl, rfl⟩ | ⟨stored, hfound, hkeeps, rfl, rfl⟩⟩
    · exact ⟨(_, _), create_request_eq_ok_iff.mpr
        ⟨hvalid, Or.inr ⟨Or.inl hfree, rfl, rfl⟩⟩, rfl⟩
    · exact ⟨(_, _), create_request_eq_ok_iff.mpr
        ⟨hvalid, Or.inl ⟨hkeeps, hfound, rfl⟩⟩, rfl⟩

theorem run_eq_error_of_existing (hmode : attempt.mode = .createDefault)
    (hvalid : attempt.request.Valid)
    (hfound : (catalog.existing? attempt.nested attempt.request).isSome = true) :
    attempt.run catalog =
      .error (.alreadyExists (.resource attempt.request.kind) attempt.request.name) := by
  rcases Option.isSome_iff_exists.mp hfound with ⟨stored, hfound⟩
  unfold existing? at hfound
  show (catalog.create attempt.nested attempt.mode attempt.request.kind attempt.request.name
    attempt.request.resource).map _ = _
  simp only [create, hmode, ofName_eq_ok_iff.mpr ⟨hvalid.1, rfl⟩, hvalid.2, bind, Except.bind, hfound,
    Except.map]

/-- What is left after an attempt. -/
def attempted (catalog : Catalog) (attempt : Attempt) : Catalog :=
  catalog.after attempt.operation

theorem attempted_of_ok (h : attempt.run catalog = .ok (changed, reply)) :
    catalog.attempted attempt = changed := by
  unfold attempted after
  rw [show attempt.operation.2.run attempt.operation.1 catalog = _ from h]

theorem attempted_of_error {error : CatalogError} (h : attempt.run catalog = .error error) :
    catalog.attempted attempt = catalog := by
  unfold attempted after
  rw [show attempt.operation.2.run attempt.operation.1 catalog = _ from h]

-- The catalog is changed by the attempts that find all of their places free, and by no others.
theorem attempted_eq_or (hmode : attempt.mode ≠ .createOrReplace) (catalog : Catalog) :
    catalog.attempted attempt = catalog ∨
      catalog.existing? attempt.nested attempt.request = none ∧
        catalog.attempted attempt =
          (attempt.request.registrations attempt.nested).foldl perform catalog := by
  cases hrun : attempt.run catalog with
  | error error => exact Or.inl (attempted_of_error hrun)
  | ok result =>
    cases result with | mk changed reply
    rw [attempted_of_ok hrun]
    rcases (run_eq_ok_iff hmode).mp hrun with
      ⟨-, ⟨hfree, hchanged, -⟩ | ⟨stored, -, -, hkept, -⟩⟩
    · exact Or.inr ⟨hfree, hchanged.symm⟩
    · exact Or.inl hkept.symm

theorem grows_attempted (hmode : attempt.mode ≠ .createOrReplace) (catalog : Catalog) :
    Grows catalog (catalog.attempted attempt) := by
  rcases attempted_eq_or hmode catalog with hkept | ⟨hfree, hstored⟩
  · rw [hkept]
    exact .refl catalog
  · rw [hstored]
    exact (existing?_eq_none_iff.mp hfree).grows

theorem grows_foldl_attempted {attempts : List Attempt}
    (hmodes : ∀ attempt ∈ attempts, attempt.mode ≠ .createOrReplace) (catalog : Catalog) :
    Grows catalog (attempts.foldl attempted catalog) := by
  induction attempts generalizing catalog with
  | nil => exact .refl catalog
  | cons attempt rest ih =>
    rw [List.forall_mem_cons] at hmodes
    exact (grows_attempted hmodes.1 catalog).trans (ih hmodes.2 _)

/-! ## The key at the root -/

theorem existing?_of_stored? {nested : Bool} {request : NamedResource}
    {value : Resource request.kind}
    (h : catalog.stored? request.kind [] request.slot.key = some value) :
    catalog.existing? nested request = some value := by
  rcases Place.exists_splits_chain nested request.name with ⟨rest, hsplits⟩
  have hfirst : catalog.occupant? request.kind request.resource ⟨[], request.name⟩ = some value := by
    rw [occupant?_eq_stored?]
    exact h
  rw [existing?, hsplits, List.findSome?_cons, hfirst]

theorem stored?_foldl_registrations (nested : Bool) {request : NamedResource}
    (hfree : catalog.existing? nested request = none) :
    ((request.registrations nested).foldl perform catalog).stored? request.kind [] request.slot.key =
      some request.resource := by
  rw [(existing?_eq_none_iff.mp hfree).stored?_eq_some_iff]
  exact Or.inr ⟨⟨request.kind, request.resource, ⟨[], request.name⟩⟩,
    List.mem_map_of_mem (Place.flat_mem_splits_chain nested request.name), _, rfl, rfl⟩

theorem stored?_attempted (hmode : attempt.mode ≠ .createOrReplace) (hvalid : attempt.request.Valid)
    (hfree : catalog.existing? attempt.nested attempt.request = none) :
    (catalog.attempted attempt).stored? attempt.request.kind [] attempt.request.slot.key =
      some attempt.request.resource := by
  have hrun := (run_eq_ok_iff hmode).mpr ⟨hvalid, Or.inl ⟨hfree, rfl, rfl⟩⟩
  rw [attempted_of_ok hrun]
  exact stored?_foldl_registrations attempt.nested hfree

/-- An attempt changes the catalog if and only if it stores its resource, which takes a valid name and
resource and no place of the name that is taken. -/
theorem attempted_ne_iff (hmode : attempt.mode ≠ .createOrReplace) :
    catalog.attempted attempt ≠ catalog ↔
      attempt.request.Valid ∧ catalog.existing? attempt.nested attempt.request = none := by
  constructor
  · intro hstores
    cases hrun : attempt.run catalog with
    | error error => exact absurd (attempted_of_error hrun) hstores
    | ok result =>
      cases result with | mk changed reply
      rcases (run_eq_ok_iff hmode).mp hrun with ⟨hvalid, ⟨hfree, -, -⟩ | ⟨stored, -, -, rfl, -⟩⟩
      · exact ⟨hvalid, hfree⟩
      · exact absurd (attempted_of_ok hrun) hstores
  · rintro ⟨hvalid, hfree⟩ hkept
    -- what is stored would have been there before, so that its place was taken
    have hstored := stored?_attempted hmode hvalid hfree
    rw [hkept] at hstored
    rw [existing?_of_stored? hstored] at hfree
    cases hfree

theorem existing?_of_slot_eq (nested : Bool) {request other : NamedResource}
    (hslot : request.slot = other.slot)
    (h : catalog.stored? request.kind [] request.slot.key = some request.resource) :
    ∃ stored, catalog.existing? nested other = some stored ∧
      Reply.stored other.kind stored = .stored request.kind request.resource := by
  cases request with | mk kind name resource
  cases other with | mk another written replacement
  obtain rfl : kind = another := congrArg Slot.kind hslot
  have hkey : _ = (NamedResource.mk kind written replacement).slot.key := congrArg Slot.key hslot
  rw [hkey] at h
  exact ⟨resource, existing?_of_stored? h, rfl⟩

/-! ## Runs of attempts -/

/-- **One winner, and nothing is lost.**  However the creates of several clients follow each other, if
none of them replaces then everything in the catalog stays where it is.  Of the creates with one key
at most one stores its resource, and by `attempted_ne_iff` that is to say that it changes the catalog.
Those that come after it fail because the name exists, or they get the resource that is stored. -/
theorem first_attempt_wins {attempts : List Attempt}
    (hmodes : ∀ attempt ∈ attempts, attempt.mode ≠ .createOrReplace) (catalog : Catalog) :
    (∀ before between after, attempts = before ++ between ++ after →
      Grows (before.foldl attempted catalog) ((before ++ between).foldl attempted catalog)) ∧
    (∀ before winner between loser after,
      attempts = before ++ winner :: between ++ loser :: after →
      winner.request.slot = loser.request.slot →
      (before.foldl attempted catalog).attempted winner ≠ before.foldl attempted catalog →
      let reached := (before ++ winner :: between).foldl attempted catalog
      reached.attempted loser = reached ∧
        (loser.request.Valid →
          (loser.mode = .createDefault → loser.run reached =
            .error (.alreadyExists (.resource loser.request.kind) loser.request.name)) ∧
          (loser.mode = .createIfNotExists → loser.run reached =
            .ok (reached, .stored winner.request.kind winner.request.resource)))) := by
  constructor
  · rintro before between after rfl
    rw [List.foldl_append]
    refine grows_foldl_attempted (fun attempt hattempt => hmodes attempt ?_) _
    exact List.mem_append_left after (List.mem_append_right before hattempt)
  · rintro before winner between loser after rfl hslot hstores reached
    have hwinner := hmodes winner (by simp)
    have hloser := hmodes loser (by simp)
    obtain ⟨hsound, hvacant⟩ := (attempted_ne_iff hwinner).mp hstores
    have hstored := stored?_attempted hwinner hsound hvacant
    have hbetween : ∀ attempt ∈ between, attempt.mode ≠ .createOrReplace :=
      fun attempt hattempt => hmodes attempt (by simp [hattempt])
    have hgrows := grows_foldl_attempted hbetween
      ((before.foldl attempted catalog).attempted winner)
    have hreached : between.foldl attempted ((before.foldl attempted catalog).attempted winner) =
        reached := by
      rw [← List.foldl_cons, ← List.foldl_append]
    rw [hreached] at hgrows
    rcases existing?_of_slot_eq loser.nested hslot (hgrows.stored? hstored) with
      ⟨stored, hfound, hreply⟩
    refine ⟨?_, fun hvalid => ⟨fun hmode => ?_, fun hmode => ?_⟩⟩
    · rcases attempted_eq_or hloser reached with hkept | ⟨hfree, -⟩
      · exact hkept
      · rw [hfree] at hfound
        cases hfound
    · exact run_eq_error_of_existing hmode hvalid (by rw [hfound]; rfl)
    · exact (run_eq_ok_iff hloser).mpr
        ⟨hvalid, Or.inr ⟨stored, hfound, hmode, rfl, hreply.symm⟩⟩

-- The second client writes the name in capitals and without sub-catalogs.
theorem first_attempt_wins_two_spellings :
    (new "root").attempted ⟨true, .createDefault, ⟨.table, "a.t", Table.named "t" []⟩⟩ ≠ new "root" ∧
    Attempt.run ⟨false, .createIfNotExists, ⟨.table, "A.T", Table.named "T" []⟩⟩
        ((new "root").attempted ⟨true, .createDefault, ⟨.table, "a.t", Table.named "t" []⟩⟩) =
      .ok ((new "root").attempted ⟨true, .createDefault, ⟨.table, "a.t", Table.named "t" []⟩⟩,
        .stored .table (Table.named "t" [])) := by
  have hstores : (new "root").attempted ⟨true, .createDefault, ⟨.table, "a.t", Table.named "t" []⟩⟩ ≠
      new "root" := by
    intro heq
    have hkeys : ["a.t"] = [] := congrArg (fun catalog : Catalog => catalog.tables.keys) heq
    cases hkeys
  have hmodes : ∀ attempt ∈ [(⟨true, .createDefault, ⟨.table, "a.t", Table.named "t" []⟩⟩ : Attempt),
      ⟨false, .createIfNotExists, ⟨.table, "A.T", Table.named "T" []⟩⟩],
      attempt.mode ≠ .createOrReplace := by
    simp only [List.forall_mem_cons]
    exact ⟨by decide, by decide, by simp⟩
  have hslot : NamedResource.slot ⟨.table, "a.t", Table.named "t" []⟩ =
      NamedResource.slot ⟨.table, "A.T", Table.named "T" []⟩ := by
    decide +kernel
  have hvalid : NamedResource.Valid ⟨.table, "A.T", Table.named "T" []⟩ := ⟨by rfl, rfl⟩
  have hloser := (first_attempt_wins hmodes (new "root")).2 [] _ [] _ [] rfl hslot hstores
  exact ⟨hstores, (hloser.2 hvalid).2 rfl⟩

end Catalog

end SchemaCatalog
