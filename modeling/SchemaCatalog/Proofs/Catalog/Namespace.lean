import SchemaCatalog.Catalog.Namespace

/-!
# Changes of a namespace that cancel or absorb each other

Of two changes under one name the later one counts, and a change of a namespace in which the name is
free is undone by its counterpart, down to the order of the entries.
-/

namespace SchemaCatalog.Namespace

variable {α : Type}

theorem ext_entries {space other : Namespace α} (h : space.entries = other.entries) :
    space = other := by
  cases space
  cases other
  exact congrArg Namespace.mk h

theorem lookup_eq_none_iff_notMem_keys {entries : List (String × α)} {key : String} :
    entries.lookup key = none ↔ key ∉ entries.map (·.1) := by
  rw [List.lookup_eq_none_iff, List.mem_map]
  constructor
  · rintro h ⟨entry, hentry, rfl⟩
    have hne := h entry hentry
    simp at hne
  · intro h entry hentry
    have hne : key ≠ entry.1 := fun heq => h ⟨entry, hentry, heq.symm⟩
    simpa using hne

theorem get?_eq_none_iff {space : Namespace α} {name : String} :
    space.get? name = none ↔ Name.fold name ∉ space.keys :=
  lookup_eq_none_iff_notMem_keys

theorem get?_eq_some_of_mem {space : Namespace α} (hnodup : space.keys.Nodup) {name : String}
    {value : α} (hmem : (Name.fold name, value) ∈ space.entries) :
    space.get? name = some value := by
  cases space with | mk entries
  change (entries.map (·.1)).Nodup at hnodup
  show entries.lookup (Name.fold name) = some value
  change (Name.fold name, value) ∈ entries at hmem
  induction entries with
  | nil => cases hmem
  | cons entry rest ih =>
    rw [List.map_cons, List.nodup_cons] at hnodup
    rcases List.mem_cons.mp hmem with rfl | hrest
    · exact lookup_cons_self _ _ _
    · have hne : Name.fold name ≠ entry.1 := by
        intro heq
        exact hnodup.1 (heq ▸ List.mem_map_of_mem hrest)
      rw [lookup_cons_of_ne hne]
      exact ih hnodup.2 hrest

theorem mem_entries_of_get?_eq_some {space : Namespace α} {name : String} {value : α}
    (h : space.get? name = some value) : (Name.fold name, value) ∈ space.entries := by
  rcases List.lookup_eq_some_iff.mp h with ⟨front, back, hentries, -⟩
  rw [hentries]
  exact List.mem_append_right front List.mem_cons_self

theorem lookup_insert (space : Namespace α) (name : String) (value : α) (key : String) :
    (space.insert name value).entries.lookup key =
      if key = Name.fold name then some value else space.entries.lookup key := by
  have herase := lookup_filter space.entries (fun stored => !(stored == Name.fold name)) key
  show (List.filter _ space.entries ++ [(Name.fold name, value)]).lookup key = _
  rw [List.lookup_append, herase]
  by_cases hkey : key = Name.fold name
  · simp [hkey]
  · simp [hkey, lookup_cons_of_ne hkey]

/-! ## The first of several keys -/

theorem find?_insert (space : Namespace α) (name : String) (value : α) (wanted : String → Bool) :
    (space.insert name value).find? wanted =
      ((space.erase name).find? wanted).or
        (if wanted (Name.fold name) then some value else none) := by
  unfold find? insert
  rw [List.find?_append, Option.map_or, List.find?_singleton]
  split <;> rfl

theorem isSome_find?_iff {space : Namespace α} {wanted : String → Bool} :
    (space.find? wanted).isSome = true ↔
      ∃ key, wanted key = true ∧ (space.entries.lookup key).isSome = true := by
  have hkey : ∀ key, (space.entries.lookup key).isSome = true ↔ key ∈ space.entries.map (·.1) := by
    intro key
    rw [← Decidable.not_iff_not, Option.not_isSome_iff_eq_none, lookup_eq_none_iff_notMem_keys]
  simp only [find?, Option.isSome_map, List.find?_isSome, hkey, List.mem_map]
  constructor
  · rintro ⟨entry, hmem, hwanted⟩
    exact ⟨entry.1, hwanted, entry, hmem, rfl⟩
  · rintro ⟨_, hwanted, entry, hmem, rfl⟩
    exact ⟨entry, hmem, hwanted⟩

theorem find?_removeWhere (space : Namespace α) (unwanted : String → Bool) :
    (space.removeWhere unwanted).find? unwanted = none := by
  unfold find? removeWhere
  rw [Option.map_eq_none_iff, List.find?_eq_none]
  intro entry hentry
  simpa using (List.mem_filter.mp hentry).2

-- What is removed and what is looked for are different keys.
theorem find?_removeWhere_of_disjoint {wanted unwanted : String → Bool}
    (h : ∀ key, wanted key = true → unwanted key = false) (space : Namespace α) :
    (space.removeWhere unwanted).find? wanted = space.find? wanted := by
  have hboth : ∀ entry : String × α,
      decide ((!unwanted entry.1) = true ∧ wanted entry.1 = true) = wanted entry.1 := by
    intro entry
    cases hwanted : wanted entry.1 with
    | false => simp
    | true => simp [h _ hwanted]
  rw [find?, removeWhere, List.find?_filter, funext hboth]
  rfl

/-! ## The later change counts -/

theorem replace_replace (space : Namespace α) (name : String) (first second : α) :
    (space.replace name first).replace name second = space.replace name second := by
  apply ext_entries
  simp only [replace, List.map_map]
  apply List.map_congr_left
  intro entry _
  simp only [Function.comp_apply]
  by_cases hkey : (entry.1 == Name.fold name) = true
  · simp only [hkey, if_true]
  · simp only [hkey, Bool.false_eq_true, if_false]

theorem erase_replace (space : Namespace α) (name : String) (value : α) :
    (space.replace name value).erase name = space.erase name := by
  apply ext_entries
  simp only [replace, erase, removeWhere]
  induction space.entries with
  | nil => rfl
  | cons entry rest ih =>
    rw [List.map_cons, List.filter_cons, List.filter_cons, ih]
    by_cases hkey : (entry.1 == Name.fold name) = true
    · simp only [hkey, if_true, Bool.not_true, Bool.false_eq_true, if_false]
    · simp only [hkey, Bool.false_eq_true, if_false]

theorem erase_erase (space : Namespace α) (name : String) :
    (space.erase name).erase name = space.erase name := by
  apply ext_entries
  simp only [erase, removeWhere, List.filter_filter, Bool.and_self]

theorem replace_erase (space : Namespace α) (name : String) (value : α) :
    (space.erase name).replace name value = space.erase name := by
  apply ext_entries
  simp only [replace, erase, removeWhere]
  refine (List.map_congr_left ?_).trans (List.map_id _)
  intro entry hentry
  have hkey : (entry.1 == Name.fold name) = false := by
    simpa using (List.mem_filter.mp hentry).2
  simp only [hkey, Bool.false_eq_true, if_false, id]

theorem replace_insert (space : Namespace α) (name : String) (first second : α) :
    (space.insert name first).replace name second = space.insert name second := by
  have hentries := congrArg entries (replace_erase space name second)
  apply ext_entries
  simp only [insert, replace, List.map_append, List.map_cons, List.map_nil, beq_self_eq_true,
    if_true] at hentries ⊢
  rw [hentries]

theorem erase_insert (space : Namespace α) (name : String) (value : α) :
    (space.insert name value).erase name = space.erase name := by
  have hentries := congrArg entries (erase_erase space name)
  apply ext_entries
  simp only [insert, erase, removeWhere, List.filter_append, List.filter_cons, List.filter_nil,
    beq_self_eq_true, Bool.not_true, Bool.false_eq_true, if_false, List.append_nil] at hentries ⊢
  exact hentries

theorem insert_insert_insert (space : Namespace α) (name other : String) (first second third : α) :
    ((space.insert name first).insert other second).insert name third =
      (space.insert other second).insert name third := by
  have herase : ((space.insert name first).insert other second).erase name =
      (space.insert other second).erase name := by
    apply ext_entries
    simp only [insert, erase, removeWhere, List.filter_append, List.filter_filter]
    -- the first entry of the name is dropped, by the second insertion or by this removal
    simp [Bool.and_comm]
  apply ext_entries
  rw [insert, herase]
  rfl

/-! ## Names with the same key -/

section SameKey

variable {name other : String}

theorem get?_congr (h : Name.fold name = Name.fold other) (space : Namespace α) :
    space.get? name = space.get? other := by
  rw [get?, get?, h]

theorem erase_congr (h : Name.fold name = Name.fold other) (space : Namespace α) :
    space.erase name = space.erase other := by
  rw [erase, erase, h]

theorem insert_congr (h : Name.fold name = Name.fold other) (space : Namespace α) (value : α) :
    space.insert name value = space.insert other value := by
  rw [insert, insert, erase_congr h, h]

theorem replace_congr (h : Name.fold name = Name.fold other) (space : Namespace α) (value : α) :
    space.replace name value = space.replace other value := by
  rw [replace, replace, h]

end SameKey

/-! ## Changing the values -/

/-- Changes every value where it stands. -/
def map {β : Type} (f : α → β) (space : Namespace α) : Namespace β :=
  ⟨space.entries.map fun entry => (entry.1, f entry.2)⟩

section Map

variable {β : Type} {f : α → β}

theorem get?_map (space : Namespace α) (name : String) :
    (space.map f).get? name = (space.get? name).map f := by
  unfold get? map
  induction space.entries with
  | nil => rfl
  | cons entry rest ih =>
    rw [List.map_cons, List.lookup_cons, List.lookup_cons, ih]
    cases Name.fold name == entry.1 <;> rfl

theorem erase_map (space : Namespace α) (name : String) :
    (space.map f).erase name = (space.erase name).map f := by
  apply ext_entries
  simp only [erase, removeWhere, map, List.filter_map]
  rfl

theorem insert_map (space : Namespace α) (name : String) (value : α) :
    (space.map f).insert name (f value) = (space.insert name value).map f := by
  apply ext_entries
  rw [insert, erase_map, insert, map, map, List.map_append]
  rfl

theorem replace_map (space : Namespace α) (name : String) (value : α) :
    (space.map f).replace name (f value) = (space.replace name value).map f := by
  apply ext_entries
  simp only [replace, map, List.map_map]
  apply List.map_congr_left
  intro entry _
  simp only [Function.comp_apply]
  split <;> rfl

end Map

/-! ## A free name -/

theorem erase_of_get?_eq_none {space : Namespace α} {name : String}
    (h : space.get? name = none) : space.erase name = space := by
  rw [get?_eq_none_iff] at h
  apply ext_entries
  simp only [erase, removeWhere]
  rw [List.filter_eq_self]
  intro entry hentry
  have hne : entry.1 ≠ Name.fold name := by
    intro heq
    exact h (heq ▸ List.mem_map_of_mem hentry)
  simpa using hne

-- Putting back the value that is there changes nothing.
theorem replace_self {space : Namespace α} (hnodup : space.keys.Nodup) {name : String} {value : α}
    (h : space.get? name = some value) : space.replace name value = space := by
  apply ext_entries
  simp only [replace]
  refine (List.map_congr_left ?_).trans (List.map_id _)
  intro entry hentry
  by_cases hkey : entry.1 = Name.fold name
  · have hsome : space.get? name = some entry.2 :=
      get?_eq_some_of_mem hnodup (by rw [← hkey]; exact hentry)
    rw [h] at hsome
    cases hsome
    rw [if_pos (by simp [hkey])]
    rfl
  · rw [if_neg (by simpa using hkey)]
    rfl

/-! ## Distinct keys -/

theorem keys_erase (space : Namespace α) (name : String) :
    (space.erase name).keys = space.keys.filter (· != Name.fold name) := by
  simp [erase, removeWhere, keys, List.filter_map, Function.comp_def, bne]

theorem nodup_keys_empty : (empty : Namespace α).keys.Nodup := List.nodup_nil

theorem nodup_keys_removeWhere {space : Namespace α} (h : space.keys.Nodup)
    (unwanted : String → Bool) : (space.removeWhere unwanted).keys.Nodup :=
  h.sublist (List.filter_sublist.map _)

theorem nodup_keys_insert {space : Namespace α} (h : space.keys.Nodup) (name : String)
    (value : α) : (space.insert name value).keys.Nodup := by
  have hfree : Name.fold name ∉ (space.erase name).keys := by
    rw [← get?_eq_none_iff, get?_erase, if_pos rfl]
  have hkeys : (space.insert name value).keys = (space.erase name).keys ++ [Name.fold name] := by
    simp [insert, keys]
  rw [hkeys, List.nodup_append]
  refine ⟨nodup_keys_removeWhere h _, by simp, ?_⟩
  intro key hkey other hother heq
  rw [List.mem_singleton] at hother
  exact hfree (hother ▸ heq ▸ hkey)

theorem nodup_keys_replace {space : Namespace α} (h : space.keys.Nodup) (name : String)
    (value : α) : (space.replace name value).keys.Nodup := by
  rw [keys_replace]
  exact h

end SchemaCatalog.Namespace
