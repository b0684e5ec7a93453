import SchemaCatalog.Proofs.Catalog.Namespace

/-!
# The part of a namespace below a prefix

Restricting a namespace keeps the entries whose keys have a prefix, in order, and takes the prefix
off.  What is asked of the restriction can be asked of the whole namespace, and a change of the whole
namespace is a change of the restriction or none.
-/

namespace SchemaCatalog.Namespace

variable {α : Type}

/-- An entry under what is left of its key, if the key can be stripped. -/
def stripEntry (strip : String → Option String) (entry : String × α) : Option (String × α) :=
  (strip entry.1).map (·, entry.2)

/-- The entries whose keys can be stripped, under what is left of their keys. -/
def restrict (strip : String → Option String) (space : Namespace α) : Namespace α :=
  ⟨space.entries.filterMap (stripEntry strip)⟩

/-- A condition on whole keys that holds only of keys that can be stripped, and of these if another
condition holds of what is left. -/
structure Carries (strip : String → Option String) (whole left : String → Bool) : Prop where
  agree : ∀ key rest, strip key = some rest → whole key = left rest
  inside : ∀ key, whole key = true → (strip key).isSome = true

/-- A condition on whole keys that holds of none that can be stripped. -/
def Misses (strip : String → Option String) (whole : String → Bool) : Prop :=
  ∀ key rest, strip key = some rest → whole key = false

variable {strip : String → Option String} {whole left : String → Bool}

theorem stripEntry_eq_none {entry : String × α} (h : strip entry.1 = none) :
    stripEntry strip entry = none := by
  rw [stripEntry, h]
  rfl

theorem stripEntry_eq_some {entry : String × α} {key : String} (h : strip entry.1 = some key) :
    stripEntry strip entry = some (key, entry.2) := by
  rw [stripEntry, h]
  rfl

theorem restrict_empty : (empty : Namespace α).restrict strip = empty := rfl

/-! ## Asking -/

theorem get?_eq_find? (space : Namespace α) (name : String) :
    space.get? name = space.find? (· == Name.fold name) := by
  unfold get? find?
  induction space.entries with
  | nil => rfl
  | cons entry rest ih =>
    rw [List.lookup_cons, List.find?_cons, BEq.comm]
    cases hkey : entry.1 == Name.fold name
    · simp only [hkey, ih]
    · simp only [hkey, Option.map_some]

theorem any_keys (space : Namespace α) (wanted : String → Bool) :
    space.keys.any wanted = (space.find? wanted).isSome := by
  rw [keys, List.any_map, find?, Option.isSome_map, List.isSome_find?]
  rfl

theorem find?_restrict (h : Carries strip whole left) (space : Namespace α) :
    (space.restrict strip).find? left = space.find? whole := by
  unfold find? restrict
  show ((space.entries.filterMap (stripEntry strip)).find? _).map _ = _
  induction space.entries with
  | nil => rfl
  | cons entry rest ih =>
    cases hstrip : strip entry.1 with
    | none =>
      have hout : whole entry.1 = false := by
        cases hwhole : whole entry.1 with
        | false => rfl
        | true =>
          have hinside := h.inside _ hwhole
          rw [hstrip] at hinside
          cases hinside
      simp only [List.filterMap_cons_none (stripEntry_eq_none hstrip), List.find?_cons, hout, ih]
    | some key =>
      have hagree : whole entry.1 = left key := h.agree _ _ hstrip
      cases hleft : left key with
      | false =>
        simp only [List.filterMap_cons_some (stripEntry_eq_some hstrip), List.find?_cons, hagree,
          hleft, ih]
      | true =>
        simp only [List.filterMap_cons_some (stripEntry_eq_some hstrip), List.find?_cons, hagree,
          hleft, Option.map_some]

/-! ## Changing -/

theorem restrict_removeWhere (hagree : ∀ key rest, strip key = some rest → whole key = left rest)
    (space : Namespace α) :
    (space.removeWhere whole).restrict strip = (space.restrict strip).removeWhere left := by
  apply ext_entries
  simp only [removeWhere, restrict]
  induction space.entries with
  | nil => rfl
  | cons entry rest ih =>
    cases hstrip : strip entry.1 with
    | none =>
      have hnone := stripEntry_eq_none hstrip
      rw [List.filterMap_cons_none hnone, List.filter_cons]
      split
      · rw [List.filterMap_cons_none hnone, ih]
      · exact ih
    | some key =>
      have hsome := stripEntry_eq_some hstrip
      rw [List.filterMap_cons_some hsome, List.filter_cons, List.filter_cons,
        hagree _ _ hstrip]
      split
      · rw [List.filterMap_cons_some hsome, ih]
      · exact ih

theorem removeWhere_false (space : Namespace α) :
    (space.removeWhere fun _ => false) = space := by
  apply ext_entries
  simp [removeWhere]

theorem restrict_removeWhere_of_misses (h : Misses strip whole) (space : Namespace α) :
    (space.removeWhere whole).restrict strip = space.restrict strip := by
  rw [restrict_removeWhere h, removeWhere_false]

theorem entries_restrict_append (entries others : List (String × α)) :
    (restrict strip ⟨entries ++ others⟩).entries =
      (restrict strip ⟨entries⟩).entries ++ others.filterMap (stripEntry strip) :=
  List.filterMap_append

theorem restrict_insert {name rest : String}
    (h : Carries strip (· == Name.fold name) (· == Name.fold rest)) (space : Namespace α)
    (value : α) :
    (space.insert name value).restrict strip = (space.restrict strip).insert rest value := by
  have hstrip : strip (Name.fold name) = some (Name.fold rest) := by
    have hinside := h.inside _ (beq_self_eq_true _)
    rcases Option.isSome_iff_exists.mp hinside with ⟨key, hkey⟩
    have hagree := h.agree _ _ hkey
    rw [beq_self_eq_true] at hagree
    rw [hkey, beq_iff_eq.mp hagree.symm]
  have herase := congrArg entries (restrict_removeWhere h.agree space)
  apply ext_entries
  rw [insert, entries_restrict_append, List.filterMap_cons_some (stripEntry_eq_some hstrip),
    List.filterMap_nil]
  exact congrArg (· ++ [(Name.fold rest, value)]) herase

theorem restrict_insert_of_misses {name : String} (h : Misses strip (· == Name.fold name))
    (space : Namespace α) (value : α) :
    (space.insert name value).restrict strip = space.restrict strip := by
  have hstrip : strip (Name.fold name) = none := by
    cases hkey : strip (Name.fold name) with
    | none => rfl
    | some key =>
      have hmiss : (Name.fold name == Name.fold name) = false := h _ _ hkey
      rw [beq_self_eq_true] at hmiss
      cases hmiss
  have herase := congrArg entries (restrict_removeWhere_of_misses h space)
  apply ext_entries
  rw [insert, entries_restrict_append, List.filterMap_cons_none (stripEntry_eq_none hstrip),
    List.filterMap_nil, List.append_nil]
  exact herase

end SchemaCatalog.Namespace
