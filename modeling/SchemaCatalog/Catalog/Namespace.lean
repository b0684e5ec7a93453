import SchemaCatalog.Name.Fold

/-!
# Namespaces

A namespace holds values under folded names, in the order of their last insertion.  Inserting under a
key that is there moves the entry to the end.  The lemmas say what a lookup sees after each change.
-/

namespace SchemaCatalog

/-- Values under folded names, in order. -/
structure Namespace (α : Type) where
  entries : List (String × α)

namespace Namespace

variable {α : Type}

def empty : Namespace α := ⟨[]⟩

def isEmpty (space : Namespace α) : Bool :=
  space.entries.isEmpty

def size (space : Namespace α) : Nat :=
  space.entries.length

def keys (space : Namespace α) : List String :=
  space.entries.map (·.1)

/-- The value stored under a name. -/
def get? (space : Namespace α) (name : String) : Option α :=
  space.entries.lookup (Name.fold name)

def contains (space : Namespace α) (name : String) : Bool :=
  (space.get? name).isSome

/-- The first value whose key satisfies a condition. -/
def find? (space : Namespace α) (wanted : String → Bool) : Option α :=
  (space.entries.find? fun entry => wanted entry.1).map (·.2)

/-- The values whose keys satisfy a condition, in order. -/
def select (space : Namespace α) (wanted : String → Bool) : List α :=
  (space.entries.filter fun entry => wanted entry.1).map (·.2)

/-- Removes the entries whose keys satisfy a condition. -/
def removeWhere (space : Namespace α) (unwanted : String → Bool) : Namespace α :=
  ⟨space.entries.filter fun entry => !unwanted entry.1⟩

/-- Removes the entry of a name. -/
def erase (space : Namespace α) (name : String) : Namespace α :=
  space.removeWhere (· == Name.fold name)

/-- Stores a value under a name, as the last entry; an earlier value of that name is dropped. -/
def insert (space : Namespace α) (name : String) (value : α) : Namespace α :=
  ⟨(space.erase name).entries ++ [(Name.fold name, value)]⟩

/-- Puts a value in the place of the one stored under a name, where it stands. -/
def replace (space : Namespace α) (name : String) (value : α) : Namespace α :=
  ⟨space.entries.map fun entry =>
    if entry.1 == Name.fold name then (entry.1, value) else entry⟩

/-- The entries as text, keys between double quotes and values as `write` gives them. -/
def display (write : α → String) (space : Namespace α) : String :=
  "\x7b" ++ ", ".intercalate (space.entries.map fun entry =>
    "\"" ++ entry.1 ++ "\": " ++ write entry.2) ++ "\x7d"

/-! ## Lookups after changes -/

theorem lookup_cons_self (key : String) (value : α) (rest : List (String × α)) :
    ((key, value) :: rest).lookup key = some value :=
  List.lookup_cons_self

theorem lookup_cons_of_ne {key other : String} (hne : key ≠ other) (value : α)
    (rest : List (String × α)) : ((other, value) :: rest).lookup key = rest.lookup key := by
  have hbeq : (key == other) = false := by simpa using hne
  rw [List.lookup_cons, hbeq]

theorem lookup_filter (entries : List (String × α)) (keep : String → Bool) (key : String) :
    (entries.filter fun entry => keep entry.1).lookup key =
      if keep key then entries.lookup key else none := by
  induction entries with
  | nil => simp
  | cons entry rest ih =>
    rcases entry with ⟨k, value⟩
    rw [List.filter_cons]
    by_cases hk : key = k
    · subst hk
      by_cases hkeep : keep key = true
      · simp only [hkeep, if_true, lookup_cons_self]
      · rw [if_neg hkeep, ih, if_neg hkeep, if_neg hkeep]
    · by_cases hkeep : keep k = true
      · simp only [hkeep, if_true, lookup_cons_of_ne hk, ih]
      · rw [if_neg hkeep, ih, lookup_cons_of_ne hk]

/-- Removing by a condition on keys hides exactly the keys that satisfy it. -/
theorem get?_removeWhere (space : Namespace α) (unwanted : String → Bool) (name : String) :
    (space.removeWhere unwanted).get? name =
      if unwanted (Name.fold name) then none else space.get? name := by
  have h := lookup_filter space.entries (fun key => !unwanted key) (Name.fold name)
  by_cases hname : unwanted (Name.fold name) = true <;>
    simpa [get?, removeWhere, hname] using h

/-- Erasing hides the names with the same key and no others. -/
theorem get?_erase (space : Namespace α) (erased name : String) :
    (space.erase erased).get? name =
      if Name.fold name = Name.fold erased then none else space.get? name := by
  simp [erase, get?_removeWhere]

/-- After an insertion its key gives the new value, every other key what it gave before. -/
theorem get?_insert (space : Namespace α) (inserted name : String) (value : α) :
    (space.insert inserted value).get? name =
      if Name.fold name = Name.fold inserted then some value else space.get? name := by
  have herase := get?_erase space inserted name
  unfold get? at herase ⊢
  rw [insert, List.lookup_append, herase]
  by_cases hname : Name.fold name = Name.fold inserted
  · rw [if_pos hname, if_pos hname, hname, lookup_cons_self]
    rfl
  · rw [if_neg hname, if_neg hname, lookup_cons_of_ne hname]
    simp

/-- Replacing changes what a present key gives and leaves every other key alone. -/
theorem get?_replace (space : Namespace α) (replaced name : String) (value : α) :
    (space.replace replaced value).get? name =
      if Name.fold name = Name.fold replaced then (space.get? name).map fun _ => value
      else space.get? name := by
  unfold get? replace
  induction space.entries with
  | nil => simp
  | cons entry rest ih =>
    rcases entry with ⟨k, old⟩
    rw [List.map_cons]
    by_cases hname : Name.fold name = k
    · subst hname
      by_cases hreplaced : Name.fold name = Name.fold replaced
      · simp [hreplaced]
      · simp [hreplaced]
    · have hkey : (if k == Name.fold replaced then (k, value) else (k, old)) =
          (k, if k == Name.fold replaced then value else old) := by
        split <;> rfl
      simp only [hkey, lookup_cons_of_ne hname]
      exact ih

/-- Replacing keeps the keys and their order. -/
@[simp] theorem keys_replace (space : Namespace α) (name : String) (value : α) :
    (space.replace name value).keys = space.keys := by
  simp only [keys, replace, List.map_map]
  congr 1
  funext entry
  simp only [Function.comp_apply]
  split <;> rfl

end Namespace

end SchemaCatalog
