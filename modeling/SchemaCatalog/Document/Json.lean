/-!
# Documents

Types, resources and definitions are exchanged as JSON documents.  A record is an object.  When it is
read, keys that it does not know are passed over, a key that it wants must be there, and a value of
the wrong form is refused.  The list of its values in the order of the keys is read as well.
-/

namespace SchemaCatalog

/-- A JSON value.  A number is a decimal fraction: its digits, and how many of them come after the
point. -/
inductive Json where
  | null
  | bool (value : Bool)
  | number (digits : Int) (places : Nat)
  | string (value : String)
  | array (items : List Json)
  | object (entries : List (String × Json))
deriving Inhabited

namespace Json

def string? : Json → Option String
  | string value => some value
  | _ => none

def bool? : Json → Option Bool
  | bool value => some value
  | _ => none

/-- The label of a form that has no parts: a plain text, or the one key of an object, with null under
it. -/
def label? : Json → Option String
  | string label => some label
  | object [(label, null)] => some label
  | _ => none

/-- Reads every item of a list. -/
def list? {α : Type} (read : Json → Option α) : Json → Option (List α)
  | array items => items.mapM read
  | _ => none

/-- Writes a list. -/
def list {α : Type} (write : α → Json) (items : List α) : Json :=
  array (items.map write)

/-- The entries of a record with these keys.  An object must not repeat any of them; a list of values
may end early. -/
def entries? (keys : List String) : Json → Option (List (String × Json))
  | object entries =>
    if ((entries.map (·.1)).filter (keys.contains ·)).Nodup then some entries else none
  | array items => if items.length ≤ keys.length then some (keys.zip items) else none
  | _ => none

/-- Reads the value of a key that must be there. -/
def required {α : Type} (key : String) (read : Json → Option α) (entries : List (String × Json)) :
    Option α :=
  (entries.lookup key).bind read

/-- Reads the value of a key that may be missing. -/
def optional {α : Type} (key : String) (missing : α) (read : Json → Option α)
    (entries : List (String × Json)) : Option α :=
  match entries.lookup key with
  | some value => read value
  | none => some missing

/-! ## Reading what was written -/

section Reading

variable {α : Type} {key other : String} {value : Json} {entries : List (String × Json)}

@[simp] theorem string?_string (text : String) : string? (string text) = some text := rfl

@[simp] theorem bool?_bool (value : Bool) : bool? (bool value) = some value := rfl

theorem list?_list {read : Json → Option α} {write : α → Json}
    (h : ∀ a, read (write a) = some a) (items : List α) :
    list? read (list write items) = some items := by
  unfold list? list
  induction items with
  | nil => rfl
  | cons a rest ih => simp_all

/-- An object with just the known keys is read as it stands. -/
@[simp] theorem entries?_object {keys : List String} (hkeys : entries.map (·.1) = keys)
    (hnodup : keys.Nodup) : entries? keys (object entries) = some entries := by
  rw [entries?, hkeys]
  exact if_pos (List.Pairwise.filter _ hnodup)

@[simp] theorem required_cons_self (read : Json → Option α) :
    required key read ((key, value) :: entries) = read value := by
  rw [required, List.lookup_cons_self, Option.bind_some]

@[simp] theorem required_cons_of_ne (hne : key ≠ other) (read : Json → Option α) :
    required key read ((other, value) :: entries) = required key read entries := by
  have hbeq : (key == other) = false := by simpa using hne
  rw [required, List.lookup_cons, hbeq, required]

@[simp] theorem optional_cons_self (missing : α) (read : Json → Option α) :
    optional key missing read ((key, value) :: entries) = read value := by
  rw [optional, List.lookup_cons_self]

@[simp] theorem optional_cons_of_ne (hne : key ≠ other) (missing : α) (read : Json → Option α) :
    optional key missing read ((other, value) :: entries) = optional key missing read entries := by
  have hbeq : (key == other) = false := by simpa using hne
  rw [optional, List.lookup_cons, hbeq, optional]

end Reading

end Json

end SchemaCatalog
