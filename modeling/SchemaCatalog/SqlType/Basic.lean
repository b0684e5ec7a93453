import SchemaCatalog.SqlType.Kind
import SchemaCatalog.Text.AsciiCase

/-!
# SQL types

A type is simple, an array of a type, or a struct with named fields in order.  Type parameters such
as the precision of a number are not part of a type.
-/

namespace SchemaCatalog

mutual

/-- The type of a column or of a field. -/
inductive SqlType where
  | simple (kind : TypeKind)
  | array (element : SqlType)
  | struct (fields : List StructField)

/-- A named field of a struct. -/
structure StructField where
  name : String
  type : SqlType

end

namespace SqlType

/-- Induction over types: a struct has what all its fields have. -/
theorem induct {motive : SqlType → Prop} (simple : ∀ kind, motive (simple kind))
    (array : ∀ element, motive element → motive (array element))
    (struct : ∀ fields, (∀ field ∈ fields, motive field.type) → motive (struct fields))
    (type : SqlType) : motive type :=
  SqlType.rec (motive_1 := motive) (motive_2 := fun field => motive field.type)
    (motive_3 := fun fields => ∀ field ∈ fields, motive field.type)
    simple array struct (fun _ _ h => h) (fun _ h => absurd h List.not_mem_nil)
    (fun _ _ hhead htail _ hmem => (List.mem_cons.mp hmem).elim (· ▸ hhead) (htail _)) type

mutual

/-- Types are equal if they have the same form with equal parts. -/
def decEq : (s t : SqlType) → Decidable (s = t)
  | simple k, simple l => if h : k = l then isTrue (by rw [h]) else isFalse (by simpa using h)
  | array s, array t =>
    match decEq s t with
    | isTrue h => isTrue (by rw [h])
    | isFalse h => isFalse (by simpa using h)
  | struct fs, struct gs =>
    match decEqFields fs gs with
    | isTrue h => isTrue (by rw [h])
    | isFalse h => isFalse (by simpa using h)
  | simple _, array _ => isFalse (by simp)
  | simple _, struct _ => isFalse (by simp)
  | array _, simple _ => isFalse (by simp)
  | array _, struct _ => isFalse (by simp)
  | struct _, simple _ => isFalse (by simp)
  | struct _, array _ => isFalse (by simp)
termination_by structural s => s

/-- Fields are equal if they have equal names and types in the same order. -/
def decEqFields : (fs gs : List StructField) → Decidable (fs = gs)
  | [], [] => isTrue rfl
  | [], _ :: _ => isFalse (by simp)
  | _ :: _, [] => isFalse (by simp)
  | ⟨n, s⟩ :: fs, ⟨m, t⟩ :: gs =>
    match decEq s t, decEqFields fs gs with
    | isTrue h, isTrue hs =>
      if hn : n = m then isTrue (by rw [h, hs, hn]) else isFalse (by simp [hn])
    | isFalse h, _ => isFalse (by simp [h])
    | _, isFalse hs => isFalse (by simp [hs])
termination_by structural fs => fs

end

instance : DecidableEq SqlType := decEq

mutual

/-- The text of a type: the canonical name, `ARRAY<T>`, or `STRUCT<a T, b U>` with the field names as
they are. -/
def display : SqlType → String
  | simple kind => kind.name
  | array element => "ARRAY<" ++ element.display ++ ">"
  | struct fields => "STRUCT<" ++ ", ".intercalate (displayFields fields) ++ ">"
termination_by structural t => t

/-- The text of each field: its name, a space and its type. -/
def displayFields : List StructField → List String
  | [] => []
  | ⟨name, type⟩ :: rest => (name ++ " " ++ type.display) :: displayFields rest
termination_by structural fields => fields

end

mutual

/-- How deeply a type nests; a simple type has depth one. -/
def depth : SqlType → Nat
  | simple _ => 1
  | array element => element.depth + 1
  | struct fields => fieldsDepth fields + 1
termination_by structural t => t

/-- The largest depth among fields, zero if there are none. -/
def fieldsDepth : List StructField → Nat
  | [] => 0
  | ⟨_, type⟩ :: rest => max type.depth (fieldsDepth rest)
termination_by structural fields => fields

end

theorem depth_pos (type : SqlType) : 0 < type.depth := by
  cases type <;> simp [depth]

theorem fieldsDepth_append (fields more : List StructField) :
    fieldsDepth (fields ++ more) = max (fieldsDepth fields) (fieldsDepth more) := by
  induction fields with
  | nil => simp [fieldsDepth]
  | cons field fields ih =>
    rcases field with ⟨name, type⟩
    rw [List.cons_append, fieldsDepth, fieldsDepth, ih, Nat.max_assoc]

def isSimple : SqlType → Bool
  | simple _ => true
  | _ => false

def isArray : SqlType → Bool
  | array _ => true
  | _ => false

def isStruct : SqlType → Bool
  | struct _ => true
  | _ => false

/-- The kind of a simple type. -/
def kind? : SqlType → Option TypeKind
  | simple kind => some kind
  | _ => none

/-- The element type of an array. -/
def element? : SqlType → Option SqlType
  | array element => some element
  | _ => none

/-- The fields of a struct; other types have none. -/
def fields : SqlType → List StructField
  | struct fields => fields
  | _ => []

/-- The first field with this name, up to ASCII case. -/
def field? (type : SqlType) (name : String) : Option StructField :=
  type.fields.find? fun field => Text.equalIgnoringAsciiCase field.name name

end SqlType

instance : DecidableEq StructField := fun f g =>
  if hn : f.name = g.name then
    if ht : f.type = g.type then isTrue (by cases f; cases g; simp_all)
    else isFalse (by rintro rfl; exact ht rfl)
  else isFalse (by rintro rfl; exact hn rfl)

end SchemaCatalog
