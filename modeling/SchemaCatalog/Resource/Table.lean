import SchemaCatalog.Resource.Column

/-!
# Tables

A table has a short name, a full name and columns in order.  Columns are looked up without regard to
ASCII case, and the first of that name counts.
-/

namespace SchemaCatalog

structure Table where
  name : String
  fullName : String
  columns : List Column
deriving DecidableEq

namespace Table

/-- A table whose full name is its name. -/
def named (name : String) (columns : List Column) : Table :=
  ⟨name, name, columns⟩

/-- The position of the first column of this name. -/
def columnIndex? (table : Table) (name : String) : Option Nat :=
  table.columns.findIdx? fun column => Text.equalIgnoringAsciiCase column.name name

/-- The first column of this name. -/
def column? (table : Table) (name : String) : Option Column :=
  table.columns.find? fun column => Text.equalIgnoringAsciiCase column.name name

def hasColumn (table : Table) (name : String) : Bool :=
  (table.columnIndex? name).isSome

/-- The schema as a statement, one column to a line. -/
def schemaText (table : Table) : String :=
  "CREATE TABLE " ++ table.fullName ++ " (\n" ++
    ",\n".intercalate (table.columns.map fun column => "  " ++ column.display) ++ "\n);"

end Table

end SchemaCatalog
