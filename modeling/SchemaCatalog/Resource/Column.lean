import SchemaCatalog.SqlType.Basic

/-!
# Columns

A column has a name, which may be empty, and a type.
-/

namespace SchemaCatalog

/-- A named column of a table or of the output of a table-valued function. -/
structure Column where
  name : String
  type : SqlType
deriving DecidableEq

/-- The text of a column: its name, a space and its type. -/
def Column.display (column : Column) : String :=
  column.name ++ " " ++ column.type.display

/-- The text of a list of columns. -/
def Column.displayAll (columns : List Column) : String :=
  ", ".intercalate (columns.map Column.display)

end SchemaCatalog
