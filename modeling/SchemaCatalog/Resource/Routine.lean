import SchemaCatalog.Name.Dotted
import SchemaCatalog.Name.Qualified
import SchemaCatalog.Resource.Column
import SchemaCatalog.Resource.Signature

/-!
# Functions, procedures and table-valued functions

Routines are named by a path of segments, written with full stops.  A function belongs to a group as
well: two functions of one name in different groups are different functions.
-/

namespace SchemaCatalog

/-- How a function is evaluated. -/
inductive FunctionMode where
  | scalar
  | aggregate
  | analytic
deriving DecidableEq, Repr

namespace FunctionMode

/-- The spelling in documents. -/
def label : FunctionMode → String
  | scalar => "Scalar"
  | aggregate => "Aggregate"
  | analytic => "Analytic"

def ofLabel? (text : String) : Option FunctionMode :=
  [scalar, aggregate, analytic].find? fun mode => mode.label == text

theorem ofLabel?_label (mode : FunctionMode) : ofLabel? mode.label = some mode := by
  cases mode <;> decide

end FunctionMode

/-- A scalar, aggregate or analytic function with its overloads. -/
structure SqlFunction where
  path : List String
  group : String
  mode : FunctionMode
  signatures : List Signature
deriving DecidableEq

namespace SqlFunction

/-- The group of user-defined functions that name no other. -/
def defaultGroup : String := "UDF"

def name (function : SqlFunction) : String :=
  Name.dotted function.path

/-- The name with its group, `group:name`. -/
def fullName (function : SqlFunction) : String :=
  Name.qualify function.group function.name

end SqlFunction

/-- A stored procedure. -/
structure Procedure where
  path : List String
  signature : Signature
deriving DecidableEq

def Procedure.name (procedure : Procedure) : String :=
  Name.dotted procedure.path

/-- The rows that a table-valued function gives. -/
structure OutputSchema where
  columns : List Column
  isValueTable : Bool
deriving DecidableEq

namespace OutputSchema

/-- Rows with named columns. -/
def ofColumns (columns : List Column) : OutputSchema :=
  ⟨columns, false⟩

/-- A value table: one column without a name. -/
def valueTable (type : SqlType) : OutputSchema :=
  ⟨[⟨"", type⟩], true⟩

end OutputSchema

/-- A function whose result is a table. -/
structure TableFunction where
  path : List String
  signature : Signature
  output : OutputSchema
deriving DecidableEq

def TableFunction.name (function : TableFunction) : String :=
  Name.dotted function.path

end SchemaCatalog
