import SchemaCatalog.Text.UpperCase

/-!
# Kinds of simple types

A simple type is one of eighteen kinds.  Each kind has a canonical name in capitals, which is how it
is displayed, and a label, which is how documents spell it.  Type expressions may also use the
aliases of other dialects.
-/

namespace SchemaCatalog

/-- The kinds of types that have no parts. -/
inductive TypeKind where
  | string
  | bytes
  | int32
  | int64
  | uint32
  | uint64
  | bool
  | float
  | double
  | numeric
  | bigNumeric
  | date
  | time
  | datetime
  | timestamp
  | interval
  | geography
  | json
deriving DecidableEq, Repr

namespace TypeKind

/-- All kinds, in the order in which they are listed. -/
def all : List TypeKind :=
  [string, bytes, int32, int64, uint32, uint64, bool, float, double, numeric, bigNumeric, date,
    time, datetime, timestamp, interval, geography, json]

/-- The canonical name. -/
def name : TypeKind → String
  | string => "STRING"
  | bytes => "BYTES"
  | int32 => "INT32"
  | int64 => "INT64"
  | uint32 => "UINT32"
  | uint64 => "UINT64"
  | bool => "BOOL"
  | float => "FLOAT"
  | double => "DOUBLE"
  | numeric => "NUMERIC"
  | bigNumeric => "BIGNUMERIC"
  | date => "DATE"
  | time => "TIME"
  | datetime => "DATETIME"
  | timestamp => "TIMESTAMP"
  | interval => "INTERVAL"
  | geography => "GEOGRAPHY"
  | json => "JSON"

/-- The spelling in documents. -/
def label : TypeKind → String
  | string => "String"
  | bytes => "Bytes"
  | int32 => "Int32"
  | int64 => "Int64"
  | uint32 => "Uint32"
  | uint64 => "Uint64"
  | bool => "Bool"
  | float => "Float"
  | double => "Double"
  | numeric => "Numeric"
  | bigNumeric => "BigNumeric"
  | date => "Date"
  | time => "Time"
  | datetime => "Datetime"
  | timestamp => "Timestamp"
  | interval => "Interval"
  | geography => "Geography"
  | json => "Json"

/-- Names that other dialects use for a kind. -/
def aliases : List (String × TypeKind) :=
  [("FLOAT64", double), ("FLOAT32", float), ("INT", int64), ("INTEGER", int64),
    ("SMALLINT", int64), ("BIGINT", int64), ("TINYINT", int64), ("BYTEINT", int64),
    ("BOOLEAN", bool), ("DECIMAL", numeric), ("BIGDECIMAL", bigNumeric)]

/-- Every spelling that names a kind, in capitals. -/
def spellings : List (String × TypeKind) :=
  all.map (fun kind => (kind.name, kind)) ++ aliases

/-- The kind that a name stands for, in any case: the name is put into upper case, by the mapping for
all of Unicode, and looked up. -/
def ofName? (text : String) : Option TypeKind :=
  spellings.lookup (String.ofList (Text.upper text.toList))

/-- The kind that a label stands for; labels are case-sensitive. -/
def ofLabel? (text : String) : Option TypeKind :=
  all.find? fun kind => kind.label == text

theorem ofLabel?_label (kind : TypeKind) : ofLabel? kind.label = some kind := by
  cases kind <;> decide

end TypeKind

end SchemaCatalog
