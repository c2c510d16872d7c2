import TabularSql.Query.Basic
import TabularSql.TableId

/-!
# Physical names

The store keeps a table under `T123` or `T123_4` and a column under `_C111_`. Every table also has a
few metadata columns. A DOUBLE column has a shadow column for the values that are no finite numbers,
and a list column has a side table with one row for each element.
-/

namespace TabularSql

set_option autoImplicit false

/-- The metadata columns of every table. -/
inductive MetadataName where
  | rowId
  | rowVersion
  | rowEtag
  | rowBenefactor
  deriving DecidableEq, Repr, Inhabited

namespace MetadataName

def all : List MetadataName := [rowId, rowVersion, rowEtag, rowBenefactor]

def text : MetadataName → String
  | rowId => "ROW_ID"
  | rowVersion => "ROW_VERSION"
  | rowEtag => "ROW_ETAG"
  | rowBenefactor => "ROW_BENEFACTOR"

def ofWord? (word : String) : Option MetadataName :=
  all.find? fun column => Text.sameWord column.text word

def type : MetadataName → ColumnType
  | rowEtag => .string
  | _ => .integer

end MetadataName

namespace Physical

def table (id : TableId) : String :=
  match id.version with
  | none => "T" ++ Number.decimal id.number.toNat
  | some version => "T" ++ Number.decimal id.number.toNat ++ "_" ++ Number.decimal version.toNat

def column (id : ColumnId) : String :=
  "_C" ++ Number.decimal id.toNat ++ "_"

/-- The column that marks the values of a DOUBLE column that are no finite numbers. -/
def shadow (id : ColumnId) : String :=
  "_DBL_C" ++ Number.decimal id.toNat ++ "_"

def sideTable (owner : TableId) (id : ColumnId) : String :=
  table owner ++ "_INDEX_C" ++ Number.decimal id.toNat ++ "_"

/-- The column of a side table that holds the elements. -/
def element (id : ColumnId) : String :=
  column id ++ "_UNNEST"

/-- The column of a side table that holds the id of the row an element belongs to. -/
def elementRow (id : ColumnId) : String :=
  "ROW_ID_REF_C" ++ Number.decimal id.toNat ++ "_"

/-- The correlation name of the table at a position, used when a part reads several tables. -/
def correlation (index : Nat) : String :=
  "_A" ++ Number.decimal index

def columnRef (qualifier : Option String) (id : ColumnId) : ColumnRef :=
  .plain qualifier (column id)

def metadataRef (qualifier : Option String) (name : MetadataName) : ColumnRef :=
  .plain qualifier name.text

def shadowExpr (qualifier : Option String) (id : ColumnId) : Expr :=
  .column (.plain qualifier (shadow id))

/-- A DOUBLE column read through its shadow:
`CASE WHEN _DBL_C1_ IS NULL THEN _C1_ ELSE _DBL_C1_ END`. -/
def guardedDouble (qualifier : Option String) (id : ColumnId) : Expr :=
  .caseWhen none
    [(.isNull (shadowExpr qualifier id) false, .column (columnRef qualifier id))]
    (some (shadowExpr qualifier id))

/-- `( _DBL_C1_ IS NOT NULL AND _DBL_C1_ = 'NaN' )`. -/
def nanTest (qualifier : Option String) (id : ColumnId) : Expr :=
  .nested (.and (.isNull (shadowExpr qualifier id) true)
    (.equals (shadowExpr qualifier id) (.string "NaN")))

/-- `( _DBL_C1_ IS NOT NULL AND _DBL_C1_ IN ( '-Infinity', 'Infinity' ) )`. -/
def infinityTest (qualifier : Option String) (id : ColumnId) : Expr :=
  .nested (.and (.isNull (shadowExpr qualifier id) true)
    (.inList (shadowExpr qualifier id) [.string "-Infinity", .string "Infinity"] false))

/-- `IFNULL(ROW_BENEFACTOR,-1)`. -/
def benefactor (qualifier : Option String) : Expr :=
  .apply "IFNULL" [.column (metadataRef qualifier .rowBenefactor), .integer (-1)]

end Physical

end TabularSql
