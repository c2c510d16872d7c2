import TabularSql.Column.Model
import TabularSql.Number.Word

/-!
# Sizes of rows and pages

An upper bound on the bytes of a value written as text, per type; the bound of a row is the sum over
its columns, and a page holds as many rows as fit into a byte budget, at least one. Sums and products
stop at the largest word.
-/

namespace TabularSql

set_option autoImplicit false

namespace Size

def bytesPerChar : UInt64 := 4

def defaultString : UInt64 := 50

def largestString : UInt64 := 1000

def defaultListLength : UInt64 := 100

def ofInteger : UInt64 := 20

def ofDouble : UInt64 := 23

def ofBoolean : UInt64 := 5

def ofJson : UInt64 := 4000

def ofScalar (maxSize : Option UInt64) : ColumnType → UInt64
  | .string => Number.mulClamped bytesPerChar (maxSize.getD defaultString)
  | .integer | .date => ofInteger
  | .double => ofDouble
  | .boolean => ofBoolean
  | .json | .stringList | .integerList | .doubleList | .dateList | .booleanList => ofJson

def ofType (type : ColumnType) (maxSize maxListLength : Option UInt64) : UInt64 :=
  if type.isList then
    Number.mulClamped (ofScalar maxSize type.element) (maxListLength.getD defaultListLength)
  else ofScalar maxSize type

/-- The bound for a column. A computed string without a declared size counts as the largest. -/
def ofColumn (column : ColumnModel) : UInt64 :=
  let maxSize :=
    if column.maxSize.isNone && column.id.isNone && column.type == .string then some largestString
    else column.maxSize
  ofType column.type maxSize column.maxListLength

def ofRow (columns : List ColumnModel) : UInt64 :=
  columns.foldl (fun total column => Number.addClamped total (ofColumn column)) 0

/-- Rows of the given size that fit into a budget, at least one. -/
def rowsPerPage (budget row : UInt64) : UInt64 :=
  if row = 0 then max budget 1 else max (budget / row) 1

end Size

end TabularSql
