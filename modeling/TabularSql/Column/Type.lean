import TabularSql.Text.Ascii

/-!
# Column types

The logical types a column can have, their names, and the types of the physical store that values are
cast to.
-/

namespace TabularSql

set_option autoImplicit false

inductive ColumnType where
  | string
  | integer
  | double
  | date
  | boolean
  | json
  | stringList
  | integerList
  | doubleList
  | dateList
  | booleanList
  deriving DecidableEq, Repr, Inhabited

namespace ColumnType

def all : List ColumnType :=
  [string, integer, double, date, boolean, json,
   stringList, integerList, doubleList, dateList, booleanList]

def name : ColumnType → String
  | string => "STRING"
  | integer => "INTEGER"
  | double => "DOUBLE"
  | date => "DATE"
  | boolean => "BOOLEAN"
  | json => "JSON"
  | stringList => "STRING_LIST"
  | integerList => "INTEGER_LIST"
  | doubleList => "DOUBLE_LIST"
  | dateList => "DATE_LIST"
  | booleanList => "BOOLEAN_LIST"

/-- The type with the given name, in exactly this spelling. -/
def ofName? (text : String) : Option ColumnType :=
  all.find? fun type => type.name == text

def ofText? (text : String) : Option ColumnType :=
  all.find? fun type => Text.sameWord type.name text

def isList : ColumnType → Bool
  | stringList | integerList | doubleList | dateList | booleanList => true
  | string | integer | double | date | boolean | json => false

/-- The type of the elements of a list; other types are their own. -/
def element : ColumnType → ColumnType
  | stringList => string
  | integerList => integer
  | doubleList => double
  | dateList => date
  | booleanList => boolean
  | type => type

/-- The type of lists of this type, if there is one. -/
def listOf? : ColumnType → Option ColumnType
  | string => some stringList
  | integer => some integerList
  | double => some doubleList
  | date => some dateList
  | boolean => some booleanList
  | json | stringList | integerList | doubleList | dateList | booleanList => none

theorem listOf?_element {type : ColumnType} (list : type.isList = true) :
    type.element.listOf? = some type := by
  cases type with
  | stringList | integerList | doubleList | dateList | booleanList => rfl
  | _ => cases list

/-- The type of the physical store that stands for this one in a cast. -/
def physicalCast : ColumnType → String
  | string => "CHAR"
  | integer | date => "SIGNED"
  | boolean => "UNSIGNED"
  | double => "DOUBLE"
  | json | stringList | integerList | doubleList | dateList | booleanList => "JSON"

/-- The shared type of the known types, or STRING when they differ; none when none is known. -/
def unify (types : List (Option ColumnType)) : Option ColumnType :=
  match types.filterMap id with
  | [] => none
  | first :: rest => some (if rest.all (· == first) then first else string)

end ColumnType

inductive FacetKind where
  | enumeration
  | range
  deriving DecidableEq, Repr, Inhabited

namespace FacetKind

def name : FacetKind → String
  | enumeration => "enumeration"
  | range => "range"

end FacetKind

end TabularSql
