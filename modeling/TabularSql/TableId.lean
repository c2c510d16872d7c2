import TabularSql.Number.Word
import TabularSql.Text.Blank

/-!
# Table identifiers

A table is named `syn123`, or `syn123.4` when it is pinned to a version. Reading drops blanks at both
ends and takes the leading letters in any case or not at all; writing always puts them. Identifiers
are ordered by number first, and the current table comes before its versions.
-/

namespace TabularSql

set_option autoImplicit false

structure TableId where
  number : UInt64
  version : Option UInt64 := none
  deriving DecidableEq, Repr, Inhabited

namespace TableId

/-- The characters after the letters `syn` in any case, or all of them. -/
def dropMark : List Char → List Char
  | first :: second :: third :: rest =>
      if first.toLower = 's' && second.toLower = 'y' && third.toLower = 'n' then rest
      else first :: second :: third :: rest
  | chars => chars

def readNumber (digits : List Char) : Option UInt64 :=
  Number.readDigits digits >>= Number.toUnsigned

def readBody (chars : List Char) : Option TableId :=
  let number := chars.takeWhile (· ≠ '.')
  match chars.dropWhile (· ≠ '.') with
  | [] => do return { number := ← readNumber number }
  | _ :: version => do
      return { number := ← readNumber number, version := some (← readNumber version) }

def ofChars? (chars : List Char) : Option TableId :=
  readBody (dropMark (Text.trimBlanks chars))

def ofText? (text : String) : Option TableId :=
  ofChars? text.toList

def text (table : TableId) : String :=
  match table.version with
  | none => "syn" ++ Number.decimal table.number.toNat
  | some version =>
      "syn" ++ Number.decimal table.number.toNat ++ "." ++ Number.decimal version.toNat

/-- By number, then the current table before its versions in ascending order. -/
def le (left right : TableId) : Bool :=
  left.number < right.number ||
    (left.number == right.number &&
      match left.version, right.version with
      | none, _ => true
      | some _, none => false
      | some first, some second => first ≤ second)

def sorted (tables : List TableId) : List TableId :=
  tables.mergeSort le

/-- Identifiers without repetitions, in order of first appearance. -/
def distinct (tables : List TableId) : List TableId :=
  tables.foldl (fun seen table => if table ∈ seen then seen else seen ++ [table]) []

end TableId

/-- The kinds of object that a table identifier can stand for. -/
inductive TableKind where
  | table
  | entityView
  | submissionView
  | dataset
  | materializedView
  | virtualTable
  deriving DecidableEq, Repr, Inhabited

namespace TableKind

def all : List TableKind :=
  [table, entityView, submissionView, dataset, materializedView, virtualTable]

/-- Views whose rows carry an etag and a benefactor. -/
def isEntityView : TableKind → Bool
  | entityView | submissionView | dataset => true
  | table | materializedView | virtualTable => false

end TableKind

end TabularSql
