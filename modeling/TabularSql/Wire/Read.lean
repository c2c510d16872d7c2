import TabularSql.Error
import TabularSql.Wire.Format

/-!
# Reading requests

A request is read field by field. What does not have the form of a request is unreadable; a table id
or a column type that is no such thing is an error of its own.
-/

namespace TabularSql

set_option autoImplicit false

/-- Why a request cannot be read or answered. -/
inductive RequestError where
  | unreadable
  | invalid (error : CompileError)

abbrev Reading := Except RequestError

namespace Reading

variable {α : Type}

def unreadable : Reading α := .error .unreadable

def ofOption : Option α → Reading α
  | some value => .ok value
  | none => unreadable

def ofResult : Except CompileError α → Reading α
  | .ok value => .ok value
  | .error error => .error (.invalid error)

def ofParse : Except ParseError α → Reading α
  | .ok value => .ok value
  | .error error => .error (.invalid (.malformed error))

end Reading

namespace WireValue

def field (value : WireValue) (name : String) : WireValue :=
  match value with
  | object fields => (fields.lookup name).getD null
  | _ => null

def item (value : WireValue) (index : Nat) : WireValue :=
  match value with
  | array items => items[index]?.getD null
  | _ => null

def readText (value : WireValue) : Reading String := .ofOption value.asString?

def readWord (value : WireValue) : Reading UInt64 := .ofOption value.asWord?

def readSigned (value : WireValue) : Reading Int64 := .ofOption value.asSigned?

def readBoolean (value : WireValue) : Reading Bool := .ofOption value.asBoolean?

/-- A flag is on only if it is true; any other value leaves it off. -/
def isTrue : WireValue → Bool
  | boolean value => value
  | _ => false

variable {α : Type}

def readOption (read : WireValue → Reading α) : WireValue → Reading (Option α)
  | null => .ok none
  | value => (read value).map some

def readArray (read : WireValue → Reading α) (value : WireValue) : Reading (List α) := do
  (← Reading.ofOption value.asArray?).mapM read

def readList (read : WireValue → Reading α) : WireValue → Reading (List α)
  | null => .ok []
  | value => value.readArray read

def readTableId (value : WireValue) : Reading TableId := do
  .ofResult (TableId.parse (← value.readText))

def readColumnType (value : WireValue) : Reading ColumnType := do
  .ofResult (ColumnType.parse (← value.readText))

end WireValue

end TabularSql
