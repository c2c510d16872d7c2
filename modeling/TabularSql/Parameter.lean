import TabularSql.Column.Type
import TabularSql.Number.Shortest
import TabularSql.Text.Quoted

/-!
# Bound parameters

Literals of a lowered statement are not written into it: each is bound to a placeholder `b0`, `b1`, ...
in the order of binding. A value is read from its literal text as the type it is compared with; text
that is no value of that type stays text.
-/

namespace TabularSql

set_option autoImplicit false

inductive ParameterValue where
  | integer (value : Int64)
  | double (value : Number.Double)
  | boolean (value : Bool)
  | string (value : String)
  deriving DecidableEq, Repr, Inhabited

namespace ParameterValue

def readBoolean (text : String) : Option Bool :=
  if text = "true" then some true else if text = "false" then some false else none

/-- The value that a text stands for when it is compared with a column of the given type. -/
def read (type : ColumnType) (text : String) : ParameterValue :=
  match type.element with
  | .integer | .date => ((Number.readSigned text).map integer).getD (string text)
  | .double => ((Number.Double.read text).map double).getD (string text)
  | .boolean => ((readBoolean text).map boolean).getD (string text)
  | _ => string text

/-- The value of a number literal that is compared with nothing of a known type. -/
def readNumber (text : String) : ParameterValue :=
  match Number.readSigned text with
  | some value => integer value
  | none =>
      match Number.Double.read text with
      | some value => double value
      | none => string text

def text : ParameterValue → String
  | integer value => Number.signedDecimal value.toInt
  | double value => value.text
  | boolean true => "true"
  | boolean false => "false"
  | string value => Text.enclosed '\'' value

def asInteger? : ParameterValue → Option Int64
  | integer value => some value
  | _ => none

def asDouble? : ParameterValue → Option Number.Double
  | double value => some value
  | _ => none

def asString? : ParameterValue → Option String
  | string value => some value
  | _ => none

end ParameterValue

def placeholderName (index : Nat) : String :=
  "b" ++ Number.decimal index

/-- Bound values in the order of binding; the value at position `n` belongs to placeholder `bn`. -/
structure Parameters where
  values : List ParameterValue := []
  deriving DecidableEq, Repr, Inhabited

namespace Parameters

def bind (parameters : Parameters) (value : ParameterValue) : String × Parameters :=
  (placeholderName parameters.values.length, ⟨parameters.values ++ [value]⟩)

def entries (parameters : Parameters) : List (String × ParameterValue) :=
  parameters.values.zipIdx.map fun (value, index) => (placeholderName index, value)

def get? (parameters : Parameters) (name : String) : Option ParameterValue :=
  parameters.entries.lookup name

end Parameters

end TabularSql
