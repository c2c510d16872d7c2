import TabularSql.Number.Double

/-!
# Wire values

The values that requests and answers are made of: JSON, with integers and other numbers told apart.
-/

namespace TabularSql

set_option autoImplicit false

inductive WireValue where
  | null
  | boolean (value : Bool)
  /-- A number that is written without a point and without an exponent. -/
  | integer (value : Int)
  | real (value : Number.Double)
  | string (value : String)
  | array (items : List WireValue)
  | object (fields : List (String × WireValue))
  deriving Repr, Inhabited

namespace WireValue

def natural (value : Nat) : WireValue := integer value

def word (value : UInt64) : WireValue := natural value.toNat

def strings (values : List String) : WireValue := array (values.map string)

def option {α : Type} (write : α → WireValue) : Option α → WireValue
  | none => null
  | some value => write value

def asBoolean? : WireValue → Option Bool
  | boolean value => some value
  | _ => none

def asWord? : WireValue → Option UInt64
  | integer value => if value < 0 then none else Number.toUnsigned value.toNat
  | _ => none

def asSigned? : WireValue → Option Int64
  | integer value => Number.toSigned value
  | _ => none

def asString? : WireValue → Option String
  | string value => some value
  | _ => none

def asArray? : WireValue → Option (List WireValue)
  | array items => some items
  | _ => none

def asObject? : WireValue → Option (List (String × WireValue))
  | object fields => some fields
  | _ => none

def asList? {α : Type} (read : WireValue → Option α) (value : WireValue) : Option (List α) :=
  value.asArray? >>= List.mapM read

mutual

def depth : WireValue → Nat
  | array items => itemsDepth items + 1
  | object fields => fieldsDepth fields + 1
  | _ => 0

def itemsDepth : List WireValue → Nat
  | [] => 0
  | value :: rest => max value.depth (itemsDepth rest)

def fieldsDepth : List (String × WireValue) → Nat
  | [] => 0
  | (_, value) :: rest => max value.depth (fieldsDepth rest)

end

end WireValue

abbrev WireFields := List (String × WireValue)

namespace WireFields

variable {α : Type}

def required (fields : WireFields) (name : String) (read : WireValue → Option α) : Option α :=
  fields.lookup name >>= read

def optional (fields : WireFields) (name : String) (read : WireValue → Option α) :
    Option (Option α) :=
  match fields.lookup name with
  | none | some .null => some none
  | some value => (read value).map some

def defaulted (fields : WireFields) (name : String) (value : α) (read : WireValue → Option α) :
    Option α :=
  match fields.lookup name with
  | none => some value
  | some given => read given

def present (name : String) (write : α → WireValue) : Option α → WireFields
  | none => []
  | some value => [(name, write value)]

end WireFields

end TabularSql
