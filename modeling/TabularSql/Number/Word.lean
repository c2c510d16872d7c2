/-!
# Whole numbers of 64 bits

Identifiers, sizes and row counts are unsigned words; bound integers and user ids are signed words.
Reading accepts a sign where the type has one, then decimal digits only, and refuses a number out of
range. Sizes and windows are computed with operations that stop at the ends of the range.
-/

namespace TabularSql.Number

set_option autoImplicit false

def digitsValue (digits : List Char) : Nat :=
  digits.foldl (fun value digit => 10 * value + (digit.toNat - '0'.toNat)) 0

/-- One or more decimal digits. -/
def readDigits (chars : List Char) : Option Nat :=
  if chars.isEmpty || !chars.all Char.isDigit then none else some (digitsValue chars)

def toUnsigned (value : Nat) : Option UInt64 :=
  if value < UInt64.size then some (UInt64.ofNat value) else none

def toSigned (value : Int) : Option Int64 :=
  if Int64.minValue.toInt ≤ value ∧ value ≤ Int64.maxValue.toInt then some (Int64.ofInt value)
  else none

def readUnsignedChars : List Char → Option UInt64
  | '+' :: digits => readDigits digits >>= toUnsigned
  | digits => readDigits digits >>= toUnsigned

def readSignedChars : List Char → Option Int64
  | '+' :: digits => readDigits digits >>= fun value => toSigned value
  | '-' :: digits => readDigits digits >>= fun value => toSigned (-(value : Int))
  | digits => readDigits digits >>= fun value => toSigned value

/-- Reads an unsigned word: an optional `+`, then digits. -/
def readUnsigned (text : String) : Option UInt64 :=
  readUnsignedChars text.toList

/-- Reads a signed word: an optional `+` or `-`, then digits. -/
def readSigned (text : String) : Option Int64 :=
  readSignedChars text.toList

def decimal (value : Nat) : String :=
  String.ofList (Nat.toDigits 10 value)

/-- The decimal digits of an integer, behind a `-` if it is negative. -/
def signedDecimal (value : Int) : String :=
  if value < 0 then "-" ++ decimal value.natAbs else decimal value.natAbs

def largest : UInt64 := 18446744073709551615

def clamp (value : Nat) : UInt64 :=
  UInt64.ofNat (min value largest.toNat)

def addClamped (left right : UInt64) : UInt64 :=
  clamp (left.toNat + right.toNat)

def mulClamped (left right : UInt64) : UInt64 :=
  clamp (left.toNat * right.toNat)

def subClamped (left right : UInt64) : UInt64 :=
  clamp (left.toNat - right.toNat)

end TabularSql.Number
