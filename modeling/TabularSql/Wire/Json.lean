import TabularSql.Number.Shortest
import TabularSql.Wire.Value

/-!
# JSON text

Wire values as text. A number without a point and without an exponent is an integer if it fits a
word; every other number is a double. A double is read in double arithmetic: as many digits as fit a
word are rounded to a double, which is then multiplied or divided by a rounded power of ten.
-/

namespace TabularSql.Json

set_option autoImplicit false

open Number

/-! ## Numbers -/

/-- The magnitude `numerator / denominator * 2 ^ exponent`, rounded. -/
def roundScaled (numerator denominator : Nat) (exponent : Int) : Nat :=
  if numerator = 0 then 0
  else if 0 ≤ exponent then Double.nearestMagnitude (numerator * Nat.pow 2 exponent.toNat) denominator
  else Double.nearestMagnitude numerator (denominator * Nat.pow 2 (-exponent).toNat)

def multiply (left right : Nat) : Nat :=
  let (leftDigits, leftScale) := Double.decompose left
  let (rightDigits, rightScale) := Double.decompose right
  roundScaled (leftDigits * rightDigits) 1 (leftScale + rightScale)

def divide (left right : Nat) : Nat :=
  let (leftDigits, leftScale) := Double.decompose left
  let (rightDigits, rightScale) := Double.decompose right
  roundScaled leftDigits rightDigits (leftScale - rightScale)

def largestPower : Nat := 308

/-- A magnitude divided by a power of ten, by at most the largest power at a time. -/
def divideByPower (magnitude exponent : Nat) : Nat :=
  if magnitude = 0 then 0
  else if exponent ≤ largestPower then divide magnitude (Double.nearestDecimal 1 exponent)
  else divideByPower (divide magnitude (Double.nearestDecimal 1 largestPower))
    (exponent - largestPower)
  termination_by exponent
  decreasing_by simp only [largestPower] at *; omega

/-- A magnitude times a power of ten, unless it is too large. -/
def multiplyByPower (magnitude exponent : Nat) : Option Nat :=
  if exponent ≤ largestPower then
    let product := multiply magnitude (Double.nearestDecimal 1 exponent)
    if product = Double.infinityWord then none else some product
  else if magnitude = 0 then some 0
  else none

def readReal (negative : Bool) (significand : Nat) (exponent : Int) : Option WireValue :=
  let magnitude := (Double.ofInt significand).magnitude
  let scaled :=
    if exponent < 0 then some (divideByPower magnitude exponent.natAbs)
    else multiplyByPower magnitude exponent.natAbs
  scaled.map fun word => .real (Double.ofMagnitude negative word)

/-- Appends digits to a significand up to the first one with which it would not fit a word: the
significand, how many digits it took and how many it left. -/
def appendDigits (significand taken : Nat) : List Char → Nat × Nat × Nat
  | [] => (significand, taken, 0)
  | digit :: rest =>
      let next := significand * 10 + digitsValue [digit]
      if next < UInt64.size then appendDigits next (taken + 1) rest
      else (significand, taken, rest.length + 1)

def readExponent (chars : List Char) : Option (Int × List Char) :=
  let digits := match chars with
    | '-' :: rest | '+' :: rest => rest
    | rest => rest
  let size : Int := digitsValue (digits.takeWhile Char.isDigit)
  if (digits.takeWhile Char.isDigit).isEmpty then none
  else some (if chars.head? = some '-' then -size else size, digits.dropWhile Char.isDigit)

def readFraction : List Char → Option (Option (List Char) × List Char)
  | '.' :: rest =>
      if (rest.takeWhile Char.isDigit).isEmpty then none
      else some (some (rest.takeWhile Char.isDigit), rest.dropWhile Char.isDigit)
  | rest => some (none, rest)

/-- A number behind its sign. Only a lone zero starts with a zero. -/
def readNumber (negative : Bool) (chars : List Char) : Option (WireValue × List Char) := do
  let whole := chars.takeWhile Char.isDigit
  if whole.isEmpty || 1 < whole.length && whole.head? = some '0' then none
  let (head, _, left) := appendDigits 0 0 whole
  let (fraction, rest) ← readFraction (chars.dropWhile Char.isDigit)
  let (significand, taken, _) := appendDigits head 0 (fraction.getD [])
  let exponent : Int := left - taken
  match rest with
  | 'e' :: rest | 'E' :: rest =>
      let (shift, rest) ← readExponent rest
      return (← readReal negative significand (exponent + shift), rest)
  | rest =>
      let value : Int := if negative then -significand else significand
      let isWord := if negative then significand ≠ 0 && (toSigned value).isSome else true
      if fraction.isNone && left = 0 && isWord then return (.integer value, rest)
      else return (← readReal negative significand exponent, rest)

/-! ## Strings -/

def hexDigit? (char : Char) : Option Nat :=
  if char.isDigit then some (char.toNat - 48)
  else if 'a' ≤ char && char ≤ 'f' then some (char.toNat - 87)
  else if 'A' ≤ char && char ≤ 'F' then some (char.toNat - 55)
  else none

def readUnit : List Char → Option (Nat × List Char)
  | first :: second :: third :: fourth :: rest => do
      let digits ← [first, second, third, fourth].mapM hexDigit?
      return (digits.foldl (fun value digit => value * 16 + digit) 0, rest)
  | _ => none

/-- The character of an escape by number. A high surrogate needs a low one behind it. -/
def readEscapedUnit (chars : List Char) : Option (Char × List Char) := do
  let (high, rest) ← readUnit chars
  if high < 0xD800 || 0xE000 ≤ high then return (Char.ofNat high, rest)
  else
    match rest with
    | '\\' :: 'u' :: rest =>
        let (low, rest) ← readUnit rest
        if high < 0xDC00 && 0xDC00 ≤ low && low < 0xE000 then
          return (Char.ofNat (0x10000 + (high - 0xD800) * 1024 + (low - 0xDC00)), rest)
        else none
    | _ => none

def escapes : List (Char × Char) :=
  [('"', '"'), ('\\', '\\'), ('/', '/'), ('b', '\x08'), ('f', '\x0c'), ('n', '\n'), ('r', '\r'),
   ('t', '\t')]

/-- One character of a string; none at the closing quote. -/
def readChar : List Char → Option (Option Char × List Char)
  | '"' :: rest => some (none, rest)
  | '\\' :: 'u' :: rest => do
      let (char, rest) ← readEscapedUnit rest
      return (some char, rest)
  | '\\' :: letter :: rest => do return (some (← escapes.lookup letter), rest)
  | char :: rest => if char.toNat < 32 then none else some (some char, rest)
  | [] => none

/-- The characters up to the closing quote; at most `bound` of them. -/
def readChars : Nat → List Char → List Char → Option (List Char × List Char)
  | 0, _, _ => none
  | bound + 1, taken, chars => do
      match ← readChar chars with
      | (none, rest) => return (taken.reverse, rest)
      | (some char, rest) => readChars bound (char :: taken) rest

def readString (chars : List Char) : Option (String × List Char) := do
  let (content, rest) ← readChars (chars.length + 1) [] chars
  return (String.ofList content, rest)

/-! ## Values -/

def isBlank (char : Char) : Bool :=
  char = ' ' || char = '\n' || char = '\t' || char = '\r'

def skipBlanks (chars : List Char) : List Char := chars.dropWhile isBlank

abbrev Reader (α : Type) := List Char → Option (α × List Char)

/-- At least one item, up to the closing bracket; at most `bound` items. -/
def readItems {α : Type} (read : Reader α) (close : Char) : Nat → Reader (List α)
  | 0, _ => none
  | bound + 1, chars => do
      let (item, rest) ← read chars
      match skipBlanks rest with
      | ',' :: rest =>
          let (items, rest) ← readItems read close bound rest
          return (item :: items, rest)
      | mark :: rest => if mark = close then some ([item], rest) else none
      | [] => none

def readSequence {α : Type} (read : Reader α) (close : Char) : Reader (List α) := fun chars =>
  match skipBlanks chars with
  | mark :: rest =>
      if mark = close then some ([], rest)
      else readItems read close (rest.length + 1) (mark :: rest)
  | [] => none

def readField (read : Reader WireValue) : Reader (String × WireValue) := fun chars => do
  match skipBlanks chars with
  | '"' :: rest =>
      let (name, rest) ← readString rest
      match skipBlanks rest with
      | ':' :: rest =>
          let (value, rest) ← read rest
          return ((name, value), rest)
      | _ => none
  | _ => none

/-- Of fields with one name the last one counts. -/
def lastFields : WireFields → WireFields
  | [] => []
  | (name, value) :: rest =>
      if rest.any fun later => later.1 == name then lastFields rest
      else (name, value) :: lastFields rest

def readPlain (chars : List Char) : Option (WireValue × List Char) :=
  match chars with
  | 'n' :: 'u' :: 'l' :: 'l' :: rest => some (.null, rest)
  | 't' :: 'r' :: 'u' :: 'e' :: rest => some (.boolean true, rest)
  | 'f' :: 'a' :: 'l' :: 's' :: 'e' :: rest => some (.boolean false, rest)
  | '"' :: rest => (readString rest).map fun (text, rest) => (.string text, rest)
  | '-' :: rest => readNumber true rest
  | rest => readNumber false rest

/-- A value with at most `depth` brackets open at a time. -/
def readValue : Nat → Reader WireValue
  | 0, chars => readPlain (skipBlanks chars)
  | depth + 1, chars =>
      match skipBlanks chars with
      | '[' :: rest =>
          (readSequence (readValue depth) ']' rest).map fun (items, rest) => (.array items, rest)
      | '\x7b' :: rest =>
          (readSequence (readField (readValue depth)) '\x7d' rest).map fun (fields, rest) =>
            (.object (lastFields fields), rest)
      | rest => readPlain rest

def depthLimit : Nat := 127

def parse? (text : String) : Option WireValue := do
  let (value, rest) ← readValue depthLimit text.toList
  if (skipBlanks rest).isEmpty then some value else none

/-! ## Writing -/

def hexText (width value : Nat) : String :=
  let digits := Nat.toDigits 16 value
  String.ofList (List.replicate (width - digits.length) '0' ++ digits)

/-- A character of a string; quotes, backslashes and control characters are escaped. -/
def charText (char : Char) : String :=
  if char = '"' || char = '\\' then String.ofList ['\\', char]
  else if char.toNat < 32 then "\\u" ++ hexText 4 char.toNat
  else String.singleton char

def stringText (value : String) : String :=
  "\"" ++ String.join (value.toList.map charText) ++ "\""

/-- A double keeps a point, so that it is not read as an integer; what is not finite is null. -/
def realText (value : Double) : String :=
  if value.magnitude < Double.infinityWord then
    if value.text.toList.contains '.' then value.text else value.text ++ ".0"
  else "null"

mutual

def text : WireValue → String
  | .null => "null"
  | .boolean value => if value then "true" else "false"
  | .integer value => Number.signedDecimal value
  | .real value => realText value
  | .string value => stringText value
  | .array items => "[" ++ ",".intercalate (itemTexts items) ++ "]"
  | .object fields => "\x7b" ++ ",".intercalate (fieldTexts fields) ++ "\x7d"

def itemTexts : List WireValue → List String
  | [] => []
  | value :: rest => text value :: itemTexts rest

def fieldTexts : List (String × WireValue) → List String
  | [] => []
  | (name, value) :: rest => (stringText name ++ ":" ++ text value) :: fieldTexts rest

end

end TabularSql.Json
