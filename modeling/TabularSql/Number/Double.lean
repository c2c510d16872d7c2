import TabularSql.Number.Word

/-!
# Double precision numbers

A double is its IEEE 754 binary64 word. Decimal text is read exactly: the number it denotes is a
quotient of natural numbers, and the nearest double is found by integer division, a half going to
the even neighbour. Magnitudes too large become infinite and magnitudes too small become zero.
-/

namespace TabularSql.Number

set_option autoImplicit false

structure Double where
  bits : UInt64
  deriving DecidableEq, Repr, Inhabited

namespace Double

/-- The bit above the 52 bits of the fraction field. -/
def hiddenBit : Nat := Nat.pow 2 52

def signBit : Nat := Nat.pow 2 63

/-- The word of positive infinity, which is also the bound of all finite magnitudes. -/
def infinityWord : Nat := 2047 * hiddenBit

def ofMagnitude (negative : Bool) (magnitude : Nat) : Double :=
  ⟨UInt64.ofNat (if negative then signBit + magnitude else magnitude)⟩

def isNegative (value : Double) : Bool := signBit ≤ value.bits.toNat

def magnitude (value : Double) : Nat := value.bits.toNat % signBit

def isNaN (value : Double) : Bool := infinityWord < value.magnitude

/-- The quotient rounded to the nearest integer, a half to the even one. -/
def roundQuotient (numerator denominator : Nat) : Nat :=
  let quotient := numerator / denominator
  let twice := 2 * (numerator % denominator)
  if twice < denominator then quotient
  else if denominator < twice then quotient + 1
  else quotient + quotient % 2

/-- The word of the magnitude nearest to a positive quotient.

With `scale` chosen so that the quotient divided by `2 ^ scale` has 53 bits (fewer at the smallest
scale), the word is `(scale + 1074) * 2 ^ 52` plus that rounded number: the hidden bit and a carry out
of the rounding both end up in the exponent field. -/
def nearestMagnitude (numerator denominator : Nat) : Nat :=
  let estimate : Int := numerator.log2 - denominator.log2 - 52
  let fits (scale : Int) : Bool :=
    if 0 ≤ scale then hiddenBit * denominator * Nat.pow 2 scale.toNat ≤ numerator
    else hiddenBit * denominator ≤ numerator * Nat.pow 2 (-scale).toNat
  let scale := max (-1074) (if fits estimate then estimate else estimate - 1)
  let rounded :=
    if 0 ≤ scale then roundQuotient numerator (denominator * Nat.pow 2 scale.toNat)
    else roundQuotient (numerator * Nat.pow 2 (-scale).toNat) denominator
  min infinityWord ((scale + 1074).toNat * hiddenBit + rounded)

def ofInt (value : Int) : Double :=
  if value = 0 then ⟨0⟩ else ofMagnitude (value < 0) (nearestMagnitude value.natAbs 1)

/-- The word of the magnitude nearest to `significand * 10 ^ exponent`. -/
def nearestDecimal (significand : Nat) (exponent : Int) : Nat :=
  if significand = 0 then 0
  else
    let top : Int := (Nat.toDigits 10 significand).length + exponent
    if 310 < top then infinityWord
    else if top < -330 then 0
    else if 0 ≤ exponent then nearestMagnitude (significand * Nat.pow 10 exponent.toNat) 1
    else nearestMagnitude significand (Nat.pow 10 (-exponent).toNat)

def readExponent : List Char → Option Int
  | '+' :: digits => (readDigits digits).map Int.ofNat
  | '-' :: digits => (readDigits digits).map fun value => -Int.ofNat value
  | digits => (readDigits digits).map Int.ofNat

/-- Digits with at most one point, then an optional exponent; at least one digit in front of it. -/
def readMagnitude (chars : List Char) : Option Nat :=
  let whole := chars.takeWhile Char.isDigit
  let afterWhole := chars.dropWhile Char.isDigit
  let afterPoint := match afterWhole with
    | '.' :: rest => rest
    | rest => rest
  let hasPoint := afterWhole.head? = some '.'
  let fraction := if hasPoint then afterPoint.takeWhile Char.isDigit else []
  let tail := if hasPoint then afterPoint.dropWhile Char.isDigit else afterWhole
  let significand := digitsValue (whole ++ fraction)
  let scale : Int := -(fraction.length : Int)
  if whole.isEmpty && fraction.isEmpty then none
  else match tail with
    | [] => some (nearestDecimal significand scale)
    | mark :: exponent =>
        if mark = 'e' || mark = 'E' then
          (readExponent exponent).map fun shift => nearestDecimal significand (scale + shift)
        else none

/-- The words for infinity and for no number at all, in any case. -/
def readSpecial (chars : List Char) : Option Nat :=
  let lower := String.ofList (chars.map Char.toLower)
  if lower = "inf" || lower = "infinity" then some infinityWord
  else if lower = "nan" then some (infinityWord + hiddenBit / 2)
  else none

def readUnsignedDouble (chars : List Char) : Option Nat :=
  (readSpecial chars).or (readMagnitude chars)

/-- Reads a double: an optional sign, then a special word or a decimal number. -/
def read (text : String) : Option Double :=
  match text.toList with
  | '+' :: rest => (readUnsignedDouble rest).map (ofMagnitude false)
  | '-' :: rest => (readUnsignedDouble rest).map (ofMagnitude true)
  | rest => (readUnsignedDouble rest).map (ofMagnitude false)

end Double

end TabularSql.Number
