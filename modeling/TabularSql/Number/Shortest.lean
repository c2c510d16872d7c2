import TabularSql.Number.Double

/-!
# The shortest decimal text of a double

A finite double is written with the fewest significant digits that read back to it. The reals that
round to a double `m * 2 ^ q` form an interval, closed iff `m` is even. Grids of decimal numbers are
tried from coarse to fine; on the first grid with a point in the interval the nearer of the two
neighbours of the double is taken, and the larger one if they are equally near. The text never has an
exponent and a whole number has no point.
-/

namespace TabularSql.Number

set_option autoImplicit false

namespace Double

def decompose (magnitude : Nat) : Nat × Int :=
  let fraction := magnitude % hiddenBit
  let field : Nat := magnitude / hiddenBit
  if field = 0 then (fraction, -1074) else (hiddenBit + fraction, (field : Int) - 1075)

/-- The coefficient of the decimal chosen on the grid `10 ^ place`, if one of its points rounds to
`significand * 2 ^ exponent`. Everything is measured in quarters of the double's last bit, where the
interval reaches two units up and two units down, or one unit down at a power of two. -/
def candidate (significand : Nat) (exponent place : Int) : Option Nat :=
  let grid := Nat.pow 10 place.toNat * Nat.pow 2 (2 - exponent).toNat
  let unit := Nat.pow 10 (-place).toNat * Nat.pow 2 (exponent - 2).toNat
  let value := 4 * significand * unit
  let above := value + 2 * unit
  let below :=
    if significand = hiddenBit && -1074 < exponent then value - unit else value - 2 * unit
  let closed := significand % 2 = 0
  let inside (point : Nat) : Bool :=
    if closed then below ≤ point && point ≤ above else below < point && point < above
  let lower := value / grid
  let lowerHit := lower ≠ 0 && inside (lower * grid)
  let upperHit := inside ((lower + 1) * grid)
  if lowerHit && upperHit then
    some (if 2 * (value - lower * grid) < grid then lower else lower + 1)
  else if lowerHit then some lower
  else if upperHit then some (lower + 1)
  else none

/-- The first candidate on the grids from `10 ^ place` downwards. -/
def searchGrids (significand : Nat) (exponent : Int) : Nat → Int → Nat × Int
  | 0, place => (0, place)
  | tries + 1, place =>
      match candidate significand exponent place with
      | some coefficient => (coefficient, place)
      | none => searchGrids significand exponent tries (place - 1)

/-- The shortest decimal `coefficient * 10 ^ place` of a positive finite magnitude. The search starts
on a grid coarser than the value; seventeen digits always suffice. -/
def shortest (magnitude : Nat) : Nat × Int :=
  let (significand, exponent) := decompose magnitude
  let start : Int := ((significand.log2 : Int) + exponent + 2) * 30103 / 100000 + 1
  searchGrids significand exponent 24 start

def positional (coefficient : Nat) (place : Int) : String :=
  let digits := Nat.toDigits 10 coefficient
  if 0 ≤ place then String.ofList (digits ++ List.replicate place.toNat '0')
  else
    let decimals := (-place).toNat
    let padded := List.replicate (decimals + 1 - digits.length) '0' ++ digits
    let whole := padded.length - decimals
    String.ofList (padded.take whole ++ '.' :: padded.drop whole)

def text (value : Double) : String :=
  if value.isNaN then "NaN"
  else
    let sign := if value.isNegative then "-" else ""
    let magnitude := value.magnitude
    if magnitude = infinityWord then sign ++ "inf"
    else if magnitude = 0 then sign ++ "0"
    else
      let (coefficient, place) := shortest magnitude
      sign ++ positional coefficient place

end Double

end TabularSql.Number
