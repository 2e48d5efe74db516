import VibeScript.Number.Binary64
import VibeScript.Text.Numeral

/-!
Double precision numbers as text: the fewest digits that read back as the same
number, and of those the nearest to it.
-/

namespace VibeScript

namespace Binary64

/-- The numbers that round to a positive number of units, in quarters of a unit,
and whether the two ends round to it as well. -/
structure RoundingInterval where
  low : Nat
  high : Nat
  closed : Bool

/-- The interval of a positive number of units.  Below a power of two the numbers
are twice as dense. -/
def roundingInterval (units : Nat) : RoundingInterval :=
  let spare := spareBits units
  let half := 2 * twoTo spare
  let below := if 0 < spare ∧ units = twoTo (spare + 52) then twoTo spare else half
  ⟨4 * units - below, 4 * units + half, units / twoTo spare % 2 = 0⟩

/-- The least `point` from the given one on for which a number of quarter units is
below `10 ^ point`. -/
def pointFrom (quarters : Nat) (point : Int) : Nat → Int
  | 0 => point
  | tries + 1 =>
      let below :=
        if 0 ≤ point then quarters < tenTo point.toNat * twoTo 1076
        else quarters * tenTo (-point).toNat < twoTo 1076
      if below then point else pointFrom quarters (point + 1) tries

/-- Where the decimal point of a positive number stands: the number lies between
`10 ^ (point - 1)` and `10 ^ point`. -/
def decimalPoint (units : Nat) : Int :=
  pointFrom (4 * units) ((((units.log2 : Int) - 1074) * 30103).fdiv 100000) 4

/-- The number of `10 ^ exponent` next to a value, below or above it, that lies in
the interval of the value.  If both do, the nearer one counts, and of two that are
equally near the even one. -/
def nearestWithin? (interval : RoundingInterval) (units : Nat) (exponent : Int) : Option Nat :=
  let scale := tenTo (-exponent).toNat
  let grid := tenTo exponent.toNat * twoTo 1076
  let value := 4 * units * scale
  let low := interval.low * scale
  let high := interval.high * scale
  let inside (point : Nat) : Bool :=
    if interval.closed then low ≤ point && point ≤ high else low < point && point < high
  let floor := value / grid
  let below := floor * grid
  let above := below + grid
  let belowIsBetter := value - below < above - value ||
    (value - below = above - value && floor % 2 = 0)
  if inside below && (belowIsBetter || !inside above) then some floor
  else if inside above then some (floor + 1)
  else none

/-- The fewest digits that read back as a positive number of units, with the
exponent of the last digit. -/
def shortestDigits (units : Nat) : Nat × Int :=
  let interval := roundingInterval units
  let point := decimalPoint units
  let found := (List.range 17).findSome? fun count =>
    let exponent := point - (count + 1 : Nat)
    (nearestWithin? interval units exponent).map (·, exponent)
  found.getD (0, 0)

end Binary64

/-- How numbers of double precision are written. -/
structure RealStyle where
  nan : Text
  infinity : Text
  /-- the least and the greatest place of the decimal point that is written without
  an exponent -/
  leastPoint : Int
  greatestPoint : Int
  /-- the least number of digits of an exponent -/
  exponentWidth : Nat

/-- A positive number given by its digits and the place of its decimal point. -/
def RealStyle.writeDigits (style : RealStyle) (digits : Text) (point : Int) : Text :=
  let zeros (n : Int) : Text := List.replicate n.toNat '0'
  if style.leastPoint ≤ point ∧ point ≤ style.greatestPoint then
    if point ≤ 0 then "0." ++ zeros (-point) ++ digits
    else if digits.length ≤ point then digits ++ zeros (point - digits.length) ++ ".0"
    else digits.take point.toNat ++ "." ++ digits.drop point.toNat
  else
    let fraction : Text := if digits.length ≤ 1 then [] else "." ++ digits.tail
    let exponent := decimal (point - 1).natAbs
    let sign : Text := if point - 1 < 0 then "-" else "+"
    digits.take 1 ++ fraction ++ "e" ++ sign ++
      zeros (style.exponentWidth - exponent.length) ++ exponent

/-- A number of double precision as text. -/
def RealStyle.write (style : RealStyle) : Binary64 → Text
  | .nan => style.nan
  | .infinity negative => (if negative then "-" else "") ++ style.infinity
  | .finite negative units =>
      let magnitude : Text :=
        if units = 0 then "0.0"
        else
          let (digits, exponent) := Binary64.shortestDigits units
          let written := decimal digits
          let significant := (written.reverse.dropWhile (· = CodePoint.ofNat 48)).reverse
          style.writeDigits significant (written.length + exponent)
      (if negative then "-" else "") ++ magnitude

end VibeScript
