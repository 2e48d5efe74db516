/-!
Double precision numbers, held exactly.

A finite number is a whole number of units of 2^-1074, the smallest positive
double.  Reading a decimal rounds it to the nearest number of 53 significant
bits, a tie going to the even one.
-/

namespace VibeScript

/-- A power of two. -/
def twoTo (n : Nat) : Nat := Nat.pow 2 n

/-- A power of ten. -/
def tenTo (n : Nat) : Nat := Nat.pow 10 n

/-- A double precision number.  `units` counts multiples of 2^-1074. -/
inductive Binary64 where
  | finite (negative : Bool) (units : Nat)
  | infinity (negative : Bool)
  | nan
deriving DecidableEq

namespace Binary64

/-- How many of the lowest bits of a whole number of units are not significant. -/
def spareBits (units : Nat) : Nat := units.log2 + 1 - 53

/-- The quotient rounded to a whole number, a tie going to the even one. -/
def divideToNearest (num den : Nat) : Nat :=
  let quotient := num / den
  let remainder := num % den
  if den < 2 * remainder ∨ (den = 2 * remainder ∧ quotient % 2 = 1) then quotient + 1
  else quotient

/-- A quotient of units rounded to 53 significant bits. -/
def roundUnits (num den : Nat) : Nat :=
  let scale := twoTo (spareBits (num / den))
  divideToNearest num (den * scale) * scale

/-- The units that no finite number reaches: 2^1024. -/
def unitLimit : Nat := twoTo 2098

/-- The number `digits * 10 ^ exponent`, rounded.  The exponent may be of any size:
beyond 400 places the result is infinite or zero whatever the digits are. -/
def ofDecimal (negative : Bool) (digits : Nat) (exponent : Int) : Binary64 :=
  let places := (Nat.toDigits 10 digits).length + exponent
  if digits = 0 ∨ places < -400 then .finite negative 0
  else if 400 < places then .infinity negative
  else
    let units :=
      if 0 ≤ exponent then roundUnits (digits * tenTo exponent.toNat * twoTo 1074) 1
      else roundUnits (digits * twoTo 1074) (tenTo (-exponent).toNat)
    if units < unitLimit then .finite negative units else .infinity negative

/-- Whether the number is a zero of either sign. -/
def isZero : Binary64 → Bool
  | .finite _ units => units = 0
  | _ => false

end Binary64

end VibeScript
