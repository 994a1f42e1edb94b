namespace BuildPlan

def twoTo (power : Nat) : Nat := Nat.pow 2 power

def tenTo (power : Nat) : Nat := Nat.pow 10 power

structure Decimal where
  negative : Bool
  digits : Nat
  exponent : Int
  deriving DecidableEq, Repr

-- A positive number `mantissa * 2 ^ exponent`.
structure Binary where
  mantissa : Nat
  exponent : Int
  deriving DecidableEq, Repr

namespace Binary

-- No number has a smaller exponent, and only numbers with this one may have fewer than 53 bits.
def leastExponent : Int := -1074

def greatestExponent : Int := 971

-- The number `num / den * 2 ^ shift` as a fraction of natural numbers.
def scale (num den : Nat) (shift : Int) : Nat × Nat :=
  if 0 ≤ shift then (num * twoTo shift.toNat, den) else (num, den * twoTo (-shift).toNat)

-- A quotient to the nearest integer, a half to the even one.
def roundDiv (num den : Nat) : Nat :=
  let quotient := num / den
  let rest := 2 * (num % den)
  if rest < den || (rest == den && quotient % 2 == 0) then quotient else quotient + 1

-- The exponent under which `num / den` has 53 bits before the point, or the least exponent.
def exponentFor (num den : Nat) : Int :=
  let guess : Int := (Nat.log2 num : Int) - (Nat.log2 den : Int) - 53
  let (a, b) := scale num den (-guess)
  let exponent := if a < b * twoTo 53 then guess else guess + 1
  max exponent leastExponent

-- The number nearest to `num / den`; none when it is out of range. A result may be zero.
def nearest (num den : Nat) : Option Binary :=
  let exponent := exponentFor num den
  let (a, b) := scale num den (-exponent)
  let mantissa := roundDiv a b
  let rounded : Binary :=
    if mantissa = twoTo 53 then ⟨twoTo 52, exponent + 1⟩ else ⟨mantissa, exponent⟩
  if rounded.exponent ≤ greatestExponent then some rounded else none

-- The number as a fraction, with the bounds of what rounds to it over the same denominator.
def bounds (x : Binary) : Nat × Nat × Nat × Nat :=
  let (value, den) := scale x.mantissa 1 x.exponent
  let (unit, _) := if 0 ≤ x.exponent then (twoTo x.exponent.toNat, den) else (1, den)
  -- Below a power of two the next smaller number is only half as far away.
  let closer := x.mantissa == twoTo 52 && x.exponent != leastExponent
  (4 * value - (if closer then unit else 2 * unit), 4 * value, 4 * value + 2 * unit, 4 * den)

-- Below which power of ten `num / den` stands: the number of digits before its point.
def magnitude (num den : Nat) : Int :=
  let guess : Int := ((Nat.log2 num : Int) - (Nat.log2 den : Int)) * 30103 / 100000 - 1
  let below (power : Int) : Bool :=
    if 0 ≤ power then num < den * tenTo power.toNat else num * tenTo (-power).toNat < den
  if below guess then guess
  else if below (guess + 1) then guess + 1
  else if below (guess + 2) then guess + 2
  else guess + 3

-- The best number of `count` digits that leads back to `x`, if there is one; of two equally near
-- ones the larger.
def withDigits (x : Binary) (count : Nat) : Option (Nat × Int) :=
  let (low, value, high, den) := x.bounds
  let exponent := magnitude value den - count
  -- Everything is measured in units of the last digit, over `den'`.
  let up (n : Nat) : Nat := if 0 ≤ exponent then n else n * tenTo (-exponent).toNat
  let den' := if 0 ≤ exponent then den * tenTo exponent.toNat else den
  let floor := up value / den'
  let inside (digits : Nat) : Bool :=
    if x.mantissa % 2 == 0 then up low ≤ digits * den' && digits * den' ≤ up high
    else up low < digits * den' && digits * den' < up high
  let nearer := if 2 * (up value % den') < den' then floor else floor + 1
  let farther := if nearer = floor then floor + 1 else floor
  if inside nearer then some (nearer, exponent)
  else if inside farther then some (farther, exponent)
  else none

def shortest (x : Binary) : Nat × Int :=
  ((List.range 17).findSome? fun n => x.withDigits (n + 1)).getD (0, 0)

end Binary

namespace Decimal

def width (n : Nat) : Nat := (Nat.toDigits 10 n).length

def nearest (d : Decimal) : Option Binary :=
  if d.digits = 0 then some ⟨0, Binary.leastExponent⟩
  -- Far outside the range the powers of ten need not be computed.
  else if d.exponent + width d.digits > 400 then none
  else if d.exponent + width d.digits < -400 then some ⟨0, Binary.leastExponent⟩
  else if 0 ≤ d.exponent then Binary.nearest (d.digits * tenTo d.exponent.toNat) 1
  else Binary.nearest d.digits (tenTo (-d.exponent).toNat)

-- The text of `digits * 10 ^ exponent` without an exponent, with at least one digit after the point.
def positional (digits : Nat) (exponent : Int) : String :=
  let text := Nat.toDigits 10 digits
  if 0 ≤ exponent then String.ofList (text ++ List.replicate exponent.toNat '0') ++ ".0"
  else
    let places := (-exponent).toNat
    let padded := List.replicate (places + 1 - text.length) '0' ++ text
    let before := padded.length - places
    String.ofList (padded.take before) ++ "." ++ String.ofList (padded.drop before)

def shortestText (d : Decimal) : Option String :=
  d.nearest.map fun x =>
    let text :=
      if x.mantissa = 0 then "0.0"
      else
        let (digits, exponent) := x.shortest
        positional digits exponent
    if d.negative then "-" ++ text else text

end Decimal
end BuildPlan
