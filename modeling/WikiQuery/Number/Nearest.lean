import WikiQuery.Number.Basic

namespace WikiQuery.Number

-- The whole number nearest to a quotient; a tie goes to the even neighbour.
def roundDiv (num den : Nat) : Nat :=
  let q := num / den
  let twice := 2 * (num % den)
  if den < twice then q + 1
  else if twice < den then q
  else if q % 2 = 0 then q else q + 1

-- `num / den * 2 ^ (-e)` as a pair of a numerator and a denominator.
def scaled (num den : Nat) (e : Int) : Nat × Nat :=
  if 0 ≤ e then (num, den * Nat.pow 2 e.toNat) else (num * Nat.pow 2 (-e).toNat, den)

-- The magnitude nearest to a positive quotient, ties to even; `none` beyond the largest number.
-- With the spacing `2 ^ e` the quotient is `r` units, where `r` fills 53 bits unless the spacing is
-- the finest one. The units then follow the bits of the exponent, so that a carry out of them
-- counts the exponent up.
def nearestMagnitude (num den : Nat) : Option Nat :=
  if num = 0 then some 0 else
  let low : Int := max ((Nat.log2 num : Int) - (Nat.log2 den : Int) - 53) (-1074)
  let (n, d) := scaled num den low
  let e := if 2 * exponentBit ≤ n / d then low + 1 else low
  let (n, d) := scaled num den e
  let magnitude := roundDiv n d + (e + 1074).toNat * exponentBit
  if magnitude < infinity then some magnitude else none

-- The number nearest to `digits * 10 ^ exponent`. Decimals too large for any number have none, and
-- those too small for one are zero; both are seen from the position of the first digit.
def ofDecimal (negative : Bool) (digits : Nat) (exponent : Int) : Option Number :=
  let lead : Int := exponent + (Nat.toDigits 10 digits).length
  if digits = 0 ∨ lead < -330 then some (ofMagnitude negative 0)
  else if 310 < lead then none
  else
    let magnitude :=
      if 0 ≤ exponent then nearestMagnitude (digits * Nat.pow 10 exponent.toNat) 1
      else nearestMagnitude digits (Nat.pow 10 (-exponent).toNat)
    magnitude.map (ofMagnitude negative)

end WikiQuery.Number
