import WikiQuery.Number.Basic

namespace WikiQuery

-- A decimal: `digits * 10 ^ exponent`.
structure Decimal where
  digits : Nat
  exponent : Int
deriving DecidableEq

-- Which neighbour is taken when a value lies exactly between two decimals.
inductive Tie where
  | even
  | up
deriving DecidableEq

namespace Decimal

-- Moves the final zeros of the digits into the exponent.
def stripZeros (d : Decimal) : Decimal :=
  let zeros := ((Nat.toDigits 10 d.digits).reverse.takeWhile (· = '0')).length
  if d.digits = 0 then d else ⟨d.digits / Nat.pow 10 zeros, d.exponent + zeros⟩

end Decimal

namespace Number

-- The decimals that read back as a given number form an interval around it. It is held in units
-- small enough for its ends: `low`, `mid` and `high` over a common denominator.
structure Interval where
  low : Nat
  mid : Nat
  high : Nat
  den : Nat
  closed : Bool

-- The interval of a positive finite number. Below a power of two the numbers lie twice as dense,
-- so there the lower half of the interval is only half as long. An end belongs to the interval
-- when the number's last bit is even, for then a tie is read as this number.
def interval (x : Number) : Interval :=
  let m := x.significand
  let e := x.exponent
  let dense := m = exponentBit ∧ -1074 < e
  let up := Nat.pow 2 (e - 2).toNat
  { low := (4 * m - if dense then 1 else 2) * up
    mid := 4 * m * up
    high := (4 * m + 2) * up
    den := Nat.pow 2 (2 - e).toNat
    closed := m % 2 = 0 }

namespace Interval

-- Whether `n * 10 ^ k` lies in the interval.
def holds (i : Interval) (n : Nat) (k : Int) : Bool :=
  let value := n * Nat.pow 10 k.toNat * i.den
  let unit := Nat.pow 10 (-k).toNat
  if i.closed then i.low * unit ≤ value && value ≤ i.high * unit
  else i.low * unit < value && value < i.high * unit

-- The decimal with `k` as its exponent that is nearest to the middle, if one lies in the interval.
def nearestOn (i : Interval) (tie : Tie) (k : Int) : Option Decimal :=
  let num := i.mid * Nat.pow 10 (-k).toNat
  let den := i.den * Nat.pow 10 k.toNat
  let below := num / den
  let above := below + 1
  let twice := 2 * (num % den)
  match i.holds below k, i.holds above k with
  | false, false => none
  | true, false => some ⟨below, k⟩
  | false, true => some ⟨above, k⟩
  | true, true =>
    if twice < den then some ⟨below, k⟩
    else if den < twice then some ⟨above, k⟩
    else match tie with
      | .up => some ⟨above, k⟩
      | .even => if below % 2 = 0 then some ⟨below, k⟩ else some ⟨above, k⟩

end Interval

-- The position of the first digit of `num / den`: the largest `k` with `10 ^ k` not above it.
def leadPosition (num den : Nat) : Int :=
  if den ≤ num then ((Nat.toDigits 10 (num / den)).length : Int) - 1
  else
    -- the denominator needs this many further places to be reached
    let places := (Nat.toDigits 10 (den / num)).length
    if den ≤ num * Nat.pow 10 (places - 1) then -((places : Int) - 1) else -(places : Int)

-- The decimal with the fewest digits that reads back as a positive finite number, and the nearest
-- to it of those. Seventeen digits always suffice.
def shortest (x : Number) (tie : Tie) : Decimal :=
  let i := x.interval
  let lead := leadPosition i.mid i.den
  match (List.range 17).findSome? fun (n : Nat) => i.nearestOn tie (lead - n) with
  | some d => d.stripZeros
  | none => ⟨0, 0⟩

end Number

end WikiQuery
