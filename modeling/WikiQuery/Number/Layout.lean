import WikiQuery.Number.Shortest

namespace WikiQuery

-- How a number is written: within which powers of ten its digits stand in their places, whether a
-- whole number shows a fraction, and which way an exact tie of its last digit goes.
structure NumberLayout where
  tie : Tie
  plainFrom : Option Int
  plainBelow : Option Int
  wholeFraction : Bool

namespace NumberLayout

-- Numbers inside a filter or a value shown to a reader: never an exponent, no empty fraction.
def shown : NumberLayout := ⟨.up, none, none, false⟩

-- Numbers of a JSON document: in their places from `10 ^ -5` up to `10 ^ 16`, with a fraction.
def json : NumberLayout := ⟨.even, some (-5), some 16, true⟩

-- Whether a decimal whose first digit is at `lead` is written in its places.
def isPlain (layout : NumberLayout) (lead : Int) : Bool :=
  layout.plainFrom.all (· ≤ lead) && layout.plainBelow.all (lead < ·)

-- The digits in their places.
def plain (layout : NumberLayout) (d : Decimal) : List Char :=
  let ds := Nat.toDigits 10 d.digits
  let fraction := (-d.exponent).toNat
  if fraction = 0 then
    ds ++ List.replicate d.exponent.toNat '0' ++ (if layout.wholeFraction then ['.', '0'] else [])
  else if ds.length ≤ fraction then
    '0' :: '.' :: (List.replicate (fraction - ds.length) '0' ++ ds)
  else
    ds.take (ds.length - fraction) ++ '.' :: ds.drop (ds.length - fraction)

-- One digit, the others as a fraction, and the power of ten with its sign.
def scientific (d : Decimal) : List Char :=
  let ds := Nat.toDigits 10 d.digits
  let power : Int := d.exponent + (ds.length - 1 : Nat)
  let fraction := if ds.length ≤ 1 then [] else '.' :: ds.drop 1
  ds.take 1 ++ fraction ++ 'e' :: (if power < 0 then '-' else '+') :: Nat.toDigits 10 power.natAbs

def unsigned (layout : NumberLayout) (x : Number) : List Char :=
  if x.isZero then layout.plain ⟨0, 0⟩
  else
    let d := x.shortest layout.tie
    let lead : Int := d.exponent + ((Nat.toDigits 10 d.digits).length : Int) - 1
    if layout.isPlain lead then layout.plain d else scientific d

-- The text of a number. Infinities and the values that are no number have fixed names.
def write (layout : NumberLayout) (x : Number) : List Char :=
  if x.isNaN then ['N', 'a', 'N']
  else
    let size := if x.isFinite then layout.unsigned x else ['i', 'n', 'f']
    if x.negative then '-' :: size else size

end NumberLayout

namespace Number

def shown (x : Number) : String := String.ofList (NumberLayout.shown.write x)

end Number

end WikiQuery
