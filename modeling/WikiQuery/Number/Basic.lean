namespace WikiQuery

-- A number of a wiki value: a binary floating-point number of double precision, held as its bits.
structure Number where
  bits : UInt64
deriving DecidableEq

namespace Number

-- The value of the highest bit, which is the sign.
def signBit : Nat := 0x8000000000000000

-- The value of the lowest bit of the exponent; the 52 bits below it are the fraction.
def exponentBit : Nat := 0x10000000000000

-- Infinity without its sign: the largest exponent, and no fraction.
def infinity : Nat := 0x7FF0000000000000

-- The sign. Zero has two of them.
def negative (x : Number) : Bool := signBit ≤ x.bits.toNat

-- The bits without the sign, which order the numbers of one sign by size.
def magnitude (x : Number) : Nat := x.bits.toNat % signBit

def isZero (x : Number) : Bool := x.magnitude == 0

def isFinite (x : Number) : Bool := x.magnitude < infinity

-- The values that are no number lie beyond infinity.
def isNaN (x : Number) : Bool := infinity < x.magnitude

-- Numeric equality: the two zeros are equal, and a value that is no number differs from itself.
def same (x y : Number) : Bool :=
  !x.isNaN && !y.isNaN && (x.bits == y.bits || (x.isZero && y.isZero))

instance : BEq Number := ⟨same⟩

-- The number with a given sign and magnitude.
def ofMagnitude (negative : Bool) (magnitude : Nat) : Number :=
  ⟨UInt64.ofNat (if negative then signBit + magnitude else magnitude)⟩

-- The whole number and the power of two whose product is the size of a finite number.
def significand (x : Number) : Nat :=
  let field : Nat := x.magnitude / exponentBit
  if field = 0 then x.magnitude else exponentBit + x.magnitude % exponentBit

def exponent (x : Number) : Int :=
  let field : Nat := x.magnitude / exponentBit
  if field = 0 then -1074 else (field : Int) - 1075

end Number

end WikiQuery
