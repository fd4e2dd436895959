/-!
Floating point numbers as exact fractions, both ways: the value of a float, and the float nearest
to a fraction.
-/
namespace CodeAtlas.Decimal

/-- The value of a float: a whole number times a power of two, with a sign of its own. -/
inductive Value where
  | nan
  | infinite (negative : Bool)
  | finite (negative : Bool) (mantissa : Nat) (exponent : Int)

def topBit : Nat := 0x10000000000000

def signBit : Nat := 0x8000000000000000

def Value.ofFloat (x : Float) : Value :=
  let bits : Nat := x.toBits.toNat
  let negative := bits / signBit == 1
  let biased : Nat := bits / topBit % 0x800
  let fraction : Nat := bits % topBit
  if biased = 2047 then (if fraction = 0 then .infinite negative else .nan)
  else if biased = 0 then .finite negative fraction (-1074)
  else .finite negative (topBit + fraction) ((biased : Int) - 1075)

/-- The quotient rounded to the nearest whole number; a half goes to the even neighbour. -/
def roundDiv (num den : Nat) : Nat :=
  let q := num / den
  let r := num % den
  if 2 * r > den || (2 * r == den && q % 2 == 1) then q + 1 else q

def scale (base num den : Nat) (power : Int) : Nat × Nat :=
  if 0 ≤ power then (num * base.pow power.toNat, den) else (num, den * base.pow (-power).toNat)

/-- The float nearest to a fraction; a tie goes to the even mantissa. -/
def nearestFloat (negative : Bool) (num den : Nat) : Float :=
  let sign := if negative then signBit else 0
  if num = 0 then Float.ofBits (UInt64.ofNat sign) else
  let guess : Int := (num.log2 : Int) - den.log2 - 52
  let (n, d) := scale 2 num den (-guess)
  let exponent := max (-1074) (if n / d < topBit then guess - 1 else guess)
  let (n, d) := scale 2 num den (-exponent)
  let mantissa := roundDiv n d
  let bits := if mantissa < topBit then mantissa
    else (exponent + 1074).toNat * topBit + mantissa
  Float.ofBits (UInt64.ofNat (sign + min bits (2047 * topBit)))

def nearestDecimal (negative : Bool) (digits : Nat) (power : Int) : Float :=
  let top : Int := (Nat.toDigits 10 digits).length + power
  if digits = 0 || top < -400 then nearestFloat negative 0 1
  else if 400 < top then nearestFloat negative (1 <<< 1024) 1
  else
    let (n, d) := scale 10 digits 1 power
    nearestFloat negative n d

end CodeAtlas.Decimal
