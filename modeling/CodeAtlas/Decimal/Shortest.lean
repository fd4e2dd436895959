import CodeAtlas.Decimal.Binary64

/-!
The shortest decimal that reads back as the same float.
-/
namespace CodeAtlas.Decimal

structure Scaled where
  digits : Nat
  power : Int

def leadingExponent (num den : Nat) : Int :=
  let guess : Int := ((num.log2 : Int) - den.log2) * 30103 / 100000
  let reaches (e : Int) : Bool := let (n, d) := scale 10 num den (-e); d ≤ n
  if !reaches guess then guess - 1 else if reaches (guess + 1) then guess + 1 else guess

/-- The point of the grid `10 ^ power` next to `mantissa · 2 ^ exponent` that reads back as that
float, the nearer one if both do, the even one if they are equally near. All is counted in quarters
of the float's own unit, so that the midpoints to its neighbours are whole numbers. -/
def onGrid? (mantissa : Nat) (exponent power : Int) : Option Scaled :=
  let unit := scale 2 1 4 exponent
  -- a grid point `g` is `g · step / quarter` quarters
  let (step, quarter) := scale 10 unit.2 unit.1 power
  let value := 4 * mantissa
  let low := if mantissa = topBit && -1074 < exponent then value - 1 else value - 2
  let high := value + 2
  let closed := mantissa % 2 == 0
  let hits (g : Nat) : Bool :=
    let x := g * step
    if closed then low * quarter ≤ x && x ≤ high * quarter
    else low * quarter < x && x < high * quarter
  let below := value * quarter / step
  let rest := value * quarter % step
  let upFirst := 2 * rest > step || (2 * rest == step && below % 2 == 1)
  let first := if upFirst then below + 1 else below
  let second := if upFirst then below else below + 1
  if hits first then some ⟨first, power⟩ else if hits second then some ⟨second, power⟩ else none

/-- The first grid that holds a point: one digit, two digits, and so on; 17 digits are enough. -/
def shortestFrom (mantissa : Nat) (exponent lead : Int) : Nat → Nat → Scaled
  | _, 0 => ⟨mantissa, exponent⟩
  | count, fuel + 1 =>
    match onGrid? mantissa exponent (lead - count) with
    | some d => d
    | none => shortestFrom mantissa exponent lead (count + 1) fuel

def shortest (mantissa : Nat) (exponent : Int) : Scaled :=
  let (n, d) := scale 2 mantissa 1 exponent
  shortestFrom mantissa exponent (leadingExponent n d) 0 18

end CodeAtlas.Decimal
