import CodeAtlas.Decimal.Binary64

/-!
The numbers that a layout is computed with. Layouts and views are written over any such numbers, so
that they can be run on floats and reasoned about on exact fractions.
-/
namespace CodeAtlas

class Scalar (α : Type) extends Add α, Sub α, Mul α, Neg α, Div α where
  zero : α
  one : α
  half : α
  ofRatio : Int → Nat → α
  finite : α → Bool
  less : α → α → Bool
  same : α → α → Bool
  sqrt : α → α
  cos : α → α
  sin : α → α

namespace Scalar

variable {α : Type} [Scalar α]

def ofNat (n : Nat) : α := ofRatio n 1

/-- The first number does not exceed the second; never true of what cannot be compared. -/
def atMost (a b : α) : Bool := less a b || same a b

def div? (a b : α) : Option α := if same b zero then none else some (a / b)

def clamp (value low high : α) : α :=
  let capped := if less value high then value else high
  if less low capped then capped else low

def sum (xs : List α) : α := xs.foldl (· + ·) zero

end Scalar

/-- The little that layouts and views ask of their numbers. -/
class LawfulScalar (α : Type) [Scalar α] : Prop where
  sub_zero (a : α) : a - Scalar.zero = a
  div_one (a : α) : a / Scalar.one = a
  less_self (a : α) : Scalar.less a a = false
  one_not_less_thousandth : Scalar.less Scalar.one (Scalar.ofRatio 1 1000 : α) = false

instance : Scalar Float where
  zero := 0
  one := 1
  half := 0.5
  ofRatio num den := Decimal.nearestFloat (num < 0) num.natAbs den
  finite x := x.isFinite
  less a b := a < b
  same a b := a == b
  sqrt := Float.sqrt
  cos := Float.cos
  sin := Float.sin

/-- Exact fractions, with any functions in place of the root and the circular functions. -/
@[reducible] def Scalar.exact (root cosine sine : Rat → Rat) : Scalar Rat where
  zero := 0
  one := 1
  half := 1 / 2
  ofRatio num den := num / den
  finite _ := true
  less a b := a < b
  same a b := a == b
  sqrt := root
  cos := cosine
  sin := sine

end CodeAtlas
