import CodeAtlas.Decimal.Shortest

/-!
The texts of floats. With a fixed number of decimal places the exact value is rounded once, a half
to the even neighbour, and the sign stays even where only zeros remain. The shortest decimal is laid
out with at least one place for decimal exponents from -4 to 15, else with an exponent of two digits
or more.
-/
namespace CodeAtlas.Decimal

def placed (places n : Nat) : List Char :=
  let digits := Nat.toDigits 10 n
  let digits := List.replicate (places + 1 - digits.length) '0' ++ digits
  let whole := digits.take (digits.length - places)
  if places = 0 then whole else whole ++ '.' :: digits.drop (digits.length - places)

def fixed (places : Nat) (x : Float) : String :=
  match Value.ofFloat x with
  | .nan => "nan"
  | .infinite negative => if negative then "-inf" else "inf"
  | .finite negative mantissa exponent =>
    let (n, d) := scale 2 (mantissa * Nat.pow 10 places) 1 exponent
    String.ofList ((if negative then ['-'] else []) ++ placed places (roundDiv n d))

def Scaled.normal (d : Scaled) : List Char × Int :=
  let digits := Nat.toDigits 10 d.digits
  let kept := (digits.reverse.dropWhile (· == '0')).reverse
  (if kept.isEmpty then ['0'] else kept, digits.length + d.power - 1)

def layOut (digits : List Char) (exponent : Int) : List Char :=
  if exponent < -4 || 16 ≤ exponent then
    let power := Nat.toDigits 10 exponent.natAbs
    let power := List.replicate (2 - power.length) '0' ++ power
    let tail := digits.drop 1
    digits.take 1 ++ (if tail.isEmpty then [] else '.' :: tail) ++
      'e' :: (if exponent < 0 then '-' else '+') :: power
  else if exponent < 0 then
    '0' :: '.' :: List.replicate (exponent.natAbs - 1) '0' ++ digits
  else
    let whole := exponent.toNat + 1
    let tail := digits.drop whole
    digits.take whole ++ List.replicate (whole - digits.length) '0' ++
      '.' :: (if tail.isEmpty then ['0'] else tail)

def shortestText (x : Float) : String :=
  match Value.ofFloat x with
  | .nan => "nan"
  | .infinite negative => if negative then "-inf" else "inf"
  | .finite negative mantissa exponent =>
    let body := if mantissa = 0 then ['0', '.', '0'] else
      let (digits, lead) := (shortest mantissa exponent).normal
      layOut digits lead
    String.ofList (if negative then '-' :: body else body)

end CodeAtlas.Decimal
