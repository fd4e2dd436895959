import CodeAtlas.Decimal.Binary64
import CodeAtlas.Text.Blank

/-!
Reading whole and decimal numbers. Blanks may stand around a numeral, a sign before it and single
underscores between its digits. Digits may come from any script: every script has its ten in a row,
so that a table of the zeros is enough.
-/
namespace CodeAtlas.Text

def digitZeros : Array Nat := #[
  48, 1632, 1776, 1984, 2406, 2534, 2662, 2790, 2918, 3046,
  3174, 3302, 3430, 3558, 3664, 3792, 3872, 4160, 4240, 6112,
  6160, 6470, 6608, 6784, 6800, 6992, 7088, 7232, 7248, 42528,
  43216, 43264, 43472, 43504, 43600, 44016, 65296, 66720, 68912, 69734,
  69872, 69942, 70096, 70384, 70736, 70864, 71248, 71360, 71472, 71904,
  72016, 72784, 73040, 73120, 92768, 92864, 93008, 120782, 120792, 120802,
  120812, 120822, 123200, 123632, 125264, 130032]

def digitValue? (c : Char) : Option Nat :=
  let n := c.toNat
  if n < 128 then (if 48 ≤ n && n ≤ 57 then some (n - 48) else none)
  else (digitZeros.find? fun z => z ≤ n && n ≤ z + 9).map (n - ·)

/-- The digits at the front and the rest. An underscore is passed over between two digits. -/
def digitRunFrom (afterDigit : Bool) : List Char → List Nat × List Char
  | [] => ([], [])
  | c :: cs =>
    match digitValue? c with
    | some d =>
      let (ds, rest) := digitRunFrom true cs
      (d :: ds, rest)
    | none =>
      if c = '_' && afterDigit && (cs.head?.bind digitValue?).isSome then digitRunFrom false cs
      else ([], c :: cs)

def digitRun (text : List Char) : List Nat × List Char := digitRunFrom false text

def ofDigits (digits : List Nat) : Nat := digits.foldl (fun n d => 10 * n + d) 0

def signRun : List Char → Bool × List Char
  | '-' :: cs => (true, cs)
  | '+' :: cs => (false, cs)
  | cs => (false, cs)

/-- Why a text is no whole number. -/
inductive NumeralError where
  | malformed
  | tooLong (digits : Nat)

def digitLimit : Nat := 4300

def isDigitOrUnderscore (c : Char) : Bool := (digitValue? c).isSome || c = '_'

/-- The whole number that a text spells. The front of digits and underscores is looked at first, then
its length, and only then what stands behind it. -/
def integer? (text : String) : Except NumeralError Int :=
  let (negative, body) := signRun (trimBoth isNumeralBlank text.toList)
  let (digits, stray) := digitRun (body.takeWhile isDigitOrUnderscore)
  if digits.isEmpty || !stray.isEmpty then .error .malformed
  else if digitLimit < digits.length then .error (.tooLong digits.length)
  else if !body.all isDigitOrUnderscore then .error .malformed
  else .ok (if negative then -(ofDigits digits : Int) else ofDigits digits)

/-- The exponent at the front; nothing is taken where no digit follows the mark. -/
def exponentRun : List Char → Int × List Char
  | mark :: cs =>
    if mark = 'e' || mark = 'E' then
      let (negative, rest) := signRun cs
      let (digits, rest) := digitRun rest
      if digits.isEmpty then (0, mark :: cs)
      else (if negative then -(ofDigits digits : Int) else ofDigits digits, rest)
    else (0, mark :: cs)
  | [] => (0, [])

def float? (text : String) : Option Float :=
  let (negative, body) := signRun (trimBoth isNumeralBlank text.toList)
  let word := String.ofList (body.map Char.toLower)
  if word = "inf" || word = "infinity" then some (if negative then -(1.0 / 0.0) else 1.0 / 0.0)
  else if word = "nan" then some (0.0 / 0.0)
  else
    let (whole, rest) := digitRun body
    let (places, rest) := match rest with
      | '.' :: rest => digitRun rest
      | rest => ([], rest)
    if whole.isEmpty && places.isEmpty then none
    else
      let (power, rest) := exponentRun rest
      if rest.isEmpty then
        some (Decimal.nearestDecimal negative (ofDigits (whole ++ places)) (power - places.length))
      else none

end CodeAtlas.Text
