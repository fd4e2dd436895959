import CodeAtlas.Json
import CodeAtlas.Text.Numeral

/-!
The numbers and truth values that JSON values stand for. Each may be given as the other, or as a
text that spells it.
-/
namespace CodeAtlas.Json

def wholeNumber? (x : Float) : Option Int :=
  if x.floor == x && x.abs < 9223372036854775808.0 then some x.toInt64.toInt else none

def hasDoubledUnderscore : List Char → Bool
  | a :: b :: rest => (a == '_' && b == '_') || hasDoubledUnderscore (b :: rest)
  | _ => false

/-- A numeral without its underscores. They have to stand one by one, and not at an end. -/
def withoutUnderscores? (numeral : List Char) : Option (List Char) :=
  if numeral.head? == some '_' || numeral.getLast? == some '_' || hasDoubledUnderscore numeral then
    none
  else some (numeral.filter (· != '_'))

/-- A numeral behind a zero without the zeros and underscores in front: up to the last of them where
nothing or a point follows. -/
def behindZero? (last : Char) : List Char → Option (List Char)
  | [] => some [last]
  | c :: rest =>
    if c = '0' || c = '_' then behindZero? c rest
    else if c = '.' then some (last :: c :: rest)
    else if c = '-' || c.isDigit then some (c :: rest)
    else none

/-- A numeral without the zeros in front; it has to start with a digit or a minus. -/
def withoutZeros? : List Char → Option (List Char)
  | [] => none
  | c :: rest =>
    if c = '0' then behindZero? c rest
    else if c = '-' || c.isDigit then some (c :: rest)
    else none

/-- A numeral up to its point, if zeros and nothing else stand behind the point. -/
def withoutPlaces (numeral : List Char) : List Char :=
  match numeral.dropWhile (· != '.') with
  | _ :: '0' :: places =>
    if places.all (· == '0') then numeral.takeWhile (· != '.') else numeral
  | _ => numeral

def plainInteger? (numeral : List Char) : Option Int :=
  let (negative, digits) := match numeral with
    | '-' :: rest => (true, rest)
    | _ => (false, numeral)
  if digits.isEmpty || !digits.all Char.isDigit || (digits.head? == some '0' && digits != ['0']) ||
      Text.digitLimit < numeral.length then none
  else
    let value : Int := Text.ofDigits (digits.filterMap Text.digitValue?)
    some (if negative then -value else value)

/-- The whole number that a text spells. Blanks around it, a plus, zeros in front, single underscores
and zeros behind a point make no difference. -/
def spelledInteger? (text : String) : Option Int := do
  let numeral := Text.trimBoth Text.isNumeralBlank text.toList
  let (negative, body) := Text.signRun numeral
  guard !(numeral.head? == some '+' && body.head? == some '-')
  let plain ← withoutUnderscores? (withoutPlaces (← withoutZeros? body))
  plainInteger? (if negative then '-' :: plain else plain)

def isNumeralChar (c : Char) : Bool := c.isAlphanum || c = '+' || c = '-' || c = '.'

def plainNumber? (numeral : List Char) : Option Float :=
  if numeral.all isNumeralChar then Text.float? (String.ofList numeral) else none

/-- The number that a text spells. Either blanks stand around it or underscores in it. -/
def spelledNumber? (text : String) : Option Float :=
  (plainNumber? (Text.trimBoth Text.isNumeralBlank text.toList)).or
    ((withoutUnderscores? text.toList).bind plainNumber?)

def number? : Json → Option Float
  | int n => some (Decimal.nearestDecimal (n < 0) n.natAbs 0) |>.filter Float.isFinite
  | decimal negative digits power => some (Decimal.nearestDecimal negative digits power)
  | infinity negative => some (if negative then -1.0 / 0.0 else 1.0 / 0.0)
  | notANumber => some (0.0 / 0.0)
  | bool b => some (if b then 1.0 else 0.0)
  | text s => spelledNumber? s
  | _ => none

def integer? : Json → Option Int
  | int n => some n
  | bool b => some (if b then 1 else 0)
  | text s => spelledInteger? s
  | decimal negative digits power => wholeNumber? (Decimal.nearestDecimal negative digits power)
  | _ => none

def truthWords : List (String × Bool) := [
  ("0", false), ("off", false), ("f", false), ("false", false), ("n", false), ("no", false),
  ("1", true), ("on", true), ("t", true), ("true", true), ("y", true), ("yes", true)]

def truth? : Json → Option Bool
  | bool b => some b
  | text s => truthWords.lookup (String.ofList (s.toList.map Char.toLower))
  | j =>
    match j.integer? with
    | some 0 => some false
    | some 1 => some true
    | _ => none

def isTruthy : Json → Bool
  | null => false
  | bool b => b
  | text s => s != ""
  | list items => !items.isEmpty
  | record members => !members.isEmpty
  | int n => n != 0
  | number => !(number.number? |>.any (· == 0.0))

end CodeAtlas.Json
