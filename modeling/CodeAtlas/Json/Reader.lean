import CodeAtlas.Json

/-!
Reading JSON texts. A number written without a point and without an exponent is an integer; any other
keeps its sign, its digits and its power of ten. Commas and colons are not insisted on.
-/
namespace CodeAtlas.Json

abbrev Read (α : Type) := Option (α × List Char)

def skipBlanks (cs : List Char) : List Char :=
  cs.dropWhile fun c => c = ' ' ∨ c = '\t' ∨ c = '\n' ∨ c = '\r'

def digitsValue (base : Nat) (cs : List Char) : Nat :=
  cs.foldl (fun n c => base * n + (if c.isDigit then c.toNat - 48 else c.toLower.toNat - 87)) 0

def unescapedChar : Char → Char
  | 'n' => '\n'
  | 'r' => '\r'
  | 't' => '\t'
  | 'b' => Char.ofNat 8
  | 'f' => Char.ofNat 12
  | c => c

def pairedChar? (high low : Nat) : Option Char :=
  if 0xD800 ≤ high ∧ high < 0xDC00 ∧ 0xDC00 ≤ low ∧ low < 0xE000 then
    some (Char.ofNat (0x10000 + (high - 0xD800) * 0x400 + (low - 0xDC00)))
  else none

def readChar? : List Char → Read Char
  | [] => none
  | '"' :: _ => none
  | '\\' :: 'u' :: a :: b :: c :: d :: cs =>
    let code := digitsValue 16 [a, b, c, d]
    match cs with
    | '\\' :: 'u' :: e :: f :: g :: h :: rest =>
      match pairedChar? code (digitsValue 16 [e, f, g, h]) with
      | some pair => some (pair, rest)
      | none => some (Char.ofNat code, cs)
    | _ => some (Char.ofNat code, cs)
  | '\\' :: c :: cs => some (unescapedChar c, cs)
  | c :: cs => some (c, cs)

def readText : Nat → List Char → List Char → Read String
  | 0, _, _ => none
  | fuel + 1, acc, cs =>
    match readChar? cs with
    | some (c, cs) => readText fuel (c :: acc) cs
    | none =>
      match cs with
      | '"' :: cs => some (String.ofList acc.reverse, cs)
      | _ => none

def readSign : List Char → Bool × List Char
  | '-' :: cs => (true, cs)
  | '+' :: cs => (false, cs)
  | cs => (false, cs)

def afterInfinity? (cs : List Char) : Option (List Char) :=
  let word := "Infinity".toList
  if word.isPrefixOf cs then some (cs.drop word.length) else none

def readNumber (cs : List Char) : Read Json :=
  let (negative, cs) := readSign cs
  match afterInfinity? cs with
  | some rest => some (.infinity negative, rest)
  | none =>
  let whole := cs.takeWhile Char.isDigit
  let cs := cs.dropWhile Char.isDigit
  let (places, cs) : Option (List Char) × List Char := match cs with
    | '.' :: cs => (some (cs.takeWhile Char.isDigit), cs.dropWhile Char.isDigit)
    | cs => (none, cs)
  let (power, cs) : Option Int × List Char := match cs with
    | 'e' :: cs | 'E' :: cs =>
      let (minus, cs) := readSign cs
      let n : Int := digitsValue 10 (cs.takeWhile Char.isDigit)
      (some (if minus then -n else n), cs.dropWhile Char.isDigit)
    | cs => (none, cs)
  if whole.isEmpty then none
  else if places.isNone ∧ power.isNone then
    let n : Int := digitsValue 10 whole
    some (.int (if negative then -n else n), cs)
  else
    let places := places.getD []
    some (.decimal negative (digitsValue 10 (whole ++ places)) (power.getD 0 - places.length), cs)

mutual

def readValue : Nat → List Char → Read Json
  | 0, _ => none
  | fuel + 1, cs =>
    match skipBlanks cs with
    | '"' :: cs => (readText (cs.length + 1) [] cs).map fun r => (.text r.1, r.2)
    | '[' :: cs => readItems fuel [] cs
    | '\x7b' :: cs => readMembers fuel [] cs
    | 't' :: 'r' :: 'u' :: 'e' :: cs => some (.bool true, cs)
    | 'f' :: 'a' :: 'l' :: 's' :: 'e' :: cs => some (.bool false, cs)
    | 'n' :: 'u' :: 'l' :: 'l' :: cs => some (.null, cs)
    | 'N' :: 'a' :: 'N' :: cs => some (.notANumber, cs)
    | cs => readNumber cs

def readItems : Nat → List Json → List Char → Read Json
  | 0, _, _ => none
  | fuel + 1, acc, cs =>
    match skipBlanks cs with
    | ']' :: cs => some (.list acc.reverse, cs)
    | ',' :: cs => readItems fuel acc cs
    | cs =>
      match readValue fuel cs with
      | none => none
      | some (item, cs) => readItems fuel (item :: acc) cs

def readMembers : Nat → List (String × Json) → List Char → Read Json
  | 0, _, _ => none
  | fuel + 1, acc, cs =>
    match skipBlanks cs with
    | '\x7d' :: cs => some (.record acc.reverse, cs)
    | ',' :: cs => readMembers fuel acc cs
    | '"' :: cs =>
      match readText (cs.length + 1) [] cs with
      | none => none
      | some (key, cs) =>
        match readValue fuel ((skipBlanks cs).drop 1) with
        | none => none
        | some (value, cs) => readMembers fuel ((key, value) :: acc) cs
    | _ => none

end

/-- The value that a text stands for. Each step of reading takes a character or goes one level in, so
twice as many steps as there are characters are enough. -/
def ofText? (text : String) : Option Json :=
  let cs := text.toList
  match readValue (2 * cs.length + 2) cs with
  | some (value, rest) => if (skipBlanks rest).isEmpty then some value else none
  | none => none

end CodeAtlas.Json
