import CodeAtlas.Text.Casing.Table

/-!
Capital and small forms of a text. The small form of a capital sigma depends on its neighbours: at
the end of a word it is the final one.
-/
namespace CodeAtlas.Text

namespace Casing

def within (ranges : Array (Nat × Nat)) (c : Char) : Bool :=
  ranges.any fun r => r.1 ≤ c.toNat && c.toNat ≤ r.2

def moved (runs : Array Run) (c : Char) : Char :=
  match runs.find? fun r => r.first ≤ c.toNat && c.toNat ≤ r.last &&
      (c.toNat - r.first) % r.step == 0 with
  | some r => Char.ofNat (c.toNat + r.shift).toNat
  | none => c

def meetsLetter (text : List Char) : Bool :=
  match text.dropWhile (within passedRanges) with
  | c :: _ => within casedRanges c
  | [] => false

def lowerChar (c : Char) : List Char :=
  if c.toNat < 128 then [c.toLower]
  else if c = 'İ' then ['i', Char.ofNat 0x307]
  else [moved lowerRuns c]

def lowerFrom (before : List Char) : List Char → List Char
  | [] => []
  | c :: after =>
    (if c = 'Σ' then [if meetsLetter before && !meetsLetter after then 'ς' else 'σ']
     else lowerChar c) ++ lowerFrom (c :: before) after

def upperChar (c : Char) : List Char :=
  if c.toNat < 128 then [c.toUpper]
  else match wideUppers.find? (·.1 == c.toNat) with
    | some (_, form) => form.map Char.ofNat
    | none => [moved upperRuns c]

end Casing

def lower (text : String) : String := String.ofList (Casing.lowerFrom [] text.toList)

def upper (text : String) : String := String.ofList (text.toList.flatMap Casing.upperChar)

end CodeAtlas.Text
