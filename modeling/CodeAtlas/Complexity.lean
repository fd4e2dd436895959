import CodeAtlas.Text.Scan
import CodeAtlas.Text.Segment

/-!
A rough measure of how much a file holds: a tenth for each line, two for each function word, one and
a half for each word of a condition or loop, rounded to the nearest whole number, a half upwards.
-/
namespace CodeAtlas.Complexity

def functionWords : List (List Char) := ["function".toList, "=>".toList, "class".toList]

def conditionWords : List (List Char) :=
  ["if".toList, "else".toList, "switch".toList, "case".toList, "while".toList, "for".toList]

def functionCount (content : String) : Nat := Text.countWords functionWords content.toList

def conditionCount (content : String) : Nat := Text.countWords conditionWords content.toList

/-- The nearest whole number, the larger one for a half. -/
def roundHalfUp (x : Rat) : Int := (x + 1 / 2).floor

def weight (lines functions conditions : Nat) : Rat :=
  lines * (1 / 10) + functions * 2 + conditions * (3 / 2)

def ofContent (content : String) : Int :=
  roundHalfUp (weight (Text.lineCount content) (functionCount content) (conditionCount content))

end CodeAtlas.Complexity
