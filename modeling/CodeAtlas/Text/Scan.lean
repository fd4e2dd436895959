/-!
Scanning a text from the left for occurrences that do not overlap. A matcher looks at the text
from one position on and answers with what it found there and the number of characters it covers.
-/
namespace CodeAtlas.Text

/-- Recognises an occurrence at the front of a text: the value found and its length. -/
abbrev Matcher (β : Type) := List Char → Option (β × Nat)

/-- Passes over `skip` characters, then collects the leftmost occurrence, the leftmost one after
its end, and so on. An occurrence covers at least one character. -/
def scanFrom {β : Type} (matcher : Matcher β) : Nat → List Char → List β
  | _, [] => []
  | skip + 1, _ :: cs => scanFrom matcher skip cs
  | 0, c :: cs =>
    match matcher (c :: cs) with
    | some (found, length) => found :: scanFrom matcher (length - 1) cs
    | none => scanFrom matcher 0 cs

def scan {β : Type} (matcher : Matcher β) (text : List Char) : List β := scanFrom matcher 0 text

def wordAt (words : List (List Char)) : Matcher (List Char) := fun text =>
  (words.find? (·.isPrefixOf text)).map fun word => (word, word.length)

def countWords (words : List (List Char)) (text : List Char) : Nat :=
  (scan (wordAt words) text).length

end CodeAtlas.Text
