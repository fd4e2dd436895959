import CodeAtlas.Decimal.Fixed
import CodeAtlas.Json.Value
import CodeAtlas.Text.Quoted
import CodeAtlas.Text.Segment

/-!
Values as messages show them: texts between quotes, floats by their shortest text, lists and records
in brackets.
-/
namespace CodeAtlas.Json

mutual

def shown : Json → String
  | null => "None"
  | bool b => if b then "True" else "False"
  | int n => toString n
  | text s => Text.quoted s
  | list items => "[" ++ Text.intercalate ", " (shownItems items) ++ "]"
  | record members => "\x7b" ++ Text.intercalate ", " (shownMembers members) ++ "\x7d"
  | infinity negative => if negative then "-inf" else "inf"
  | notANumber => "nan"
  | decimal negative digits power =>
    Decimal.shortestText (Decimal.nearestDecimal negative digits power)

def shownItems : List Json → List String
  | [] => []
  | item :: items => shown item :: shownItems items

def shownMembers : List (String × Json) → List String
  | [] => []
  | (key, value) :: members => (Text.quoted key ++ ": " ++ shown value) :: shownMembers members

end

def kindName : Json → String
  | null => "NoneType"
  | bool _ => "bool"
  | int _ => "int"
  | text _ => "str"
  | list _ => "list"
  | record _ => "dict"
  | _ => "float"

end CodeAtlas.Json
