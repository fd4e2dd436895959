import CodeAtlas.Text.Quoted

/-!
JSON values with the members of an object in a fixed order, and their texts, on indented lines or
without any space.
-/
namespace CodeAtlas

inductive Json where
  | null
  | bool (value : Bool)
  | int (value : Int)
  | decimal (negative : Bool) (digits : Nat) (power : Int)
  | infinity (negative : Bool)
  /-- What is no number where a number is expected. -/
  | notANumber
  | text (value : String)
  | list (items : List Json)
  | record (members : List (String × Json))
deriving Inhabited

namespace Json

/-- The last member of an object under a key. -/
def member? (j : Json) (key : String) : Option Json :=
  match j with
  | record members => members.reverse.lookup key
  | _ => none

def escapedChar (c : Char) : List Char :=
  if c = '"' then ['\\', '"']
  else if c = '\\' then ['\\', '\\']
  else if 0x20 ≤ c.toNat then [c]
  else if c = '\n' then ['\\', 'n']
  else if c = '\r' then ['\\', 'r']
  else if c = '\t' then ['\\', 't']
  else if c.toNat = 8 then ['\\', 'b']
  else if c.toNat = 12 then ['\\', 'f']
  else '\\' :: 'u' :: Text.hexadecimal 4 c.toNat

def quotedText (value : String) : String :=
  String.ofList ('"' :: value.toList.flatMap escapedChar ++ ['"'])

structure Spacing where
  newline : Nat → String
  colon : String

def Spacing.compact : Spacing := ⟨fun _ => "", ":"⟩

def Spacing.indented : Spacing := ⟨fun level => "\n" ++ "".pushn ' ' (2 * level), ": "⟩

mutual

def render (s : Spacing) (level : Nat) : Json → String
  | null => "null"
  | bool b => if b then "true" else "false"
  | int n => toString n
  | decimal negative digits power =>
    (if negative then "-" else "") ++ toString digits ++ "e" ++ toString power
  | infinity negative => if negative then "-Infinity" else "Infinity"
  | notANumber => "NaN"
  | text t => quotedText t
  | list [] => "[]"
  | list (item :: items) =>
    "[" ++ s.newline (level + 1) ++ render s (level + 1) item ++
      renderItems s (level + 1) items ++ s.newline level ++ "]"
  | record [] => "\x7b\x7d"
  | record (member :: members) =>
    "\x7b" ++ s.newline (level + 1) ++ renderMember s (level + 1) member ++
      renderMembers s (level + 1) members ++ s.newline level ++ "\x7d"

def renderItems (s : Spacing) (level : Nat) : List Json → String
  | [] => ""
  | item :: items => "," ++ s.newline level ++ render s level item ++ renderItems s level items

def renderMember (s : Spacing) (level : Nat) : String × Json → String
  | (key, value) => quotedText key ++ s.colon ++ render s level value

def renderMembers (s : Spacing) (level : Nat) : List (String × Json) → String
  | [] => ""
  | member :: members =>
    "," ++ s.newline level ++ renderMember s level member ++ renderMembers s level members

end

def compact (j : Json) : String := j.render .compact 0

def indented (j : Json) : String := j.render .indented 0

end Json

end CodeAtlas
