import CodeAtlas.Linkage.Import

/-!
What ties a file to others: what it imports, what it exports, and what it depends on. Nothing is
looked up: a file depends on the targets of its imports, written as they are. An export phrase is
`export`, perhaps `default`, the word of a declaration and the declared name; its blanks and names
are those of ASCII.
-/
namespace CodeAtlas

namespace Linkage

open Text

def isNameChar (c : Char) : Bool := c.isAlphanum || c == '_'

def declarationWords : List (List Char) :=
  ["function".toList, "class".toList, "const".toList, "let".toList, "var".toList]

def spacedWord (words : List (List Char)) (text : List Char) : Option Nat :=
  match wordAt words text with
  | none => none
  | some (_, length) =>
    let blanks := (text.drop length).takeWhile isAsciiBlank
    if blanks.isEmpty then none else some (length + blanks.length)

def declarationAt : Matcher (List Char) := fun text =>
  match spacedWord declarationWords text with
  | none => none
  | some length =>
    let name := (text.drop length).takeWhile isNameChar
    if name.isEmpty then none else some (name, length + name.length)

def exportAt : Matcher (List Char) := fun text =>
  match spacedWord ["export".toList] text with
  | none => none
  | some opening =>
    let length := opening + (spacedWord ["default".toList] (text.drop opening)).getD 0
    (declarationAt (text.drop length)).map fun found => (found.1, length + found.2)

def exportsOf (content : String) : List String :=
  (scan exportAt content.toList).map String.ofList

end Linkage

structure Linkage where
  imports : List String := []
  exports : List String := []
  dependencies : List String := []
deriving DecidableEq, Repr

def Linkage.ofContent (content : String) : Linkage :=
  let imports := importsOf content
  { imports, exports := exportsOf content, dependencies := imports }

end CodeAtlas
