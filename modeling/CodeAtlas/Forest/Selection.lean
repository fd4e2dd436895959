import CodeAtlas.Forest
import CodeAtlas.Text.Casing

/-!
The part of a forest that answers a search. Files are kept if they pass, directories if something
below them is kept.
-/
namespace CodeAtlas

namespace Forest

/-- A search for a part of the name, in any case, and for an exact extension. Empty means any. -/
structure Query where
  search : Option String := none
  extension : Option String := none

def Query.accepts (q : Query) (e : Entry) : Bool :=
  (match q.search with
    | some term => term == "" || Text.contains (Text.lower term) (Text.lower e.name)
    | none => true) &&
  (match q.extension with
    | some extension => extension == "" || e.extension.getD "" == extension
    | none => true)

mutual

def selectTree (q : Query) : Tree → Option Tree
  | .node e children =>
    if e.isDirectory then
      match select q children with
      | [] => none
      | kept => some (.node e kept)
    else if q.accepts e then some (.node e children) else none

def select (q : Query) : Forest → Forest
  | [] => []
  | t :: ts =>
    match selectTree q t with
    | some kept => kept :: select q ts
    | none => select q ts

end

end Forest

end CodeAtlas
