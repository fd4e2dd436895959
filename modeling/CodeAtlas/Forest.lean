import CodeAtlas.Entry
import CodeAtlas.Path

/-!
Entries nested by their paths. An entry stands below the directory whose path is its parent path; an
entry without such a directory is a root. Children and roots keep the order of the list.
-/
namespace CodeAtlas

inductive Tree where
  | node (entry : Entry) (children : List Tree)

abbrev Forest := List Tree

namespace Tree

def entry : Tree → Entry
  | node e _ => e

def children : Tree → Forest
  | node _ ts => ts

end Tree

namespace Forest

def latest? (entries : List Entry) (path : String) : Option Entry :=
  entries.reverse.find? (·.path == path)

/-- The entries whose parent path is the given one, in order. -/
def below (entries : List Entry) (path : String) : List Entry :=
  entries.filter fun e => Path.parent? e.path == some path

def isRoot (entries : List Entry) (e : Entry) : Bool :=
  match (Path.parent? e.path).bind (latest? entries) with
  | some parent => !parent.isDirectory
  | none => true

def longest (entries : List Entry) : Nat := entries.foldr (fun e n => max e.path.length n) 0

theorem length_le_longest {entries : List Entry} {e : Entry} (h : e ∈ entries) :
    e.path.length ≤ longest entries := by
  induction entries with
  | nil => simp at h
  | cons first rest ih =>
    rcases List.mem_cons.1 h with rfl | hr
    · exact Nat.le_max_left ..
    · exact Nat.le_trans (ih hr) (Nat.le_max_right ..)

/-- The tree of an entry: everything listed below it, when it is a directory. -/
def subtree (entries : List Entry) (e : Entry) : Tree :=
  let shown := (latest? entries e.path).getD e
  .node shown <|
    if shown.isDirectory then
      (below entries e.path).attach.map fun child => subtree entries child.1
    else []
termination_by longest entries - e.path.length
decreasing_by
  have hc := List.mem_filter.1 child.2
  have hlt := Path.length_lt_of_parent? (beq_iff_eq.1 hc.2)
  have hle := length_le_longest hc.1
  omega

/-- The forest of a list of entries. -/
def ofEntries (entries : List Entry) : Forest :=
  (entries.filter (isRoot entries)).map (subtree entries)

mutual

def entriesOfTree : Tree → List Entry
  | .node e children => e :: entriesOf children

/-- The entries of a forest, each before what stands below it. -/
def entriesOf : Forest → List Entry
  | [] => []
  | t :: ts => entriesOfTree t ++ entriesOf ts

end

end Forest

end CodeAtlas
