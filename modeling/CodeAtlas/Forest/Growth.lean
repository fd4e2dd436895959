import CodeAtlas.Forest
import CodeAtlas.Table

/-!
The loops behind a forest. It is built in one pass over the entries: all are known by their paths
beforehand, and each in turn is put below the node of its parent path or among the roots, so that a
directory may come before or after what stands below it. It is listed with a stack of the trees that
are still to be listed.
-/
namespace CodeAtlas.Forest

/-- The entries by their paths; the last one of a path stays. -/
def index (entries : List Entry) : Table Entry := Table.ofList (entries.map fun e => (e.path, e))

/-- A forest while it grows: its roots so far, and what has been put below the node of each path. No
path is longer than the bound, so that the nodes come to an end. -/
structure Growth (bound : Nat) where
  roots : List Entry
  below : String → List Entry
  below_fits : ∀ path, ∀ e ∈ below path, Path.parent? e.path = some path ∧ e.path.length ≤ bound

namespace Growth

variable {bound : Nat}

def bare (bound : Nat) : Growth bound := ⟨[], fun _ => [], fun _ _ h => nomatch h⟩

def addRoot (g : Growth bound) (e : Entry) : Growth bound := { g with roots := g.roots ++ [e] }

def addBelow (g : Growth bound) (path : String) (e : Entry)
    (hfits : Path.parent? e.path = some path ∧ e.path.length ≤ bound) : Growth bound where
  roots := g.roots
  below := fun other => if other = path then g.below path ++ [e] else g.below other
  below_fits := by
    intro other child hchild
    split at hchild
    · next hother =>
      subst hother
      rcases List.mem_append.1 hchild with hchild | hchild
      · exact g.below_fits _ child hchild
      · exact List.mem_singleton.1 hchild ▸ hfits
    · exact g.below_fits other child hchild

/-- Puts an entry below the directory that is known under its parent path, if there is one. -/
def add (known : Table Entry) (g : Growth bound) (e : { e : Entry // e.path.length ≤ bound }) :
    Growth bound :=
  match hparent : Path.parent? e.1.path with
  | none => g.addRoot e.1
  | some path =>
    match known.get? path with
    | some parent =>
      if parent.isDirectory then g.addBelow path e.1 ⟨hparent, e.2⟩ else g.addRoot e.1
    | none => g.addRoot e.1

/-- The node that is known under the path of an entry, with all that has been put below it. -/
def tree (known : Table Entry) (g : Growth bound) (e : Entry) : Tree :=
  .node ((known.get? e.path).getD e)
    ((g.below e.path).attach.map fun child => tree known g child.1)
termination_by bound - e.path.length
decreasing_by
  obtain ⟨hparent, hbound⟩ := g.below_fits _ _ child.2
  have hlonger := Path.length_lt_of_parent? hparent
  omega

end Growth

/-- The forest of a list of entries, built in one pass. -/
def grow (entries : List Entry) : Forest :=
  let known := index entries
  let grown := (entries.attachWith (·.path.length ≤ longest entries)
    fun _ he => length_le_longest he).foldl (Growth.add known) (Growth.bare (longest entries))
  grown.roots.map (grown.tree known)

theorem entriesOf_append (forest others : Forest) :
    entriesOf (forest ++ others) = entriesOf forest ++ entriesOf others := by
  induction forest with
  | nil => rw [List.nil_append, entriesOf, List.nil_append]
  | cons t ts ih => rw [List.cons_append, entriesOf, entriesOf, ih, List.append_assoc]

/-- Lists the trees of a stack after what is listed already. The children of a tree take its place
on the stack, the first one on top. -/
def walk (listed : List Entry) : Forest → List Entry
  | [] => listed
  | .node e children :: stack => walk (listed ++ [e]) (children ++ stack)
termination_by stack => (entriesOf stack).length
decreasing_by
  rw [entriesOf_append, entriesOf, entriesOfTree, List.cons_append, List.length_cons]
  exact Nat.lt_succ_self _

end CodeAtlas.Forest
