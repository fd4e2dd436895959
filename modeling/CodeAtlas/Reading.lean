import CodeAtlas.Candidate

/-!
Reading the candidates of a project, a limited number at a time. Reads finish in any order; the
result does not depend on it. Every read is waited for, also after one has failed, and of several
failures the one that comes first in the list counts.
-/
namespace CodeAtlas

/-- A candidate that could not be read. -/
structure ReadFailure where
  path : String
  reason : String
deriving DecidableEq, Repr

def ReadFailure.message (f : ReadFailure) : String :=
  "Failed to read " ++ f.path ++ ": " ++ f.reason

/-- Why a candidate becomes no entry. -/
inductive EntryError where
  | unread (failure : ReadFailure)
  | unfit (fault : Fault)

/-- The outcome of reading a candidate; a directory is not read and has no size of its own. -/
def Candidate.read (c : Candidate) : Except EntryError Entry :=
  if c.isDirectory then .ok (c.toEntry 0 none)
  else
    match c.text, c.size with
    | .error fault, _ => .error (.unread ⟨c.path, fault.text⟩)
    | .ok _, .error fault => .error (.unfit fault)
    | .ok content, .ok size => .ok (c.toEntry size (some content))

/-- A read in progress: the selected candidates, and which of them are done. -/
structure Reading where
  selected : List Candidate
  done : List Bool
  /-- How many reads may be under way at a time. -/
  limit : Nat

namespace Reading

def start (candidates : List Candidate) (limit : Nat) : Reading :=
  let selected := candidates.filter Candidate.isSelected
  ⟨selected, selected.map fun _ => false, limit⟩

def doneCount (r : Reading) : Nat := r.done.count true

/-- Whether the read at a position has begun: reads begin in order, and one more may begin whenever
one is done. -/
def hasBegun (r : Reading) (i : Nat) : Bool := i < r.limit + r.doneCount

def underWay (r : Reading) (i : Nat) : Bool := r.hasBegun i && r.done[i]? == some false

def progress (r : Reading) : Nat := 100 * r.doneCount / r.selected.length

/-- The read at a position finishes, with or without success. -/
def finish (r : Reading) (i : Nat) : Option Reading :=
  if r.underWay i then some { r with done := r.done.set i true } else none

theorem selected_of_finish {r next : Reading} {i : Nat} (h : r.finish i = some next) :
    next.selected = r.selected := by
  unfold finish at h
  split at h
  · cases h
    rfl
  · simp at h

def isDone (r : Reading) : Bool := r.done.all id

def collect : List Candidate → Except EntryError (List Entry)
  | [] => .ok []
  | c :: rest =>
    match c.read with
    | .error e => .error e
    | .ok entry => (collect rest).map (entry :: ·)

/-- The result, once all reads are done. -/
def result? (r : Reading) : Option (Except EntryError (List Entry)) :=
  if r.isDone then some (collect r.selected) else none

def nextReady? (r : Reading) (ready : Nat → Bool) : Option Nat :=
  (List.range r.done.length).find? fun i => r.underWay i && ready i

end Reading

end CodeAtlas
