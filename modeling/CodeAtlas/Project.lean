import CodeAtlas.Analysis
import CodeAtlas.Reading

/-!
Reading and analysing a project in one go, each read finishing in its turn.
-/
namespace CodeAtlas

inductive ProjectError where
  | read (failure : ReadFailure)
  | raised (fault : Fault)
  | negativeLimit

namespace ProjectError

def message : ProjectError → String
  | read failure => failure.message
  | raised fault => fault.text
  | negativeLimit => "Semaphore initial value must be >= 0"

def ofEntryError : EntryError → ProjectError
  | .unread failure => read failure
  | .unfit fault => raised fault

end ProjectError

namespace Project

def progressOf (total : Nat) : List Nat := (List.range total).map fun k => 100 * (k + 1) / total

/-- A limit of its own, unless it is missing or zero. -/
def limitOf (own : Option Int) (fallback : Int) : Except ProjectError Nat :=
  let limit := match own with
    | some n => if n = 0 then fallback else n
    | none => fallback
  if limit < 0 then .error .negativeLimit else .ok limit.toNat

/-- Whether reading comes to an end. With a limit of zero no read ever begins, so that it does only
if there is nothing to read. -/
def ends (candidates : List Candidate) (limit : Nat) : Bool :=
  0 < limit || (candidates.filter Candidate.isSelected).isEmpty

/-- The percentages heard, and the entries or the first error, of a reading that ends. -/
def read (candidates : List Candidate) (own : Option Int) (fallback : Int) :
    List Nat × Except ProjectError (List Entry) :=
  match limitOf own fallback with
  | .error e => ([], .error e)
  | .ok _ =>
    let selected := candidates.filter Candidate.isSelected
    (progressOf selected.length, (Reading.collect selected).mapError .ofEntryError)

def nameOf (name : Option String) (candidates : List Candidate) : String :=
  match name.filter (· != "") with
  | some given => given
  | none => Candidate.projectName candidates

def analyze (candidates : List Candidate) (name : Option String) (extract : Extractor)
    (limit : Int) : List Nat × Except ProjectError Analysis :=
  let (progress, entries) := read candidates none limit
  (progress, do
    let entries ← entries
    (Analysis.ofEntries (nameOf name candidates) entries extract).mapError .raised)

def skippedCount (candidates : List Candidate) : Nat :=
  (candidates.filter fun c => !c.isSelected).length

end Project

end CodeAtlas
