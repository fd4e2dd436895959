/-!
The loops that tick a diagram in the background. A loop is created, wakes up from time to time, and
ends by itself or is cancelled; a diagram has at most one current loop.
-/
namespace CodeAtlas

/-- A created loop has not run yet; a sleeping one has. -/
inductive LoopState where
  | created | sleeping | finished | cancelled
deriving DecidableEq, Repr

def LoopState.live (s : LoopState) : Bool := s = .created || s = .sleeping

structure Loops where
  states : List LoopState := []
  current : Option Nat := none

namespace Loops

def currentState? (l : Loops) : Option LoopState := l.current.bind (l.states[·]?)

def running (l : Loops) : Bool := l.currentState?.any LoopState.live

/-- Creates a loop, unless one is running. -/
def start (l : Loops) : Loops :=
  if l.running then l else ⟨l.states ++ [.created], some l.states.length⟩

def stop (l : Loops) : Loops :=
  match l.current with
  | some n => ⟨if l.running then l.states.set n .cancelled else l.states, none⟩
  | none => l

def resume (l : Loops) : Loops :=
  if l.current.isSome && !l.running then start { l with current := none } else l

def restart (l : Loops) : Loops := if l.running then l.stop.start else l.stop

def live (l : Loops) : List Nat :=
  (List.range l.states.length).filter fun n => l.states[n]?.any LoopState.live

/-- The loops that have not run yet. -/
def fresh (l : Loops) : List Nat :=
  (List.range l.states.length).filter fun n => l.states[n]? == some .created

end Loops

end CodeAtlas
