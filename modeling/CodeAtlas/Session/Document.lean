import CodeAtlas.Json

/-!
What the listeners of a session are told, and the same as a JSON document.
-/
namespace CodeAtlas.Session

inductive Status where
  | idle | uploading | analyzing | success | error
deriving DecidableEq, Repr

def Status.name : Status → String
  | idle => "idle"
  | uploading => "uploading"
  | analyzing => "analyzing"
  | success => "success"
  | error => "error"

/-- What a listener is told. -/
structure Snapshot where
  status : Status
  progress : Nat
  error : Option String
  hasResult : Bool
deriving DecidableEq, Repr

def Snapshot.toJson (s : Snapshot) : Json :=
  .record [("status", .text s.status.name), ("progress", .int s.progress),
    ("error", (s.error.map Json.text).getD .null), ("has_result", .bool s.hasResult)]

end CodeAtlas.Session
