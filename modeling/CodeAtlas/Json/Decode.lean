import CodeAtlas.Json.Shown
import CodeAtlas.Table

/-!
Reading what values stand for: texts, numbers, truth values, lists, pairs and the members of a
record. Where a value cannot be read, the cause is kept.
-/
namespace CodeAtlas.Json

/-- Why a value is not read. -/
inductive DecodeError where
  | unknown (what : String)
  /-- The value is not of the kind that a record needs. -/
  | invalid
  | misfit (message : String)
  /-- There is no entry under the value. -/
  | noEntry (key : String)
  | outOfRange
  | tooLarge
deriving Inhabited

def DecodeError.message : DecodeError → String
  | unknown what => what
  | invalid => ""
  | misfit message => message
  | noEntry key => Text.quoted key
  | outOfRange => "list index out of range"
  | tooLarge => "int too large to convert to float"

abbrev Decode := Except DecodeError

namespace Decode

variable {α β : Type}

def orInvalid (value : Option α) : Decode α := (value.map .ok).getD (.error .invalid)

def asText : Json → Decode String
  | text s => .ok s
  | _ => .error .invalid

def asInt (v : Json) : Decode Int := orInvalid v.integer?

def asFloat (v : Json) : Decode Float := orInvalid v.number?

def asBool (v : Json) : Decode Bool := orInvalid v.truth?

def asReal : Json → Decode Float
  | int n => (((int n).number?).map .ok).getD (.error .tooLarge)
  | v => asFloat v

def asCount : Json → Decode Int
  | int n => .ok n
  | bool b => .ok (if b then 1 else 0)
  | v => .error (.misfit ("'" ++ v.kindName ++ "' object cannot be interpreted as an integer"))

def asPosition (count : Nat) (v : Json) : Decode Nat :=
  let within (i : Int) : Decode Nat :=
    let i := if i < 0 then i + count else i
    if 0 ≤ i && i < count then .ok i.toNat else .error .outOfRange
  match v with
  | int i => within i
  | bool b => within (if b then 1 else 0)
  | v => .error (.misfit ("list indices must be integers or slices, not " ++ v.kindName))

def asKey (noun : String) : Json → Decode String
  | text s => .ok s
  | list items => .error (.misfit ("unhashable type: '" ++ (list items).kindName ++ "'"))
  | record members => .error (.misfit ("unhashable type: '" ++ (record members).kindName ++ "'"))
  | v => .error (.noEntry ("Unknown " ++ noun ++ ": " ++ v.shown))

def asList : Json → Decode (List Json)
  | list items => .ok items
  | _ => .error .invalid

def listOf (read : Json → Decode α) (v : Json) : Decode (List α) := do (← asList v).mapM read

def asTexts : Json → Decode (List String) := listOf asText

def pairOf (first : Json → Decode α) (second : Json → Decode β) : Json → Decode (α × β)
  | list [a, b] => do return (← first a, ← second b)
  | _ => .error .invalid

/-- A table given as pairs. Of several values under a key the last one counts, and it alone has to
be readable. -/
def tableOf (read : Json → Decode α) (v : Json) : Decode (Table α) := do
  let table := Table.ofList (← listOf (pairOf asText .ok) v)
  return Table.ofList (← table.entries.mapM fun entry => do return (entry.1, ← read entry.2))

def needed (v : Json) (key : String) (read : Json → Decode α) : Decode α :=
  ((v.member? key).map read).getD (.error .invalid)

/-- A member that may be missing, but not null. -/
def orMissing (v : Json) (key : String) (fallback : α) (read : Json → Decode α) : Decode α :=
  ((v.member? key).map read).getD (.ok fallback)

def given? (v : Json) (key : String) : Option Json :=
  match v.member? key with
  | some null => none
  | other => other

def optional (v : Json) (key : String) (read : Json → Decode α) : Decode (Option α) :=
  match given? v key with
  | some m => (read m).map some
  | none => .ok none

def orNull (v : Json) (key : String) (fallback : α) (read : Json → Decode α) : Decode α :=
  (optional v key read).map (·.getD fallback)

def flag (v : Json) (key : String) : Bool := (v.member? key).any isTruthy

def unlessFlag (v : Json) (key : String) : Bool := (v.member? key).all isTruthy

end Decode

end CodeAtlas.Json
