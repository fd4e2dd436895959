import CodeAtlas.Text.Segment

/-!
Relative paths with `/` between their segments. A path without `/` has no parent; a parent is
always shorter than its path.
-/
namespace CodeAtlas.Path

open Text

def segments (path : String) : List String := (splitOn '/' path.toList).map String.ofList

def depth (path : String) : Nat := (segments path).length

def parent? (path : String) : Option String :=
  (splitAtLast '/' path.toList).map fun cut => String.ofList cut.1

def lastSegment (path : String) : String :=
  match splitAtLast '/' path.toList with
  | some (_, after) => String.ofList (after.drop 1)
  | none => path

def fileName (path : String) : String :=
  let last := lastSegment path
  if last = "" then path else last

def folderName (path : String) : String :=
  match parent? path with
  | some parent => lastSegment parent
  | none => ""

/-- The end of the file name from its last dot on; empty without a dot. -/
def extension (path : String) : String :=
  match splitAtLast '.' (fileName path).toList with
  | some (_, after) => String.ofList after
  | none => ""

/-- The file name up to its last dot; a dot in front does not count. -/
def baseName (path : String) : String :=
  let name := fileName path
  match splitAtLast '.' name.toList with
  | some (c :: cs, _) => String.ofList (c :: cs)
  | _ => name

def tail2 (path : String) : String :=
  let parts := segments path
  intercalate "/" (parts.drop (parts.length - 2))

theorem append_of_splitAtLast {mark : Char} {s before after : List Char}
    (h : splitAtLast mark s = some (before, after)) :
    before ++ after = s ∧ after.head? = some mark := by
  induction s generalizing before after with
  | nil => simp [splitAtLast] at h
  | cons c cs ih =>
    simp only [splitAtLast] at h
    split at h
    · next b a hb =>
      obtain ⟨rfl, rfl⟩ := by simpa using h
      have := ih hb
      simp [this.1, this.2]
    · split at h
      · next hc =>
        obtain ⟨rfl, rfl⟩ := by simpa using h
        simp [hc]
      · simp at h

theorem length_lt_of_parent? {path parent : String} (h : parent? path = some parent) :
    parent.length < path.length := by
  obtain ⟨⟨before, after⟩, hs, rfl⟩ := Option.map_eq_some_iff.1 h
  have hc := append_of_splitAtLast hs
  have hlen : before.length + after.length = path.length := by
    rw [← List.length_append, hc.1, String.length_toList]
  have : 0 < after.length := by
    cases after with
    | nil => simp at hc
    | cons => simp
  simp only [String.length_ofList]
  omega

end CodeAtlas.Path
