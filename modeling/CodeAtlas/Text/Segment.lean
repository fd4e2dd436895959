/-!
Cutting a text at a separator and finding one text inside another. Cutting loses nothing:
joining the pieces gives the text back.
-/
namespace CodeAtlas.Text

/-- The pieces between the separators; a text without separator is its own only piece. -/
def splitOn (sep : Char) : List Char → List (List Char)
  | [] => [[]]
  | c :: cs =>
    if c = sep then [] :: splitOn sep cs
    else match splitOn sep cs with
      | [] => [[c]]
      | piece :: pieces => (c :: piece) :: pieces

def joinWith (sep : Char) : List (List Char) → List Char
  | [] => []
  | [piece] => piece
  | piece :: next :: pieces => piece ++ sep :: joinWith sep (next :: pieces)

theorem splitOn_ne_nil (sep : Char) (s : List Char) : splitOn sep s ≠ [] := by
  cases s with
  | nil => simp [splitOn]
  | cons c cs =>
    simp only [splitOn]
    split
    · simp
    · split <;> simp

theorem joinWith_splitOn (sep : Char) (s : List Char) : joinWith sep (splitOn sep s) = s := by
  induction s with
  | nil => rfl
  | cons c cs ih =>
    obtain ⟨piece, pieces, h⟩ := List.exists_cons_of_ne_nil (splitOn_ne_nil sep cs)
    by_cases hc : c = sep
    · rw [h] at ih
      simp [splitOn, hc, h, joinWith, ih]
    · rw [h] at ih
      cases pieces with
      | nil => simpa [splitOn, hc, h, joinWith] using ih
      | cons next rest => simpa [splitOn, hc, h, joinWith] using ih

theorem length_splitOn (sep : Char) (s : List Char) :
    (splitOn sep s).length = s.count sep + 1 := by
  induction s with
  | nil => rfl
  | cons c cs ih =>
    obtain ⟨piece, pieces, h⟩ := List.exists_cons_of_ne_nil (splitOn_ne_nil sep cs)
    by_cases hc : c = sep
    · subst hc
      simp [splitOn, ih]
    · rw [h] at ih
      simp [splitOn, hc, h, ← ih]

def occursIn (needle : List Char) : List Char → Bool
  | [] => needle.isEmpty
  | c :: cs => needle.isPrefixOf (c :: cs) || occursIn needle cs

theorem occursIn_iff (needle s : List Char) : occursIn needle s = true ↔ needle <:+: s := by
  induction s with
  | nil => simp [occursIn]
  | cons c cs ih => simp [occursIn, ih, List.infix_cons_iff]

def splitAtLast (mark : Char) : List Char → Option (List Char × List Char)
  | [] => none
  | c :: cs =>
    match splitAtLast mark cs with
    | some (before, after) => some (c :: before, after)
    | none => if c = mark then some ([], c :: cs) else none

/-- The number of lines: one more than the number of line feeds. -/
def lineCount (text : String) : Nat := text.toList.count '\n' + 1

def contains (needle text : String) : Bool := occursIn needle.toList text.toList

def intercalate (sep : String) : List String → String
  | [] => ""
  | [text] => text
  | text :: next :: texts => text ++ sep ++ intercalate sep (next :: texts)

end CodeAtlas.Text
