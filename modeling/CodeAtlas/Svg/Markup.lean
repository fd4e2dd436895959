/-!
Markup texts: fixed parts that are written as they are, and shown texts whose special characters are
escaped. Unescaping gives the shown text back.
-/
namespace CodeAtlas.Svg

def escapeChar (c : Char) : List Char :=
  if c = '&' then "&amp;".toList
  else if c = '<' then "&lt;".toList
  else if c = '>' then "&gt;".toList
  else if c = '\'' then "&#39;".toList
  else if c = '"' then "&#34;".toList
  else [c]

def escape (text : List Char) : List Char := text.flatMap escapeChar

def unescape : List Char → List Char
  | [] => []
  | '&' :: 'a' :: 'm' :: 'p' :: ';' :: cs => '&' :: unescape cs
  | '&' :: 'l' :: 't' :: ';' :: cs => '<' :: unescape cs
  | '&' :: 'g' :: 't' :: ';' :: cs => '>' :: unescape cs
  | '&' :: '#' :: '3' :: '9' :: ';' :: cs => '\'' :: unescape cs
  | '&' :: '#' :: '3' :: '4' :: ';' :: cs => '"' :: unescape cs
  | c :: cs => c :: unescape cs

theorem unescape_cons_of_ne {c : Char} (cs : List Char) (h : c ≠ '&') :
    unescape (c :: cs) = c :: unescape cs := by
  rw [unescape.eq_def]
  split <;> simp_all

theorem unescape_escape (text : List Char) : unescape (escape text) = text := by
  induction text with
  | nil => rfl
  | cons c cs ih =>
    have step : escape (c :: cs) = escapeChar c ++ escape cs := rfl
    rw [step]
    unfold escapeChar
    by_cases h1 : c = '&'
    · subst h1; simp [unescape, ih]
    by_cases h2 : c = '<'
    · subst h2; simp [unescape, ih]
    by_cases h3 : c = '>'
    · subst h3; simp [unescape, ih]
    by_cases h4 : c = '\''
    · subst h4; simp [unescape, ih]
    by_cases h5 : c = '"'
    · subst h5; simp [unescape, ih]
    simp [h1, h2, h3, h4, h5, unescape_cons_of_ne _ h1, ih]

/-- A part of a document. -/
inductive Piece where
  | fixed (markup : String)
  | shown (text : String)

def Piece.render : Piece → List Char
  | fixed markup => markup.toList
  | shown text => escape text.toList

def renderPieces (pieces : List Piece) : String := String.ofList (pieces.flatMap Piece.render)

end CodeAtlas.Svg
