import CodeAtlas.Text.Blank
import CodeAtlas.Text.Scan

/-!
Import phrases: `import`, blanks, anything on one line, blanks, `from`, blanks and a target in
quotes. Blanks may contain line feeds; what stands between the outer blanks may not. Of several
`from` that fit, the earliest one after the first imported thing counts; a `from` in the place of
the imported thing counts only if no other fits.
-/
namespace CodeAtlas.Linkage

open Text

def isQuote (c : Char) : Bool := c == '\'' || c == '"'

/-- `from`, blanks, a quote, the target and a quote. The two quotes may differ. -/
def sourceAt : Matcher (List Char) := fun text =>
  if !"from".toList.isPrefixOf text then none else
  let blanks := (text.drop 4).takeWhile isBlank
  match (text.drop 4).dropWhile isBlank with
  | [] => none
  | mark :: body =>
    let target := body.takeWhile (!isQuote ·)
    let behind := body.drop target.length
    if blanks.isEmpty || !isQuote mark || target.isEmpty || behind.isEmpty then none
    else some (target, 6 + blanks.length + target.length)

/-- The source behind the blanks at the front of a text. There have to be some. -/
@[irreducible] def sourceBehindBlanks : Matcher (List Char) := fun text =>
  let blanks := text.takeWhile isBlank
  if blanks.isEmpty then none else
  (sourceAt (text.drop blanks.length)).map fun found => (found.1, blanks.length + found.2)

def laterSource : Matcher (List Char)
  | [] => none
  | c :: cs =>
    match sourceBehindBlanks (c :: cs) with
    | some found => some found
    | none => if c = '\n' then none else (laterSource cs).map fun found => (found.1, found.2 + 1)

def importAt : Matcher (List Char) := fun text =>
  if !"import".toList.isPrefixOf text then none else
  let blanks := (text.drop 6).takeWhile isBlank
  let body := (text.drop 6).drop blanks.length
  if blanks.isEmpty then none else
  let found := match laterSource body with
    | some found => some found
    | none => if 2 ≤ blanks.length then sourceAt body else none
  found.map fun found => (found.1, 6 + blanks.length + found.2)

def importsOf (content : String) : List String :=
  (scan importAt content.toList).map String.ofList

end CodeAtlas.Linkage
