import CodeAtlas.Candidate
import CodeAtlas.Text.Utf8

/-!
Files that arrive by upload. The file name carries the path; folders arrive as empty parts without a
media type.
-/
namespace CodeAtlas

structure Upload where
  fileName : Option String
  bytes : List UInt8
  size : Option Int
  mediaType : Option String

namespace Upload

/-- Slashes in place of backslashes, and none in front. -/
def pathOf (fileName : String) : String :=
  String.ofList ((fileName.toList.map fun c => if c = '\\' then '/' else c).dropWhile (· == '/'))

def toCandidate (u : Upload) : Candidate :=
  let size := u.size.getD 0
  { path := pathOf (u.fileName.getD "")
    size := .ok size
    isDirectory := size == 0 && u.mediaType.getD "" == ""
    text := .ok (Text.decodeUtf8 u.bytes) }

/-- The candidates of an upload; parts without a file name do not count. -/
def candidates (uploads : List Upload) : List Candidate :=
  (uploads.filter fun u => u.fileName.getD "" != "").map toCandidate

end Upload

end CodeAtlas
