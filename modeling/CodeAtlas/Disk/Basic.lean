import CodeAtlas.Path
import CodeAtlas.Text.Quoted

/-!
A file system at one moment: a tree of directories, files, symbolic links and entries that cannot be
opened. A place is the list of names that leads to it from the root.
-/
namespace CodeAtlas

inductive DiskNode where
  | file (name : String) (bytes : List UInt8)
  | blocked (name : String)
  | link (name : String) (target : String)
  | directory (name : String) (children : List DiskNode)

def DiskNode.name : DiskNode → String
  | file n _ => n
  | blocked n => n
  | link n _ => n
  | directory n _ => n

def DiskNode.isDirectory : DiskNode → Bool
  | directory .. => true
  | _ => false

abbrev Place := List String

inductive DiskProblem where
  | missing | notDirectory | isDirectory | occupied | tooManyLinks | cannotOpen | nameTooLong
  | nullByte
deriving DecidableEq, Repr

def DiskProblem.text : DiskProblem → String
  | missing => "[Errno 2] No such file or directory"
  | notDirectory => "[Errno 20] Not a directory"
  | isDirectory => "[Errno 21] Is a directory"
  | occupied => "[Errno 17] File exists"
  | tooManyLinks => "[Errno 40] Too many levels of symbolic links"
  | cannotOpen => "[Errno 6] No such device or address"
  | nameTooLong => "[Errno 36] File name too long"
  | nullByte => "embedded null byte"

/-- A problem with a named path. -/
structure DiskError where
  problem : DiskProblem
  path : String

/-- The text of an error. A path with a null byte is not shown. -/
def DiskError.message (e : DiskError) : String :=
  if e.problem = .nullByte then e.problem.text
  else e.problem.text ++ ": " ++ Text.quoted e.path

structure Disk where
  top : List DiskNode
  stamp : Option String
  here : Place

namespace Disk

def find? (nodes : List DiskNode) (name : String) : Option DiskNode :=
  nodes.find? (·.name == name)

def nodeIn (nodes : List DiskNode) : Place → Option DiskNode
  | [] => none
  | [name] => find? nodes name
  | name :: rest =>
    match find? nodes name with
    | some (.directory _ children) => nodeIn children rest
    | _ => none

/-- The node at a place; the root is a directory without name. -/
def node? (d : Disk) : Place → Option DiskNode
  | [] => some (.directory "" d.top)
  | place => nodeIn d.top place

def namesOf (path : String) : Bool × List String :=
  ((path.toList.head? == some '/'), (Path.segments path).filter fun s => s != "" && s != ".")

def linkLimit : Nat := 40

/-- How many bytes a name may have. Nothing with a longer name can be made or looked for. -/
def nameLimit : Nat := 255

def pathLimit : Nat := 4095

def flaw? (path : String) : Option DiskProblem :=
  if path.toList.contains '\x00' then some .nullByte
  else if pathLimit < path.utf8ByteSize then some .nameTooLong
  else none

/-- The names to follow from a link. A dot at the end stays, and so does a slash at the end, as a name
without characters: both call for a directory. -/
def targetNames (target : String) : Bool × List String :=
  let (fromRoot, names) := namesOf target
  let segments := Path.segments target
  let ending := match (segments.filter (· != "")).getLast?, segments.getLast? with
    | some ".", _ => ["."]
    | _, some "" => [""]
    | _, _ => []
  (fromRoot, names ++ ending)

/-- Follows names and links from a directory; an empty name and a dot stay where they are. The last
name may be one that is not there yet, if `fresh` is set, but then no slash may follow it. -/
def walk (d : Disk) (fresh : Bool) (links : Nat) (base : Place) :
    List String → Except DiskProblem Place
  | [] => .ok base
  | name :: rest =>
    if name = ".." then walk d fresh links base.dropLast rest
    else if name = "" || name = "." then walk d fresh links base rest
    else if fresh && rest == [""] then .error .isDirectory
    else match d.node? (base ++ [name]) with
      | none =>
        if nameLimit < name.utf8ByteSize then .error .nameTooLong
        else if fresh && rest.isEmpty then .ok (base ++ [name])
        else .error .missing
      | some (.directory ..) => walk d fresh links (base ++ [name]) rest
      | some (.link _ target) =>
        match links with
        | 0 => .error .tooManyLinks
        | links + 1 =>
          let (fromRoot, names) := targetNames target
          walk d fresh links (if fromRoot then [] else base) (names ++ rest)
      | some _ => if rest.isEmpty then .ok (base ++ [name]) else .error .notDirectory
termination_by names => (links, names.length)

def follow (d : Disk) (place : Place) : Except DiskProblem Place := d.walk false linkLimit [] place

def stat (d : Disk) (place : Place) : Except DiskProblem DiskNode :=
  match d.follow place with
  | .ok real => ((d.node? real).map .ok).getD (.error .missing)
  | .error p => .error p

def isDirectory (d : Disk) (place : Place) : Bool :=
  match d.stat place with
  | .ok node => node.isDirectory
  | .error _ => false

def absolute (place : Place) : String := "/" ++ Text.intercalate "/" place

/-- Names with each `..` taken back together with the name before it. -/
def squeeze (names : List String) : Place :=
  names.foldl (fun place name => if name = ".." then place.dropLast else place ++ [name]) []

def placeOf (d : Disk) (path : String) : Place :=
  let (fromRoot, names) := namesOf path
  squeeze (if fromRoot then names else d.here ++ names)

/-- A path written from the root. Two slashes in front stay two; more of them are one. -/
def rooted (d : Disk) (path : String) : String :=
  match path.toList with
  | '/' :: '/' :: '/' :: _ => absolute (d.placeOf path)
  | '/' :: '/' :: _ => "/" ++ absolute (d.placeOf path)
  | _ => absolute (d.placeOf path)

end Disk

end CodeAtlas
