import CodeAtlas.Disk.Basic

/-!
The canonical place of a path: every link on the way replaced by its target. Names that lead nowhere
are kept. Where links lead in a circle, the link that closes it is kept, and what is left of the
targets and of the path is put behind it as text.
-/
namespace CodeAtlas.Disk

/-- What remains to be walked: segments, and marks where the way through a link ends. -/
inductive Stage where
  | segment (text : String)
  | leave (link : Place)

/-- Where the links met so far lead; nothing is known yet of a link that the way still runs
through. -/
abbrev Known := List (Place × Option Place)

/-- A path with segments behind it. Segments that make up an absolute path stand for themselves. -/
def behind (path : String) (segments : List String) : String :=
  let text := Text.intercalate "/" segments
  if text.toList.head? == some '/' then text
  else if path.toList.getLast? == some '/' then path ++ text
  else path ++ "/" ++ text

def unresolved (path : String) (segments : List String) : List Stage → String
  | [] => behind path segments
  | .leave _ :: rest => unresolved (behind path segments) [] rest
  | .segment text :: rest => unresolved path (segments ++ [text]) rest

/-- Walks the stages; if they lead in a circle, the outcome is the path that is left. Every link is
opened once, so `links` of them are enough. -/
def canonicalFrom (d : Disk) (links : Nat) (known : Known) (base : Place) :
    List Stage → Except String Place
  | [] => .ok base
  | .leave link :: rest => canonicalFrom d links ((link, some base) :: known) base rest
  | .segment text :: rest =>
    if text = "" || text = "." then canonicalFrom d links known base rest
    else if text = ".." then canonicalFrom d links known base.dropLast rest
    else
      let next := base ++ [text]
      match d.node? next with
      | some (.link _ target) =>
        match known.lookup next with
        | some (some real) => canonicalFrom d links known real rest
        | some none => .error (unresolved (absolute next) [] rest)
        | none =>
          match links with
          | 0 => .error (absolute next)
          | links + 1 =>
            let fromRoot := target.toList.head? == some '/'
            canonicalFrom d links ((next, none) :: known) (if fromRoot then [] else base)
              (((Path.segments target).drop (if fromRoot then 1 else 0)).map .segment ++
                .leave next :: rest)
      | _ => canonicalFrom d links known next rest
termination_by stages => (links, stages.length)

mutual

def linkCount : DiskNode → Nat
  | .link .. => 1
  | .directory _ children => linkCounts children
  | _ => 0

def linkCounts : List DiskNode → Nat
  | [] => 0
  | n :: ns => linkCount n + linkCounts ns

end

def resolve (d : Disk) (path : String) : Except String Place :=
  let (fromRoot, names) := namesOf path
  canonicalFrom d (linkCounts d.top) [] []
    ((if fromRoot then names else d.here ++ names).map .segment)

def canonicalPath (d : Disk) (path : String) : String :=
  match d.resolve path with
  | .ok place => absolute place
  | .error path => d.rooted path

def canonical (d : Disk) (path : String) : Place :=
  match d.resolve path with
  | .ok place => place
  | .error path => d.placeOf path

end CodeAtlas.Disk
