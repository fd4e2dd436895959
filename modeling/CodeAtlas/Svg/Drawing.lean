import CodeAtlas.Decimal.Fixed
import CodeAtlas.Diagram.Shape
import CodeAtlas.Scene
import CodeAtlas.Svg.Markup
import CodeAtlas.Text.Quoted

/-!
Scenes drawn as SVG: one group for each node and one line for each link, in the order of the scene.
Places have two decimals and the scale has four; sizes are written with as many digits as they need.
-/
namespace CodeAtlas.Svg

structure LinkStyle where
  stroke : String
  width : String
  dash : Option String
  marker : String

def dependencyStyle : LinkStyle := ⟨"#ef4444", "2", none, "dependency-arrow"⟩

def nestingStyle : LinkStyle := ⟨"#6b7280", "1", some "5,5", "structure-arrow"⟩

def ownWords : List String := [
  "__class_getitem__", "__contains__", "__delattr__", "__delitem__", "__dir__", "__doc__",
  "__eq__", "__format__", "__ge__", "__getattribute__", "__getitem__", "__getstate__", "__gt__",
  "__hash__", "__init__", "__init_subclass__", "__ior__", "__iter__", "__le__", "__len__",
  "__lt__", "__ne__", "__new__", "__or__", "__reduce__", "__reduce_ex__", "__repr__",
  "__reversed__", "__ror__", "__setattr__", "__setitem__", "__sizeof__", "__str__",
  "__subclasshook__", "clear", "copy", "fromkeys", "get", "items", "keys", "pop", "popitem",
  "setdefault", "update", "values"]

def bareStyle : LinkStyle := ⟨"", "", none, ""⟩

def ownKindStyle : LinkStyle :=
  let part (name : String) := String.ofList (escape ("dict['" ++ name ++ "']").toList)
  ⟨part "stroke", part "width", some (part "dash"), part "marker"⟩

def LinkStyle.ofKind? (kind : String) : Option LinkStyle :=
  if kind = "dependency" then some dependencyStyle
  else if kind = "structure" then some nestingStyle
  else if kind = "__class__" then some ownKindStyle
  else if ownWords.contains kind then some bareStyle
  else none

inductive DrawingError where
  | unknownLinkKind (kind : String)

def DrawingError.message : DrawingError → String
  | unknownLinkKind kind => "'dict object' has no attribute " ++ Text.quoted kind

def place (x : Float) : String := Decimal.fixed 2 x

def size (x : Float) : String := Decimal.shortestText x

def marker (s : LinkStyle) : List Piece := [.fixed (
  "    <marker id=\"" ++ s.marker ++ "\" viewBox=\"0 -5 10 10\" refX=\"25\" refY=\"0\" " ++
  "orient=\"auto\" markerWidth=\"6\" markerHeight=\"6\">\n" ++
  "      <path d=\"M 0,-5 L 10,0 L 0,5\" fill=\"" ++ s.stroke ++ "\" stroke=\"" ++ s.stroke ++
  "\"/>\n    </marker>\n")]

def head (s : Scene Float) : List Piece :=
  let width := toString s.width
  let height := toString s.height
  [.fixed (
    "<svg xmlns=\"http://www.w3.org/2000/svg\" width=\"" ++ width ++ "\" height=\"" ++ height ++
    "\" viewBox=\"0 0 " ++ width ++ " " ++ height ++ "\" data-view-mode=\"" ++ s.viewMode.name ++
    "\" data-state=\"" ++ s.phase.name ++ "\">\n  <defs>\n")] ++
  marker dependencyStyle ++ marker nestingStyle ++
  [.fixed (
    "  </defs>\n  <rect width=\"100%\" height=\"100%\" fill=\"#f9fafb\"/>\n" ++
    "  <g class=\"layer\" transform=\"translate(" ++ place s.viewport.x ++ "," ++
    place s.viewport.y ++ ") scale(" ++ Decimal.fixed 4 s.viewport.k ++ ")\">\n")]

def link (l : SceneLink Float) (s : LinkStyle) : List Piece := [.fixed (
  "      <line class=\"diagram-link " ++ l.kind ++ "\" x1=\"" ++ place l.x1 ++ "\" y1=\"" ++
  place l.y1 ++ "\" x2=\"" ++ place l.x2 ++ "\" y2=\"" ++ place l.y2 ++ "\" stroke=\"" ++
  s.stroke ++ "\" stroke-width=\"" ++ s.width ++ "\"" ++
  (match s.dash with
    | some dash => " stroke-dasharray=\"" ++ dash ++ "\""
    | none => "") ++
  " marker-end=\"url(#" ++ s.marker ++ ")\"/>\n")]

/-- The end of every outline: its color and a white border. -/
def filled (color : String) : List Piece :=
  [.fixed " fill=\"", .shown color, .fixed "\" stroke=\"#fff\" stroke-width=\"3\"/>\n"]

def rect (w h : Float) (rounding : String) : Piece := .fixed (
  "        <rect x=\"" ++ size (-w / 2) ++ "\" y=\"" ++ size (-h / 2) ++ "\" width=\"" ++ size w ++
  "\" height=\"" ++ size h ++ "\"" ++ rounding)

def ellipse (cy : Float) (w h : Float) : Piece := .fixed (
  "        <ellipse cx=\"0\" cy=\"" ++ size cy ++ "\" rx=\"" ++ size (w / 2) ++ "\" ry=\"" ++
  size (h / 4) ++ "\"")

def outline (n : SceneNode Float) : List Piece :=
  let w := n.width
  let h := n.height
  if n.shape = Outline.rect.name then rect w h " rx=\"8\"" :: filled n.color
  else if n.shape = Outline.diamond.name then
    .fixed ("        <path d=\"M 0," ++ size (-h / 2) ++ " L " ++ size (w / 2) ++ ",0 L 0," ++
      size (h / 2) ++ " L " ++ size (-w / 2) ++ ",0 Z\"") :: filled n.color
  else if n.shape = Outline.cylinder.name then
    ellipse (-h / 2) w h :: filled n.color ++ rect w h "" :: filled n.color ++
      ellipse (h / 2) w h :: filled n.color
  else .fixed ("        <circle r=\"" ++ size (w / 2) ++ "\"") :: filled n.color

def caption (dy : Float) (fontSize fill text : String) : List Piece :=
  [.fixed ("        <text text-anchor=\"middle\" dy=\"" ++ size dy ++ "\" font-size=\"" ++
    fontSize ++ "\" fill=\"" ++ fill ++ "\">"), .shown text, .fixed "</text>\n"]

def node (n : SceneNode Float) : List Piece :=
  [.fixed ("      <g class=\"diagram-node " ++ n.role.name ++ "\" data-id=\""), .shown n.id,
    .fixed ("\" transform=\"translate(" ++ place n.x ++ "," ++ place n.y ++ ")\">\n")] ++
  outline n ++
  caption (n.height / 2 + 14) "11" "#111827" n.label ++
  caption (-n.height / 2 - 6) "10" "#4b5563" n.roleLabel ++
  (match n.pathLabel with
    | some label => if label = "" then [] else caption (n.height / 2 + 28) "10" "#6b7280" label
    | none => []) ++
  [.fixed "      </g>\n"]

/-- All links, or the first kind that has no style. -/
def links : List (SceneLink Float) → Except DrawingError (List Piece)
  | [] => .ok []
  | l :: rest =>
    match LinkStyle.ofKind? l.kind with
    | none => .error (.unknownLinkKind l.kind)
    | some style => (links rest).map (link l style ++ ·)

def document (s : Scene Float) : Except DrawingError (List Piece) :=
  (links s.links).map fun lines =>
    head s ++ [.fixed "    <g class=\"links\">\n"] ++ lines ++
    [.fixed "    </g>\n    <g class=\"nodes\">\n"] ++ s.nodes.flatMap node ++
    [.fixed "    </g>\n  </g>\n</svg>"]

def draw (s : Scene Float) : Except DrawingError String := (document s).map renderPieces

end CodeAtlas.Svg
