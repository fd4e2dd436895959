import CodeAtlas.Json
import CodeAtlas.Scene

/-!
A scene as a JSON document. How a coordinate is written is left to the caller.
-/
namespace CodeAtlas

variable {α : Type} (number : α → Json)

def Viewport.toJson (v : Viewport α) : Json :=
  .record [("x", number v.x), ("y", number v.y), ("k", number v.k)]

def SceneNode.toJson (n : SceneNode α) : Json :=
  .record [("id", .text n.id), ("name", .text n.name), ("role", .text n.role.name),
    ("path", .text n.path), ("x", number n.x), ("y", number n.y), ("shape", .text n.shape),
    ("width", number n.width), ("height", number n.height), ("color", .text n.color),
    ("label", .text n.label), ("role_label", .text n.roleLabel),
    ("path_label", (n.pathLabel.map Json.text).getD .null), ("pinned", .bool n.pinned)]

def SceneLink.toJson (l : SceneLink α) : Json :=
  .record [("source", .text l.source), ("target", .text l.target), ("kind", .text l.kind),
    ("x1", number l.x1), ("y1", number l.y1), ("x2", number l.x2), ("y2", number l.y2)]

def Scene.toJson (s : Scene α) : Json :=
  .record [("width", .int s.width), ("height", .int s.height), ("view_mode", .text s.viewMode.name),
    ("state", .text s.phase.name), ("alpha", number s.alpha),
    ("transform", s.viewport.toJson number),
    ("nodes", .list (s.nodes.map (SceneNode.toJson number))),
    ("links", .list (s.links.map (SceneLink.toJson number)))]

end CodeAtlas
