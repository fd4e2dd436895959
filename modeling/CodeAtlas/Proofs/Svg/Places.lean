import CodeAtlas.Proofs.Svg.Markup
import CodeAtlas.Svg.Drawing
import Mathlib.Data.List.Basic

/-! The texts of a scene in its document: which pieces are shown, where they stand, and what of a
scene decides the markup around them. -/
namespace CodeAtlas

/-- The path label, if it is drawn: an empty one is not. -/
def SceneNode.drawnPath (n : SceneNode Float) : List String := n.pathLabel.toList.filter (· ≠ "")

/-- The texts under and over a node, in the order in which they are drawn. -/
def SceneNode.captions (n : SceneNode Float) : List String := n.label :: n.roleLabel :: n.drawnPath

/-- The color is written once for each part of the outline. -/
def SceneNode.fills (n : SceneNode Float) : List String :=
  List.replicate (if n.shape = Outline.cylinder.name then 3 else 1) n.color

/-- The node without its texts. Whether it has a path label that is drawn is kept. -/
def SceneNode.form (n : SceneNode Float) : SceneNode Float :=
  { n with
    id := ""
    label := ""
    roleLabel := ""
    color := ""
    pathLabel := (n.pathLabel.filter (· ≠ "")).map fun _ => "-" }

/-- The line without the ids of its nodes. -/
def SceneLink.form (l : SceneLink Float) : SceneLink Float := { l with source := "", target := "" }

/-- Two scenes of one form differ in nothing but ids, labels, role labels, path labels and
colors. -/
def Scene.form (s : Scene Float) : Scene Float :=
  { s with nodes := s.nodes.map SceneNode.form, links := s.links.map SceneLink.form }

namespace Svg

/-- A line in the style of its kind. -/
def line (l : SceneLink Float) : List Piece := link l ((LinkStyle.ofKind? l.kind).getD bareStyle)

private theorem links_eq {ls : List (SceneLink Float)}
    (h : ∀ l ∈ ls, (LinkStyle.ofKind? l.kind).isSome) : links ls = .ok (ls.flatMap line) := by
  induction ls with
  | nil => rfl
  | cons l ls ih =>
    obtain ⟨hl, hls⟩ := List.forall_mem_cons.1 h
    obtain ⟨style, hstyle⟩ := Option.isSome_iff_exists.1 hl
    have hline : line l = link l style := by rw [line, hstyle, Option.getD_some]
    rw [links, hstyle, ih hls, List.flatMap_cons, hline]
    rfl

def documentPieces (s : Scene Float) : List Piece :=
  head s ++ [.fixed "    <g class=\"links\">\n"] ++ s.links.flatMap line ++
    [.fixed "    </g>\n    <g class=\"nodes\">\n"] ++ s.nodes.flatMap node ++
    [.fixed "    </g>\n  </g>\n</svg>"]

theorem document_eq {s : Scene Float} (h : ∀ l ∈ s.links, (LinkStyle.ofKind? l.kind).isSome) :
    document s = .ok (documentPieces s) := by
  rw [document, links_eq h]
  rfl

def nodeStart (n : SceneNode Float) : List Piece :=
  [.fixed ("      <g class=\"diagram-node " ++ n.role.name ++ "\" data-id=\""), .shown n.id,
    .fixed ("\" transform=\"translate(" ++ place n.x ++ "," ++ place n.y ++ ")\">\n")]

theorem node_eq (n : SceneNode Float) : node n = nodeStart n ++ outline n ++
    caption (n.height / 2 + 14) "11" "#111827" n.label ++
    caption (-n.height / 2 - 6) "10" "#4b5563" n.roleLabel ++
    n.drawnPath.flatMap (caption (n.height / 2 + 28) "10" "#6b7280") ++
    [.fixed "      </g>\n"] := by
  unfold node SceneNode.drawnPath
  rcases n.pathLabel with _ | label
  · rfl
  · by_cases hempty : label = "" <;> simp [hempty, nodeStart]

private theorem drawnPath_form (n : SceneNode Float) :
    n.form.drawnPath = n.drawnPath.map fun _ => "-" := by
  unfold SceneNode.drawnPath SceneNode.form
  rcases n.pathLabel with _ | label
  · rfl
  · by_cases hempty : label = "" <;> simp [Option.filter, hempty]

private theorem shown?_outline (n : SceneNode Float) :
    (outline n).filterMap Piece.shown? = n.fills := by
  unfold outline SceneNode.fills
  by_cases hcylinder : n.shape = Outline.cylinder.name
  · rw [if_pos hcylinder, hcylinder]
    rfl
  · simp only [if_neg hcylinder]
    split_ifs <;> rfl

theorem shown?_caption (dy : Float) (fontSize fill text : String) :
    (caption dy fontSize fill text).filterMap Piece.shown? = [text] := rfl

private theorem shown?_node (n : SceneNode Float) :
    (node n).filterMap Piece.shown? = n.id :: (n.fills ++ n.captions) := by
  have hstart : (nodeStart n).filterMap Piece.shown? = [n.id] := rfl
  have hpath (dy : Float) : (n.drawnPath.flatMap (caption dy "10" "#6b7280")).filterMap
      Piece.shown? = n.drawnPath := by
    simp only [List.filterMap_flatMap, shown?_caption]
    exact List.flatMap_singleton' _
  have hend : [Piece.fixed "      </g>\n"].filterMap Piece.shown? = [] := rfl
  simp only [node_eq, List.filterMap_append, hstart, shown?_outline, shown?_caption, hpath, hend,
    List.append_nil, List.append_assoc, List.singleton_append, SceneNode.captions]

private theorem shown?_line (l : SceneLink Float) : (line l).filterMap Piece.shown? = [] := rfl

theorem shown?_document (s : Scene Float) : (documentPieces s).filterMap Piece.shown? =
    s.nodes.flatMap fun n => n.id :: (n.fills ++ n.captions) := by
  have hfixed (markup : String) : [Piece.fixed markup].filterMap Piece.shown? = [] := rfl
  have hhead : (head s).filterMap Piece.shown? = [] := rfl
  unfold documentPieces
  simp only [List.filterMap_append, List.filterMap_flatMap, hfixed, hhead, shown?_line,
    shown?_node]
  simp

theorem framed_singleton (markup : String) : Framed [.fixed markup] := .fixed markup .nil

private theorem framed_filled (color : String) : Framed (filled color) :=
  .room color (.inr (.inl ⟨"", " stroke=\"#fff\" stroke-width=\"3\"/>\n", rfl, rfl⟩))
    (framed_singleton _)

private theorem framed_outline (n : SceneNode Float) : Framed (outline n) := by
  have hpart (piece : Piece) (h : piece.shown? = none) : Framed (piece :: filled n.color) := by
    cases piece with
    | fixed markup => exact .fixed markup (framed_filled n.color)
    | shown text => cases h
  unfold outline
  simp only
  split_ifs
  · exact hpart _ rfl
  · exact hpart _ rfl
  · exact ((hpart _ rfl).append (hpart _ rfl)).append (hpart _ rfl)
  · exact hpart _ rfl

def captionAttributes (dy : Float) (fontSize fill : String) : String :=
  "text-anchor=\"middle\" dy=\"" ++ size dy ++ "\" font-size=\"" ++ fontSize ++ "\" fill=\"" ++
    fill ++ "\""

theorem bare_captionAttributes (dy : Float) {fontSize fill : String} (hsize : Bare fontSize.toList)
    (hfill : Bare fill.toList) : Bare (captionAttributes dy fontSize fill).toList := by
  have hdy : Bare (size dy).toList := bare_of_numeral (Decimal.numeral_shortestText dy)
  unfold captionAttributes
  simp only [String.toList_append, bare_append]
  exact ⟨⟨⟨⟨⟨⟨by decide +kernel, hdy⟩, by decide +kernel⟩, hsize⟩, by decide +kernel⟩, hfill⟩,
    by decide +kernel⟩

theorem caption_eq (dy : Float) (fontSize fill text : String) :
    caption dy fontSize fill text =
      [.fixed ("        " ++ "<text " ++ captionAttributes dy fontSize fill ++ ">"), .shown text,
        .fixed ("</text>" ++ "\n")] := by
  unfold caption captionAttributes
  simp only [String.append_assoc]
  rfl

theorem framed_caption (dy : Float) (fontSize fill text : String) (hsize : Bare fontSize.toList)
    (hfill : Bare fill.toList) : Framed (caption dy fontSize fill text) := by
  rw [caption_eq]
  exact .room text (.inr (.inr ⟨_, _, _, rfl, bare_captionAttributes dy hsize hfill, rfl⟩))
    (framed_singleton _)

private theorem framed_nodeStart (n : SceneNode Float) : Framed (nodeStart n) := by
  have hid : Around ("      <g class=\"diagram-node " ++ n.role.name ++ "\" data-id=\"")
      ("\" transform=\"translate(" ++ place n.x ++ "," ++ place n.y ++ ")\">\n") := by
    refine .inl ⟨"      <g class=\"diagram-node " ++ n.role.name ++ "\"",
      " transform=\"translate(" ++ (place n.x ++ ("," ++ (place n.y ++ ")\">\n"))), ?_, ?_⟩ <;>
    · simp only [String.append_assoc]
      rfl
  exact .room n.id hid (framed_singleton _)

private theorem framed_node (n : SceneNode Float) : Framed (node n) := by
  have hlabel : Framed (caption (n.height / 2 + 14) "11" "#111827" n.label) :=
    framed_caption _ _ _ _ (by decide +kernel) (by decide +kernel)
  have hrole : Framed (caption (-n.height / 2 - 6) "10" "#4b5563" n.roleLabel) :=
    framed_caption _ _ _ _ (by decide +kernel) (by decide +kernel)
  have hpath : Framed (n.drawnPath.flatMap (caption (n.height / 2 + 28) "10" "#6b7280")) :=
    Framed.flatMap fun text _ =>
      framed_caption _ _ _ text (by decide +kernel) (by decide +kernel)
  rw [node_eq]
  exact (((((framed_nodeStart n).append (framed_outline n)).append hlabel).append hrole).append
    hpath).append (framed_singleton _)

private theorem framed_head (s : Scene Float) : Framed (head s) :=
  (((framed_singleton _).append (framed_singleton _)).append (framed_singleton _)).append
    (framed_singleton _)

theorem framed_document (s : Scene Float) : Framed (documentPieces s) :=
  (((((framed_head s).append (framed_singleton _)).append
    (Framed.flatMap fun _ _ => framed_singleton _)).append (framed_singleton _)).append
    (Framed.flatMap fun n _ => framed_node n)).append (framed_singleton _)

private theorem markup?_outline_form (n : SceneNode Float) :
    (outline n.form).map Piece.markup? = (outline n).map Piece.markup? := by
  unfold outline SceneNode.form
  simp only
  split_ifs <;> rfl

private theorem markup?_node_form (n : SceneNode Float) :
    (node n.form).map Piece.markup? = (node n).map Piece.markup? := by
  have hpath : (n.form.drawnPath.flatMap (caption (n.form.height / 2 + 28) "10" "#6b7280")).map
      Piece.markup? =
        (n.drawnPath.flatMap (caption (n.height / 2 + 28) "10" "#6b7280")).map Piece.markup? := by
    rw [drawnPath_form, List.flatMap_map, List.map_flatMap, List.map_flatMap]
    rfl
  rw [node_eq, node_eq]
  simp only [List.map_append, markup?_outline_form, hpath]
  rfl

private theorem links_form (ls : List (SceneLink Float)) :
    links (ls.map SceneLink.form) = links ls := by
  induction ls with
  | nil => rfl
  | cons l ls ih =>
    rw [List.map_cons, links, links, ih]
    rfl

theorem document_form (s : Scene Float) :
    (document s.form).map (List.map Piece.markup?) = (document s).map (List.map Piece.markup?) := by
  have hnodes : (s.form.nodes.flatMap node).map Piece.markup? =
      (s.nodes.flatMap node).map Piece.markup? := by
    rw [Scene.form, List.flatMap_map, List.map_flatMap, List.map_flatMap]
    simp only [markup?_node_form]
  have hlinks : links s.form.links = links s.links := links_form s.links
  rw [document, document, hlinks]
  cases links s.links with
  | error e => rfl
  | ok lines =>
    simp only [Except.map, List.map_append, hnodes]
    rfl

theorem document_of_form {s s' : Scene Float} {pieces : List Piece} (hform : s'.form = s.form)
    (h : document s = .ok pieces) : ∃ pieces', document s' = .ok pieces' ∧
      draw s' = .ok (renderPieces pieces') ∧
      pieces'.map Piece.markup? = pieces.map Piece.markup? := by
  have hmarkup := document_form s'
  rw [hform, document_form s, h] at hmarkup
  cases hpieces : document s' with
  | error e =>
    rw [hpieces] at hmarkup
    cases hmarkup
  | ok pieces' =>
    rw [hpieces] at hmarkup
    refine ⟨pieces', rfl, ?_, (Except.ok.inj hmarkup).symm⟩
    rw [draw, hpieces]
    rfl

end Svg

end CodeAtlas
