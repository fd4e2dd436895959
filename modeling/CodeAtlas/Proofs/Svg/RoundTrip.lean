import CodeAtlas.Proofs.Svg.Places
import CodeAtlas.Proofs.Svg.Reader

/-! A drawing is read back as its scene: one node for each node with its id and its captions, and
one line for each link, whatever the names are. -/
namespace CodeAtlas.Svg

def ReadAs (pieces : List Piece) (marks : List Mark) : Prop :=
  Reads (pieces.flatMap Piece.render) marks

theorem ReadAs.append {pieces more : List Piece} {marks marks' : List Mark}
    (h : ReadAs pieces marks) (h' : ReadAs more marks') :
    ReadAs (pieces ++ more) (marks ++ marks') := by
  rw [ReadAs, List.flatMap_append]
  exact Reads.append h h'

theorem ReadAs.behind {pieces more : List Piece} {marks : List Mark} (h : ReadAs pieces [])
    (h' : ReadAs more marks) : ReadAs (pieces ++ more) marks := h.append h'

theorem ReadAs.flatMap {α : Type} {items : List α} {draw : α → List Piece} {marks : α → List Mark}
    (h : ∀ item ∈ items, ReadAs (draw item) (marks item)) :
    ReadAs (items.flatMap draw) (items.flatMap marks) := by
  rw [ReadAs, List.flatMap_assoc]
  exact Reads.flatMap h

theorem readAs_fixed {markup : String} {marks : List Mark} (h : Reads markup.toList marks) :
    ReadAs [.fixed markup] marks := by
  rw [ReadAs, List.flatMap_singleton]
  exact h

theorem reads_behind {front more : String} {marks : List Mark} (hfront : Reads front.toList [])
    (h : Reads more.toList marks) : Reads (front ++ more).toList marks := by
  rw [String.toList_append]
  exact hfront.append h

theorem reads_skip {front more : String} {marks : List Mark} (hfront : '<' ∉ front.toList)
    (h : Reads more.toList marks) : Reads (front ++ more).toList marks :=
  reads_behind (reads_of_not_mem hfront) h

theorem reads_front {front more : String} {marks : List Mark} (h : Reads front.toList marks)
    (hmore : '<' ∉ more.toList) : Reads (front ++ more).toList marks := by
  rw [String.toList_append, ← List.append_nil marks]
  exact h.append (reads_of_not_mem hmore)

@[simp] theorem not_mem_place (x : Float) : '<' ∉ (place x).toList :=
  (bare_of_numeral (Decimal.numeral_fixed 2 x)).not_mem

@[simp] theorem not_mem_size (x : Float) : '<' ∉ (size x).toList :=
  (bare_of_numeral (Decimal.numeral_shortestText x)).not_mem

-- A fixed text in which the name of every tag ends is read by computation, whatever follows it:
-- `fun _ => rfl`.

private theorem readAs_filled (color : String) : ReadAs (filled color) [] := by
  refine reads_of_not_mem ?_
  have hcolor : '<' ∉ escape color.toList := (escaped_escape color.toList).bare.not_mem
  simp [filled, Piece.render, hcolor]

theorem readAs_part {front more : String} (h : Reads front.toList []) (hmore : '<' ∉ more.toList)
    (color : String) : ReadAs (.fixed (front ++ more) :: filled color) [] :=
  (readAs_fixed (reads_front h hmore)).append (readAs_filled color)

theorem readAs_rect (w h : Float) {rounding : String} (hrounding : '<' ∉ rounding.toList)
    (color : String) : ReadAs (rect w h rounding :: filled color) [] := by
  unfold rect
  simp only [String.append_assoc]
  exact readAs_part (fun _ => rfl) (by simp [hrounding]) color

theorem readAs_ellipse (cy w h : Float) (color : String) :
    ReadAs (ellipse cy w h :: filled color) [] := by
  unfold ellipse
  simp only [String.append_assoc]
  exact readAs_part (fun _ => rfl) (by simp) color

private theorem readAs_outline (n : SceneNode Float) : ReadAs (outline n) [] := by
  unfold outline
  simp only [String.append_assoc]
  split_ifs
  · exact readAs_rect _ _ (by simp) _
  · exact readAs_part (fun _ => rfl) (by simp) _
  · exact ((readAs_ellipse _ _ _ _).append (readAs_rect _ _ (by simp) _)).append
      (readAs_ellipse _ _ _ _)
  · exact readAs_part (fun _ => rfl) (by simp) _

theorem readAs_caption (dy : Float) (fontSize fill text : String) (hsize : Bare fontSize.toList)
    (hfill : Bare fill.toList) :
    ReadAs (caption dy fontSize fill text) [.caption text] := by
  have hattributes := bare_captionAttributes dy hsize hfill
  have hread := reads_caption hattributes (escaped_escape text.toList).bare.not_mem
  rw [unescape_escape, String.ofList_toList] at hread
  have hspace : Reads "        ".toList [] := fun _ => rfl
  have hend : Reads "\n".toList [] := fun _ => rfl
  have hall := (hspace.append hread).append hend
  rw [caption_eq, ReadAs]
  generalize captionAttributes dy fontSize fill = attributes at hall
  simpa [Piece.render] using hall

private theorem bare_role (r : Role) : Bare r.name.toList := by
  cases r <;> decide

private theorem quote_not_mem_role (r : Role) : '"' ∉ r.name.toList := by
  cases r <;> decide

private theorem readAs_nodeStart (n : SceneNode Float) : ReadAs (nodeStart n) [.node n.id] := by
  have hid := escaped_escape n.id.toList
  have hfront := reads_nodeFront (bare_role n.role) hid.bare (quote_not_mem_role n.role)
    fun hmem => (hid.no_mark _ hmem).2.2.1 rfl
  rw [unescape_escape, String.ofList_toList] at hfront
  have hspace : Reads "      ".toList [] := fun _ => rfl
  have hplace : Reads (" transform=\"translate(" ++ place n.x ++ "," ++ place n.y ++
      ")\">\n").toList [] := reads_of_not_mem (by simp)
  have hall := (hspace.append hfront).append hplace
  unfold nodeFront at hall
  rw [ReadAs, nodeStart]
  simpa [Piece.render] using hall

def nodeMarks (n : SceneNode Float) : List Mark :=
  .node n.id :: (n.captions.map .caption ++ [.groupEnd])

private theorem readAs_node (n : SceneNode Float) : ReadAs (node n) (nodeMarks n) := by
  have hlabel : ReadAs (caption (n.height / 2 + 14) "11" "#111827" n.label) [.caption n.label] :=
    readAs_caption _ _ _ _ (by decide +kernel) (by decide +kernel)
  have hrole : ReadAs (caption (-n.height / 2 - 6) "10" "#4b5563" n.roleLabel)
      [.caption n.roleLabel] := readAs_caption _ _ _ _ (by decide +kernel) (by decide +kernel)
  have hpath : ReadAs (n.drawnPath.flatMap (caption (n.height / 2 + 28) "10" "#6b7280"))
      (n.drawnPath.flatMap fun text => [.caption text]) :=
    ReadAs.flatMap fun text _ =>
      readAs_caption _ _ _ text (by decide +kernel) (by decide +kernel)
  have hend : ReadAs [.fixed "      </g>\n"] [.groupEnd] := readAs_fixed fun _ => rfl
  have hall := (((((readAs_nodeStart n).append (readAs_outline n)).append hlabel).append
    hrole).append hpath).append hend
  rw [node_eq]
  simpa [nodeMarks, SceneNode.captions, List.flatMap_singleton, List.map_eq_flatMap] using hall

theorem readAs_link (l : SceneLink Float) {style : LinkStyle} (hkind : '<' ∉ l.kind.toList)
    (hstyle : style = nestingStyle ∨ style = dependencyStyle) : ReadAs (link l style) [.link] := by
  refine readAs_fixed ?_
  simp only [String.append_assoc]
  refine reads_front (fun _ => rfl) ?_
  rcases hstyle with rfl | rfl <;> simp [hkind, nestingStyle, dependencyStyle]

private theorem readAs_line {l : SceneLink Float}
    (h : l.kind = "structure" ∨ l.kind = "dependency") : ReadAs (line l) [.link] := by
  unfold line
  rcases h with hkind | hkind
  · rw [hkind]
    exact readAs_link l (by simp [hkind]) (.inl rfl)
  · rw [hkind]
    exact readAs_link l (by simp [hkind]) (.inr rfl)

@[simp] theorem not_mem_repr (n : Int) : '<' ∉ n.repr.toList :=
  (bare_of_numeral (Decimal.numeral_toString_int n)).not_mem

theorem readAs_marker {style : LinkStyle} (hmarker : '<' ∉ style.marker.toList)
    (hstroke : '<' ∉ style.stroke.toList) : ReadAs (marker style) [] := by
  have hend : Reads "\"/>\n    </marker>\n".toList [] := fun _ => rfl
  refine readAs_fixed ?_
  simp only [String.append_assoc]
  refine reads_behind (fun _ => rfl) (reads_skip hmarker (reads_skip (by simp)
    (reads_skip (by simp) ?_)))
  exact reads_behind (fun _ => rfl) (reads_skip hstroke (reads_skip (by simp)
    (reads_skip hstroke hend)))

private theorem readAs_head (s : Scene Float) : ReadAs (head s) [] := by
  have hmode : '<' ∉ s.viewMode.name.toList := by cases s.viewMode <;> decide
  have hphase : '<' ∉ s.phase.name.toList := by cases s.phase <;> decide
  have hscale : '<' ∉ (Decimal.fixed 4 s.viewport.k).toList :=
    (bare_of_numeral (Decimal.numeral_fixed 4 _)).not_mem
  have hdefs : Reads "\">\n  <defs>\n".toList [] := fun _ => rfl
  have hmarkers : ReadAs (marker dependencyStyle ++ marker nestingStyle) [] :=
    (readAs_marker (by decide) (by decide)).behind (readAs_marker (by decide) (by decide))
  unfold head
  simp only [List.append_assoc]
  rw [← List.append_assoc (marker dependencyStyle)]
  refine (readAs_fixed ?_).behind (hmarkers.behind (readAs_fixed ?_))
  · refine reads_behind ?_ hdefs
    simp only [String.append_assoc]
    exact reads_front (fun _ => rfl) (by simp [hmode, hphase])
  · simp only [String.append_assoc]
    exact reads_behind (fun _ => rfl) (reads_front (fun _ => rfl) (by simp [hscale]))

def sceneMarks (s : Scene Float) : List Mark :=
  s.links.map (fun _ => .link) ++ (.groupEnd :: (s.nodes.flatMap nodeMarks ++
    [.groupEnd, .groupEnd]))

private theorem isSome_ofKind? {l : SceneLink Float}
    (h : l.kind = "structure" ∨ l.kind = "dependency") : (LinkStyle.ofKind? l.kind).isSome := by
  rcases h with hkind | hkind <;> rw [hkind] <;> rfl

private theorem readAs_document {s : Scene Float}
    (hkinds : ∀ l ∈ s.links, l.kind = "structure" ∨ l.kind = "dependency") :
    ReadAs (documentPieces s) (sceneMarks s) := by
  have hlines : ReadAs (s.links.flatMap line) (s.links.flatMap fun _ => [.link]) :=
    ReadAs.flatMap fun l hl => readAs_line (hkinds l hl)
  have hnodes : ReadAs (s.nodes.flatMap node) (s.nodes.flatMap nodeMarks) :=
    ReadAs.flatMap fun n _ => readAs_node n
  have hbegin : ReadAs [.fixed "    <g class=\"links\">\n"] [] := readAs_fixed fun _ => rfl
  have hmiddle : ReadAs [.fixed "    </g>\n    <g class=\"nodes\">\n"] [.groupEnd] :=
    readAs_fixed fun _ => rfl
  have hend : ReadAs [.fixed "    </g>\n  </g>\n</svg>"] [.groupEnd, .groupEnd] :=
    readAs_fixed fun _ => rfl
  have hall := (((((readAs_head s).append hbegin).append hlines).append hmiddle).append
    hnodes).append hend
  simpa [documentPieces, sceneMarks, List.map_eq_flatMap] using hall

theorem marksOf_document {s : Scene Float}
    (hkinds : ∀ l ∈ s.links, l.kind = "structure" ∨ l.kind = "dependency") :
    marksOf (renderPieces (documentPieces s)).toList = sceneMarks s := by
  rw [renderPieces, String.toList_ofList]
  exact Reads.marksOf_eq (readAs_document hkinds)

@[simp] def Mark.isNode : Mark → Bool
  | .node _ => true
  | _ => false

private theorem captionsAt_captions (texts : List String) (marks : List Mark) :
    captionsAt (texts.map .caption ++ .groupEnd :: marks) = texts := by
  induction texts with
  | nil => rfl
  | cons text texts ih => rw [List.map_cons, List.cons_append, captionsAt, ih]

theorem nodesAt_append {marks : List Mark} (h : ∀ m ∈ marks, m.isNode = false)
    (more : List Mark) : nodesAt (marks ++ more) = nodesAt more := by
  induction marks with
  | nil => rfl
  | cons m marks ih =>
    obtain ⟨hm, hmarks⟩ := List.forall_mem_cons.1 h
    cases m with
    | node id => cases hm
    | link => exact ih hmarks
    | caption text => exact ih hmarks
    | groupEnd => exact ih hmarks

private theorem nodesAt_nodeMarks (n : SceneNode Float) (more : List Mark) :
    nodesAt (nodeMarks n ++ more) = (n.id, n.captions) :: nodesAt more := by
  have hskip : nodesAt (n.captions.map .caption ++ ([.groupEnd] ++ more)) = nodesAt more := by
    rw [← List.append_assoc]
    refine nodesAt_append (fun m hm => ?_) more
    rcases List.mem_append.1 hm with hcaption | hend
    · obtain ⟨text, -, rfl⟩ := List.mem_map.1 hcaption
      rfl
    · obtain rfl := List.mem_singleton.1 hend
      rfl
  rw [nodeMarks, List.cons_append, nodesAt, List.append_assoc, hskip]
  exact congrArg (· :: nodesAt more) (Prod.ext rfl (captionsAt_captions n.captions more))

private theorem nodesAt_sceneMarks (s : Scene Float) :
    nodesAt (sceneMarks s) = s.nodes.map fun n => (n.id, n.captions) := by
  have hnodes (nodes : List (SceneNode Float)) (more : List Mark) :
      nodesAt (nodes.flatMap nodeMarks ++ more) =
        (nodes.map fun n => (n.id, n.captions)) ++ nodesAt more := by
    induction nodes with
    | nil => rfl
    | cons n nodes ih =>
      rw [List.flatMap_cons, List.append_assoc, nodesAt_nodeMarks, ih]
      rfl
  have hlinks (more : List Mark) : nodesAt (s.links.map (fun _ => Mark.link) ++ more) =
      nodesAt more := nodesAt_append (by simp) more
  have hend (more : List Mark) : nodesAt (.groupEnd :: more) = nodesAt more := rfl
  rw [sceneMarks, hlinks, hend, hnodes, hend, hend, nodesAt, List.append_nil]

private theorem countP_isNode_sceneMarks (s : Scene Float) :
    (sceneMarks s).countP Mark.isNode = s.nodes.length := by
  have hnode (n : SceneNode Float) : (nodeMarks n).countP Mark.isNode = 1 := by
    simp [nodeMarks, List.countP_cons, List.countP_map, Function.comp_def]
  simp [sceneMarks, List.countP_flatMap, Function.comp_def, hnode]

private theorem count_link_sceneMarks (s : Scene Float) :
    (sceneMarks s).count .link = s.links.length := by
  have hnode (n : SceneNode Float) : (nodeMarks n).count .link = 0 :=
    List.count_eq_zero.2 (by simp [nodeMarks])
  simp [sceneMarks, List.count_flatMap, Function.comp_def, hnode]

/-- Drawing a scene whose links are of the two kinds of a layout. The texts of its nodes are written
without raw brackets and quotes in rooms of their own, the markup around them is that of every scene
of the same form, and the document is read back as the ids and the captions of the nodes, with one
group for each node and one line for each link. -/
theorem draw_faithful (s : Scene Float)
    (hkinds : ∀ l ∈ s.links, l.kind = "structure" ∨ l.kind = "dependency") :
    ∃ pieces, document s = .ok pieces ∧ draw s = .ok (renderPieces pieces) ∧
      pieces.filterMap Piece.shown? =
        s.nodes.flatMap (fun n => n.id :: (n.fills ++ n.captions)) ∧
      (∀ text, .shown text ∈ pieces → Escaped (Piece.shown text).render) ∧
      Framed pieces ∧
      (∀ s', s'.form = s.form → ∃ pieces', document s' = .ok pieces' ∧
        draw s' = .ok (renderPieces pieces') ∧
        pieces'.map Piece.markup? = pieces.map Piece.markup?) ∧
      nodesAt (marksOf (renderPieces pieces).toList) =
        s.nodes.map (fun n => (n.id, n.captions)) ∧
      (marksOf (renderPieces pieces).toList).countP Mark.isNode = s.nodes.length ∧
      (marksOf (renderPieces pieces).toList).count .link = s.links.length := by
  have hdocument := document_eq fun l hl => isSome_ofKind? (hkinds l hl)
  refine ⟨_, hdocument, ?_, ?_, fun text _ => escaped_escape text.toList, ?_, fun s' hform => ?_,
    ?_, ?_, ?_⟩
  · rw [draw, hdocument]
    rfl
  · exact shown?_document s
  · exact framed_document s
  · exact document_of_form hform hdocument
  · rw [marksOf_document hkinds, nodesAt_sceneMarks]
  · rw [marksOf_document hkinds, countP_isNode_sceneMarks]
  · rw [marksOf_document hkinds, count_link_sceneMarks]

/-- A scene whose names are made of markup, of entities and of parts of a drawing. -/
def hostileScene : Scene Float where
  width := 400
  height := 300
  viewMode := .both
  phase := .settled
  alpha := 0
  viewport := ⟨0, 0, 1⟩
  nodes := [
    { id := "\"><g class=\"diagram-node api\" data-id=\"a", name := "a", role := .api, path := "a"
      x := 0, y := 0, shape := "cylinder", width := 80, height := 60, color := "'#fff' & red"
      label := "</text></g></svg>", roleLabel := "&lt;", pathLabel := some "", pinned := false },
    { id := "<line/>", name := "b", role := .utility, path := "b"
      x := 9, y := 9, shape := "rect", width := 80, height := 60, color := "\"/>"
      label := "<text>b", roleLabel := "&&amp;", pathLabel := some "'b'", pinned := true }]
  links := [⟨"<line/>", "a", "dependency", 9, 9, 0, 0⟩]

theorem hostileScene_read_back :
    (∀ l ∈ hostileScene.links, l.kind = "structure" ∨ l.kind = "dependency") ∧
    ∃ text, draw hostileScene = .ok text ∧
      nodesAt (marksOf text.toList) = [
        ("\"><g class=\"diagram-node api\" data-id=\"a", ["</text></g></svg>", "&lt;"]),
        ("<line/>", ["<text>b", "&&amp;", "'b'"])] ∧
      (marksOf text.toList).countP Mark.isNode = 2 ∧ (marksOf text.toList).count .link = 1 := by
  have hkinds : ∀ l ∈ hostileScene.links, l.kind = "structure" ∨ l.kind = "dependency" := by
    simp [hostileScene]
  obtain ⟨pieces, -, hdraw, -, -, -, -, hnodes, hgroups, hlines⟩ :=
    draw_faithful hostileScene hkinds
  exact ⟨hkinds, _, hdraw, hnodes, hgroups, hlines⟩

end CodeAtlas.Svg
