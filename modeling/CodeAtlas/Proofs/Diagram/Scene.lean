import CodeAtlas.Proofs.Diagram.Rest
import CodeAtlas.Proofs.Edge.Dependency

/-! What a diagram draws. Its edges are those of its units in its view mode and it has one body for
each unit, so every line has its two nodes and ends where they are. -/
namespace CodeAtlas.Diagram

open Layout

variable {α γ : Type} {d e : Diagram α γ}

structure Fitted (d : Diagram α γ) : Prop where
  edges : d.edges = Edge.ofUnits d.source d.mode
  bodies : d.simulation.bodies.length = d.source.length

variable [Scalar α]

theorem fitted_rebuild : Fitted d.rebuild where
  edges := rfl
  bodies := by simp [rebuild, layoutOf, Simulation.start, bodiesOf]

theorem fitted_create {options : DiagramOptions α} {units : List SourceUnit}
    {width height : Option Int} {mode : ViewMode} {seed : γ}
    (h : create options units width height mode seed = .ok d) : Fitted d := by
  obtain ⟨-, rfl⟩ := create_eq_ok_iff.1 h
  exact fitted_rebuild (d := created options units _ _ mode seed)

variable [Generator γ]

theorem Fitted.step (h : Fitted d) : Fitted d.step.1 := by
  have htick := d.simulation.length_bodies_tick
  generalize hstep : d.step = result
  cases hstep ▸ stepped_step (d := d) with
  | settled phase => exact h
  | emptied phase units => exact ⟨h.edges, h.bodies⟩
  | stalled phase units tick =>
    rw [tick] at htick
    exact ⟨h.edges, htick.trans h.bodies⟩
  | ticked phase units tick =>
    rw [tick] at htick
    exact ⟨h.edges, htick.trans h.bodies⟩

theorem Fitted.of_ticked {clean : Prop} (hticked : Ticked clean d e) (h : Fitted d) :
    Fitted e := by
  induction hticked with
  | refl d => exact h
  | step hstep rest ih => exact ih h.step
  | loops l rest ih => exact ih ⟨h.edges, h.bodies⟩

theorem Fitted.apply (h : Fitted d) (op : Operation α) : Fitted (d.apply op).1 := by
  generalize hnext : (d.apply op).1 = next
  cases hnext ▸ effect_apply (d := d) op with
  | ticked hticked => exact h.of_ticked hticked
  | restarted hrestart loops => exact fitted_rebuild
  | held hi loops => exact ⟨h.edges, (List.length_modify _ _ _).trans h.bodies⟩
  | moved hi fx fy => exact ⟨h.edges, (List.length_modify _ _ _).trans h.bodies⟩
  | released hi => exact ⟨h.edges, (List.length_modify _ _ _).trans h.bodies⟩
  | viewed viewport => exact ⟨h.edges, h.bodies⟩

theorem Fitted.run (h : Fitted d) (operations : List (Operation α)) :
    Fitted (d.run operations) := by
  induction operations generalizing d with
  | nil => exact h
  | cons op rest ih => exact ih (h.apply op)

/-- A line joins the nodes at the ends of an edge: it has their ids and ends at their places. -/
def Joins (nodes : List (SceneNode α)) (e : Edge) (link : SceneLink α) : Prop :=
  ∃ a b, nodes[e.source]? = some a ∧ nodes[e.target]? = some b ∧
    link = { source := a.id, target := b.id, kind := e.kind.name
             x1 := a.x, y1 := a.y, x2 := b.x, y2 := b.y }

omit [Generator γ]

theorem Fitted.length_nodes (h : Fitted d) : d.scene.nodes.length = d.source.length := by
  rw [scene, List.length_zipWith, h.bodies, Nat.min_self]

theorem Fitted.exists_node (h : Fitted d) {i : Nat} {u : SourceUnit} (hu : d.source[i]? = some u) :
    ∃ b, d.simulation.bodies[i]? = some b ∧ d.scene.nodes[i]? = some (sceneNode d.mode u b) := by
  obtain ⟨hi, -⟩ := List.getElem?_eq_some_iff.1 hu
  obtain ⟨b, hb⟩ : ∃ b, d.simulation.bodies[i]? = some b :=
    ⟨_, List.getElem?_eq_getElem (h.bodies ▸ hi)⟩
  exact ⟨b, hb, List.getElem?_zipWith_eq_some.2 ⟨u, b, hu, hb, rfl⟩⟩

theorem Fitted.exists_link (h : Fitted d) {e : Edge} (he : e ∈ d.edges) :
    ∃ link, d.sceneLink? e = some link ∧ Joins d.scene.nodes e link := by
  obtain ⟨hsource, htarget⟩ := Edge.ends_lt_of_mem_ofUnits (h.edges ▸ he)
  have hu := List.getElem?_eq_getElem hsource
  have hv := List.getElem?_eq_getElem htarget
  obtain ⟨a, ha, hfirst⟩ := h.exists_node hu
  obtain ⟨b, hb, hsecond⟩ := h.exists_node hv
  refine ⟨_, ?_, _, _, hfirst, hsecond, rfl⟩
  rw [sceneLink?, hu, hv, ha, hb]
  rfl

private theorem Fitted.joins (h : Fitted d) :
    List.Forall₂ (Joins d.scene.nodes) (Edge.ofUnits d.source d.mode) d.scene.links := by
  rw [← h.edges]
  suffices ∀ edges ⊆ d.edges,
      List.Forall₂ (Joins d.scene.nodes) edges (edges.filterMap d.sceneLink?) from
    this d.edges (List.Subset.refl _)
  intro edges
  induction edges with
  | nil => exact fun _ => .nil
  | cons e rest ih =>
    intro hsubset
    obtain ⟨he, hrest⟩ := List.cons_subset.1 hsubset
    obtain ⟨link, hlink, hjoins⟩ := h.exists_link he
    rw [List.filterMap_cons_some hlink]
    exact .cons hjoins (ih hrest)

private theorem Fitted.exists_edge (h : Fitted d) {link : SceneLink α}
    (hlink : link ∈ d.scene.links) : ∃ e, Joins d.scene.nodes e link := by
  obtain ⟨e, he, hdrawn⟩ := List.mem_filterMap.1 hlink
  obtain ⟨link', hdrawn', hjoins⟩ := h.exists_link he
  obtain rfl : link' = link := Option.some.inj (hdrawn'.symm.trans hdrawn)
  exact ⟨e, hjoins⟩

private theorem Fitted.map_id_nodes (h : Fitted d) :
    d.scene.nodes.map SceneNode.id = d.source.map SourceUnit.id := by
  refine List.ext_getElem? fun i => ?_
  rw [List.getElem?_map, List.getElem?_map]
  cases hu : d.source[i]? with
  | none =>
    rw [List.getElem?_eq_none_iff, ← h.length_nodes, ← List.getElem?_eq_none_iff] at hu
    rw [hu]
    rfl
  | some u =>
    obtain ⟨b, -, hnode⟩ := h.exists_node hu
    rw [hnode]
    rfl

omit [Scalar α] in
theorem Joins.ends {nodes : List (SceneNode α)} {e : Edge} {link : SceneLink α}
    (hids : (nodes.map SceneNode.id).Nodup) (h : Joins nodes e link) :
    (link.source ∈ nodes.map SceneNode.id ∧ link.target ∈ nodes.map SceneNode.id) ∧
    ∀ n ∈ nodes, (n.id = link.source → (link.x1, link.y1) = (n.x, n.y)) ∧
      (n.id = link.target → (link.x2, link.y2) = (n.x, n.y)) := by
  obtain ⟨a, b, ha, hb, rfl⟩ := h
  have ha := List.mem_of_getElem? ha
  have hb := List.mem_of_getElem? hb
  refine ⟨⟨List.mem_map_of_mem ha, List.mem_map_of_mem hb⟩,
    fun n hn => ⟨fun hid => ?_, fun hid => ?_⟩⟩
  · obtain rfl := List.inj_on_of_nodup_map hids hn ha hid
    rfl
  · obtain rfl := List.inj_on_of_nodup_map hids hn hb hid
    rfl

/-- After all operations the scene has one node for each unit, in their order and where the bodies
are, and one line for each edge that the units have in the view mode, in the order of the edges and
between the nodes at their ends. If the ids of the units are distinct, the ends of a line are the
listed nodes that it names. -/
theorem scene_of_run [Generator γ] {options : DiagramOptions α} {units : List SourceUnit}
    {width height : Option Int} {mode : ViewMode} {seed : γ}
    (hcreate : create options units width height mode seed = .ok d)
    (operations : List (Operation α)) :
    let now := d.run operations
    let scene := now.scene
    (scene.nodes.length = now.source.length ∧ ∀ (i : Nat) (u : SourceUnit),
      now.source[i]? = some u → ∃ b, now.simulation.bodies[i]? = some b ∧
        scene.nodes[i]? = some (sceneNode now.mode u b)) ∧
    List.Forall₂ (Joins scene.nodes) (Edge.ofUnits now.source now.mode) scene.links ∧
    (now.mode = .both → Edge.ofUnits now.source now.mode =
      Edge.nestingEdges now.source ++ Edge.dependencyEdges now.source) ∧
    ((now.source.map SourceUnit.id).Nodup → ∀ link ∈ scene.links,
      (link.source ∈ scene.nodes.map SceneNode.id ∧
        link.target ∈ scene.nodes.map SceneNode.id) ∧
      ∀ n ∈ scene.nodes, (n.id = link.source → (link.x1, link.y1) = (n.x, n.y)) ∧
        (n.id = link.target → (link.x2, link.y2) = (n.x, n.y))) := by
  intro now scene
  have hfitted : now.Fitted := (fitted_create hcreate).run operations
  refine ⟨⟨hfitted.length_nodes, fun i u hu => hfitted.exists_node hu⟩, hfitted.joins,
    fun hmode => ?_, fun hids link hlink => ?_⟩
  · rw [hmode]
    rfl
  · obtain ⟨e, hjoins⟩ := hfitted.exists_edge hlink
    exact hjoins.ends (hfitted.map_id_nodes ▸ hids)

/-- Other units come in and one of them is dragged. -/
def swapping : List (Operation Float) :=
  [.setUnits Edge.fittedTwice, .viewMode .dependencies, .dragStart "Style.ts",
    .dragMove "Style.ts" 30 40]

theorem lone_swapped_scene :
    let now := lone.run swapping
    (now.source.map SourceUnit.id).Nodup ∧
    List.Forall₂ (Joins now.scene.nodes)
      [⟨0, 2, .dependency⟩, ⟨0, 1, .dependency⟩, ⟨2, 0, .dependency⟩] now.scene.links ∧
    ∀ link ∈ now.scene.links, link.source ∈ now.scene.nodes.map SceneNode.id ∧
      link.target ∈ now.scene.nodes.map SceneNode.id := by
  intro now
  obtain ⟨-, hlinks, -, hends⟩ := scene_of_run create_lone swapping
  have hids : (now.source.map SourceUnit.id).Nodup := by decide +kernel
  have hedges : Edge.ofUnits now.source now.mode =
      [⟨0, 2, .dependency⟩, ⟨0, 1, .dependency⟩, ⟨2, 0, .dependency⟩] := by decide +kernel
  exact ⟨hids, hedges ▸ hlinks, fun link hlink => (hends hids link hlink).1⟩

end CodeAtlas.Diagram
