import CodeAtlas.Proofs.Decimal.Binary64
import CodeAtlas.Proofs.Diagram.Effect

/-! The view and the layout go their own ways. What is done to the view leaves the layout as it is,
and what is done to the layout leaves the view as it is; a screen point that a unit is dragged to
stands for the layout point that is seen there. -/
namespace CodeAtlas

variable {α γ : Type} [Scalar α]

private theorem Viewport.toLayout_initial [LawfulScalar α] (x y : α) :
    Viewport.initial.toLayout x y = (x, y) := by
  simp only [toLayout, initial, LawfulScalar.sub_zero, LawfulScalar.div_one]

namespace Diagram

namespace Operation

/-- Changes the view alone. -/
def isView : Operation α → Bool
  | zoom .. | pan .. | resetView => true
  | _ => false

/-- Looks at the view. -/
def isDragMove : Operation α → Bool
  | dragMove .. => true
  | _ => false

/-- The operation with the layout point in the place of a screen point. -/
def grounded (v : Viewport α) : Operation α → Operation α
  | dragMove id x y => dragMove id (v.toLayout x y).1 (v.toLayout x y).2
  | op => op

def viewed (physics : Layout.Physics α) (v : Viewport α) : Operation α → Viewport α
  | zoom factor cx cy => v.zoom factor (cx.getD physics.cx) (cy.getD physics.cy)
  | pan dx dy => v.pan dx dy
  | resetView => Viewport.initial
  | _ => v

theorem viewed_of_not_isView {physics : Layout.Physics α} {v : Viewport α} {op : Operation α}
    (h : op.isView = false) : op.viewed physics v = v := by
  cases op with
  | zoom factor cx cy => cases h
  | pan dx dy => cases h
  | resetView => cases h
  | _ => rfl

private theorem grounded_of_not_isDragMove {v : Viewport α} {op : Operation α}
    (h : op.isDragMove = false) : op.grounded v = op := by
  cases op with
  | dragMove id x y => cases h
  | _ => rfl

end Operation

variable {d : Diagram α γ}

/-- The diagram under another view. -/
def withViewport (d : Diagram α γ) (v : Viewport α) : Diagram α γ := d.frame v d.loops

private theorem dragStart_withViewport (id : String) (v : Viewport α) :
    (d.withViewport v).dragStart id = ((d.dragStart id).1.withViewport v, (d.dragStart id).2) :=
  withUnit_map (·.withViewport v) rfl fun _ => rfl

private theorem dragEnd_withViewport (id : String) (v : Viewport α) :
    (d.withViewport v).dragEnd id = ((d.dragEnd id).1.withViewport v, (d.dragEnd id).2) :=
  withUnit_map (·.withViewport v) rfl fun _ => rfl

theorem dragMove_withViewport {id : String} {v : Viewport α} {x y x' y' : α}
    (h : v.toLayout x' y' = d.viewport.toLayout x y) : (d.withViewport v).dragMove id x' y' =
      ((d.dragMove id x y).1.withViewport v, (d.dragMove id x y).2) := by
  have hpoint : (d.withViewport v).viewport.toLayout x' y' = d.viewport.toLayout x y := h
  refine withUnit_map (·.withViewport v) rfl fun i => ?_
  rw [hpoint]
  rfl

theorem setViewMode_withViewport (mode : ViewMode) (v : Viewport α) :
    (d.withViewport v).setViewMode mode = (d.setViewMode mode).withViewport v :=
  setViewMode_map (·.withViewport v) rfl rfl

variable [Generator γ]

theorem wake_withViewport (loop : Nat) (v : Viewport α) :
    (d.withViewport v).wake loop = ((d.wake loop).1.withViewport v, (d.wake loop).2) := by
  have hloops : (d.withViewport v).loops = d.loops := rfl
  by_cases hlive : d.loops.states[loop]?.any LoopState.live
  · rw [wake, wake, hloops, if_pos hlive, if_pos hlive, withViewport, step_frame]
    have hloops := step_loops (d := d)
    generalize d.step = stepped at hloops
    rw [← hloops]
    rfl
  · rw [wake, wake, hloops, if_neg hlive, if_neg hlive]

private theorem wakeOut_withViewport (loop limit : Nat) (v : Viewport α) :
    (d.withViewport v).wakeOut loop limit =
      ((d.wakeOut loop limit).1.withViewport v, (d.wakeOut loop limit).2) := by
  induction limit generalizing d with
  | zero => rfl
  | succ limit ih =>
    rw [wakeOut, wakeOut, wake_withViewport]
    cases d.wake loop with
    | mk next fault =>
      cases fault with
      | some e => rfl
      | none =>
        by_cases hlive : next.loops.states[loop]?.any LoopState.live
        · simp only [if_pos hlive]
          exact (if_pos hlive).trans ih
        · simp only [if_neg hlive]
          exact if_neg hlive

theorem apply_withViewport {op : Operation α} (v : Viewport α) (hview : op.isView = false)
    (hmove : op.isDragMove = false) :
    (d.withViewport v).apply op = ((d.apply op).1.withViewport v, (d.apply op).2) := by
  cases op with
  | step count =>
    simp only [apply, replying, withViewport, steps_frame, steps_loops]
  | settle limit =>
    have hlimit : (d.withViewport v).limitOf limit = d.limitOf limit := rfl
    simp only [apply, replying, hlimit]
    simp only [withViewport, settle_frame, settle_loops]
  | setUnits units => rfl
  | viewMode mode => exact Prod.ext (setViewMode_withViewport mode v) rfl
  | viewModeNamed text =>
    simp only [apply, replying, setViewModeNamed]
    cases ViewMode.ofName? text with
    | some mode => exact Prod.ext (setViewMode_withViewport mode v) rfl
    | none => rfl
  | dragStart id => simp only [apply, replying, dragStart_withViewport]
  | dragMove id x y => cases hmove
  | dragEnd id => simp only [apply, replying, dragEnd_withViewport]
  | zoom factor cx cy => cases hview
  | pan dx dy => cases hview
  | resetView => cases hview
  | start => rfl
  | stop => rfl
  | close => rfl
  | runLoop limit =>
    have hstart : (d.withViewport v).stop.start = d.stop.start.withViewport v := rfl
    have hloops : (d.withViewport v).loops = d.loops := rfl
    rw [apply_runLoop, apply_runLoop, hstart, hloops, wakeOut_withViewport]
    rfl
  | wake loop =>
    rw [apply_wake, apply_wake, wake_withViewport]

theorem apply_of_isView {op : Operation α} (h : op.isView = true) :
    (d.apply op).1 = d.withViewport (op.viewed d.physics d.viewport) := by
  cases op with
  | zoom factor cx cy => rfl
  | pan dx dy => rfl
  | resetView => rfl
  | _ => cases h

theorem viewport_apply (op : Operation α) :
    (d.apply op).1.viewport = op.viewed d.physics d.viewport := by
  cases hview : op.isView with
  | true => rw [apply_of_isView hview, withViewport, frame_viewport]
  | false =>
    rw [Operation.viewed_of_not_isView hview]
    cases hmove : op.isDragMove with
    | false => exact congrArg (·.1.viewport) (apply_withViewport (d := d) d.viewport hview hmove)
    | true =>
      cases op with
      | dragMove id x y =>
        exact congrArg (·.1.viewport) (dragMove_withViewport (d := d) (v := d.viewport) rfl)
      | _ => cases hmove

theorem viewport_run (operations : List (Operation α)) :
    (d.run operations).viewport =
      operations.foldl (fun v op => op.viewed d.physics v) d.viewport := by
  induction operations generalizing d with
  | nil => rfl
  | cons op rest ih =>
    have hrest := ih (d := (d.apply op).1)
    rw [(sameMake_apply op).physics, viewport_apply] at hrest
    exact hrest

private theorem viewed_filter_isView (physics : Layout.Physics α) (v : Viewport α)
    (operations : List (Operation α)) :
    (operations.filter (·.isView)).foldl (fun v op => op.viewed physics v) v =
      operations.foldl (fun v op => op.viewed physics v) v := by
  induction operations generalizing v with
  | nil => rfl
  | cons op rest ih =>
    cases hview : op.isView with
    | true =>
      rw [List.filter_cons_of_pos hview]
      exact ih _
    | false =>
      rw [List.filter_cons_of_neg (by simp [hview]), ih, List.foldl_cons,
        Operation.viewed_of_not_isView hview]

/-- Operations on the layout alone, in which units are dragged to layout points. -/
def grounded (d : Diagram α γ) : List (Operation α) → List (Operation α)
  | [] => []
  | op :: rest =>
    if op.isView then grounded (d.apply op).1 rest
    else op.grounded d.viewport :: grounded (d.apply op).1 rest

theorem run_filter_layout {operations : List (Operation α)} (v : Viewport α)
    (hmove : ∀ op ∈ operations, op.isDragMove = false) :
    (d.withViewport v).run (operations.filter (!·.isView)) =
      (d.run operations).withViewport v := by
  induction operations generalizing d with
  | nil => rfl
  | cons op rest ih =>
    have hrest := fun d => ih (d := d) fun op hop => hmove op (List.mem_cons_of_mem _ hop)
    cases hview : op.isView with
    | true =>
      have hnext : d.withViewport v = (d.apply op).1.withViewport v := by
        rw [apply_of_isView hview]
        rfl
      rw [List.filter_cons_of_neg (by simp [hview]), hnext]
      exact hrest _
    | false =>
      rw [List.filter_cons_of_pos (by simp [hview]), run, List.foldl_cons,
        apply_withViewport v hview (hmove op List.mem_cons_self)]
      exact hrest _

private theorem apply_grounded [LawfulScalar α] {op : Operation α} (hview : op.isView = false) :
    ((d.withViewport Viewport.initial).apply (op.grounded d.viewport)).1 =
      (d.apply op).1.withViewport Viewport.initial := by
  cases hmove : op.isDragMove with
  | false =>
    rw [Operation.grounded_of_not_isDragMove hmove]
    exact congrArg Prod.fst (apply_withViewport _ hview hmove)
  | true =>
    cases op with
    | dragMove id x y =>
      exact congrArg Prod.fst (dragMove_withViewport (Viewport.toLayout_initial _ _))
    | _ => cases hmove

private theorem run_grounded [LawfulScalar α] (operations : List (Operation α)) :
    (d.withViewport Viewport.initial).run (d.grounded operations) =
      (d.run operations).withViewport Viewport.initial := by
  induction operations generalizing d with
  | nil => rfl
  | cons op rest ih =>
    cases hview : op.isView with
    | true =>
      have hnext : d.withViewport Viewport.initial =
          (d.apply op).1.withViewport Viewport.initial := by
        rw [apply_of_isView hview]
        rfl
      rw [grounded, if_pos hview, hnext]
      exact ih
    | false =>
      rw [grounded, if_neg (by simp [hview]), run, List.foldl_cons, apply_grounded hview]
      exact ih

/-- The view after a run is that after its operations on the view alone. All else after a run
without drags to screen points is as after its operations on the layout alone, and so it is after
any run that the first view begins, if every such drag is to the layout point seen at the time. -/
theorem view_and_layout_apart [LawfulScalar α] (d : Diagram α γ)
    (operations : List (Operation α)) :
    (d.run operations).viewport = (d.run (operations.filter (·.isView))).viewport ∧
    ((∀ op ∈ operations, op.isDragMove = false) → d.run operations =
      { d.run (operations.filter (!·.isView)) with viewport := (d.run operations).viewport }) ∧
    (d.viewport = Viewport.initial → d.run operations =
      { d.run (d.grounded operations) with viewport := (d.run operations).viewport }) := by
  refine ⟨?_, fun hmove => ?_, fun hinitial => ?_⟩
  · rw [viewport_run, viewport_run, viewed_filter_isView]
  · have hrun := run_filter_layout (d := d) d.viewport hmove
    exact (congrArg (·.withViewport (d.run operations).viewport) hrun).symm
  · have hrun := run_grounded (d := d) operations
    rw [← hinitial] at hrun
    exact (congrArg (·.withViewport (d.run operations).viewport) hrun).symm

theorem lone_dragged_under_view : lone.run dragging =
    { lone.run (lone.grounded dragging) with viewport := (lone.run dragging).viewport } :=
  (view_and_layout_apart lone dragging).2.2 rfl

end Diagram

end CodeAtlas
