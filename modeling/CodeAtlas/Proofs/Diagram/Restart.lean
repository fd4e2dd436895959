import CodeAtlas.Proofs.Diagram.View

/-! What a layout remembers. Beginning again makes it the layout of a new diagram; from there on it
depends on what is done to it alone, where a loop that wakes up is no more than a step. -/
namespace CodeAtlas.Diagram

variable {α γ : Type} [Scalar α] {d e : Diagram α γ}

theorem measure_measure (own : Option Int) (fallback : Int) :
    measure (some (measure own fallback)) fallback = measure own fallback := by
  rw [measure]
  split
  · next h =>
    cases own with
    | none => rfl
    | some n =>
      by_cases hn : n = 0
      · exact (if_pos hn).symm
      · exact absurd ((if_neg hn).symm.trans h) hn
  · rfl

def anew (d : Diagram α γ) (units : List SourceUnit) (mode : ViewMode) : Diagram α γ :=
  { d with source := units, mode, viewport := Viewport.initial, loops := {} }.rebuild

theorem SameMake.anew_eq (h : SameMake d e) (units : List SourceUnit) (mode : ViewMode) :
    e.anew units mode = d.anew units mode := by
  simp only [anew, rebuild, h.width, h.height, h.physics, h.tickLimit, h.seed]

theorem create_again {options : DiagramOptions α} {units : List SourceUnit}
    {width height : Option Int} {mode : ViewMode} {seed : γ}
    (h : create options units width height mode seed = .ok d) (hmake : SameMake d e)
    (units' : List SourceUnit) (mode' : ViewMode) :
    create options units' (some e.width) (some e.height) mode' seed =
      .ok (e.anew units' mode') := by
  rw [hmake.anew_eq, hmake.width, hmake.height]
  obtain ⟨hfinite, rfl⟩ := create_eq_ok_iff.1 h
  refine create_eq_ok_iff.2 ⟨?_, ?_⟩
  · rwa [created, measure_measure, measure_measure]
  · rw [created, measure_measure, measure_measure]
    rfl

variable [Generator γ]

theorem apply_of_restartOf? {op : Operation α} {units : List SourceUnit} {mode : ViewMode}
    (h : d.restartOf? op = some (units, mode)) :
    (d.apply op).1 = (d.anew units mode).frame d.viewport (d.apply op).1.loops := by
  have hview (shown : ViewMode)
      (hshown : (if shown = d.mode then none else some (d.source, shown)) = some (units, mode)) :
      d.setViewMode shown = (d.anew units mode).frame d.viewport (d.setViewMode shown).loops := by
    rw [setViewMode]
    split at hshown
    · cases hshown
    · next hmode =>
      cases hshown
      rw [if_neg hmode]
      rfl
  cases op with
  | setUnits units => cases h; rfl
  | close => cases h; rfl
  | viewMode shown => exact hview shown h
  | viewModeNamed text =>
    obtain ⟨shown, hname, hshown⟩ := Option.bind_eq_some_iff.1 h
    simp only [apply, replying, setViewModeNamed, hname]
    exact hview shown hshown
  | _ => cases h

/-- The diagram without its loops. -/
def quiet (d : Diagram α γ) : Diagram α γ := d.frame d.viewport {}

/-- What an operation does to a diagram whose loops are put aside: a loop that wakes up is a step,
and a loop that is run to its end settles the layout. -/
def Operation.direct (loops : Loops) : Operation α → List (Operation α)
  | .start | .stop => []
  | .wake loop => if loops.states[loop]?.any LoopState.live then [.step 1] else []
  | .runLoop limit => [.settle (some limit)]
  | op => [op]

/-- What a list of operations does to a diagram whose loops are put aside. -/
def direct (d : Diagram α γ) : List (Operation α) → List (Operation α)
  | [] => []
  | op :: rest => op.direct d.loops ++ direct (d.apply op).1 rest

theorem step_quiet : d.quiet.step = (d.step.1.quiet, d.step.2) := by
  rw [quiet, quiet, step_frame, step_viewport]

private theorem steps_quiet (count : Nat) :
    d.quiet.steps count = ((d.steps count).1.quiet, (d.steps count).2) := by
  rw [quiet, quiet, steps_frame, steps_viewport]

theorem settle_quiet (limit : Nat) :
    d.quiet.settle limit = ((d.settle limit).1.quiet, (d.settle limit).2) := by
  rw [quiet, quiet, settle_frame, settle_viewport]

theorem steps_one : (d.steps 1).1 = d.step.1 := by
  rw [steps]
  cases d.step with
  | mk next result => cases result <;> rfl

theorem any_live_set {states : List LoopState} {loop : Nat}
    (h : states[loop]?.any LoopState.live = true) (s : LoopState) :
    (states.set loop s)[loop]?.any LoopState.live = s.live := by
  have hbound : loop < states.length := by
    by_cases hbound : loop < states.length
    · exact hbound
    · rw [List.getElem?_eq_none (Nat.le_of_not_lt hbound)] at h
      cases h
  rw [List.getElem?_set_self hbound, Option.any_some]

private theorem wakeOut_quiet {loop : Nat} (limit : Nat)
    (h : d.loops.states[loop]?.any LoopState.live = true) :
    (d.wakeOut loop limit).1.quiet = (d.settle limit).1.quiet := by
  induction limit generalizing d with
  | zero => rfl
  | succ limit ih =>
    -- A loop that lives on after its step goes on as the settling does, whatever the loops are.
    have hrest (next : Diagram α γ) (l : Loops)
        (hlive : l.states[loop]?.any LoopState.live = true) :
        ((next.frame next.viewport l).wakeOut loop limit).1.quiet =
          (next.settle limit).1.quiet := by
      rw [ih (d := next.frame next.viewport l) hlive, settle_frame, quiet, quiet, settle_viewport]
      rfl
    have hloops := step_loops (d := d)
    rw [wakeOut, settle, wake, if_pos h]
    cases hstep : d.step with
    | mk next result =>
      rw [hstep] at hloops
      rw [← hloops] at h
      cases result with
      | error e => rfl
      | ok phase =>
        cases phase with
        | settled =>
          simp only [any_live_set h]
          rfl
        | idle =>
          simp only [any_live_set h]
          exact hrest _ _ (any_live_set h .sleeping)
        | simulating =>
          simp only [any_live_set h]
          exact hrest _ _ (any_live_set h .sleeping)

omit [Generator γ] in
theorem setViewMode_quiet (mode : ViewMode) :
    d.quiet.setViewMode mode = (d.setViewMode mode).quiet := setViewMode_map quiet rfl rfl

omit [Generator γ] in
private theorem dragStart_quiet (id : String) :
    d.quiet.dragStart id = ((d.dragStart id).1.quiet, (d.dragStart id).2) :=
  withUnit_map quiet rfl fun _ => rfl

omit [Generator γ] in
private theorem dragMove_quiet (id : String) (x y : α) :
    d.quiet.dragMove id x y = ((d.dragMove id x y).1.quiet, (d.dragMove id x y).2) :=
  withUnit_map quiet rfl fun _ => rfl

omit [Generator γ] in
private theorem dragEnd_quiet (id : String) :
    d.quiet.dragEnd id = ((d.dragEnd id).1.quiet, (d.dragEnd id).2) :=
  withUnit_map quiet rfl fun _ => rfl

private theorem apply_direct (op : Operation α) :
    d.quiet.run (op.direct d.loops) = (d.apply op).1.quiet := by
  cases op with
  | step count => exact congrArg Prod.fst (steps_quiet count)
  | settle limit => exact congrArg Prod.fst (settle_quiet (d.limitOf limit))
  | setUnits units => rfl
  | viewMode mode => exact setViewMode_quiet mode
  | viewModeNamed text =>
    simp only [Operation.direct, run, List.foldl_cons, List.foldl_nil, apply, replying,
      setViewModeNamed]
    cases ViewMode.ofName? text with
    | some mode => exact setViewMode_quiet mode
    | none => rfl
  | dragStart id => exact congrArg Prod.fst (dragStart_quiet id)
  | dragMove id x y => exact congrArg Prod.fst (dragMove_quiet id x y)
  | dragEnd id => exact congrArg Prod.fst (dragEnd_quiet id)
  | zoom factor cx cy => rfl
  | pan dx dy => rfl
  | resetView => rfl
  | start => rfl
  | stop => rfl
  | close => rfl
  | runLoop limit =>
    have hloops : d.stop.start.loops =
        ⟨d.loops.stop.states ++ [.created], some d.loops.stop.states.length⟩ := start_stop d.loops
    have hlive :
        d.stop.start.loops.states[d.loops.stop.states.length]?.any LoopState.live = true := by
      rw [hloops, List.getElem?_concat_length]
      rfl
    rw [apply_runLoop, wakeOut_quiet limit hlive]
    exact congrArg Prod.fst (settle_quiet (d := d.stop.start) limit)
  | wake loop =>
    rw [apply_wake, wake, Operation.direct]
    split
    · refine (steps_one (d := d.quiet)).trans ?_
      rw [step_quiet]
      rfl
    · rfl

theorem run_append (first second : List (Operation α)) :
    d.run (first ++ second) = (d.run first).run second := List.foldl_append

private theorem run_direct (operations : List (Operation α)) :
    d.quiet.run (d.direct operations) = (d.run operations).quiet := by
  induction operations generalizing d with
  | nil => rfl
  | cons op rest ih =>
    rw [direct, run_append, apply_direct, ih]
    rfl

/-- Is about the loops. -/
def Operation.isLoop : Operation α → Bool
  | .start | .stop | .wake _ | .runLoop _ => true
  | _ => false

private theorem direct_of_not_isLoop {operations : List (Operation α)}
    (h : ∀ op ∈ operations, op.isLoop = false) : d.direct operations = operations := by
  induction operations generalizing d with
  | nil => rfl
  | cons op rest ih =>
    have hop : op.direct d.loops = [op] := by
      have hloop := h op List.mem_cons_self
      cases op with
      | start => cases hloop
      | stop => cases hloop
      | wake loop => cases hloop
      | runLoop limit => cases hloop
      | _ => rfl
    rw [direct, hop, ih fun op hop => h op (List.mem_cons_of_mem _ hop)]
    rfl

omit [Scalar α] in
theorem Operation.not_isDragMove_of_mem_direct {loops : Loops} {op op' : Operation α}
    (hop : op' ∈ op.direct loops) (h : op.isDragMove = false) : op'.isDragMove = false := by
  cases op with
  | start => cases hop
  | stop => cases hop
  | wake loop =>
    rw [direct] at hop
    split at hop
    · cases List.mem_singleton.1 hop
      rfl
    · cases hop
  | runLoop limit =>
    cases List.mem_singleton.1 hop
    rfl
  | _ =>
    cases List.mem_singleton.1 hop
    exact h

theorem not_isDragMove_of_mem_direct {operations : List (Operation α)}
    (h : ∀ op ∈ operations, op.isDragMove = false) :
    ∀ op ∈ d.direct operations, op.isDragMove = false := by
  induction operations generalizing d with
  | nil => exact h
  | cons op rest ih =>
    intro op' hop'
    rcases List.mem_append.1 hop' with hhere | hlater
    · exact Operation.not_isDragMove_of_mem_direct hhere (h op List.mem_cons_self)
    · exact ih (fun op hop => h op (List.mem_cons_of_mem _ hop)) op' hlater

private theorem run_withViewport {operations : List (Operation α)} (v w : Viewport α)
    (hmove : ∀ op ∈ operations, op.isDragMove = false) :
    ((d.withViewport v).run operations).withViewport w = (d.run operations).withViewport w :=
  have hunder := run_filter_layout (d := d.withViewport v) w hmove
  hunder.symm.trans (run_filter_layout (d := d) w hmove)

private theorem quiet_run_of_restartOf? {op : Operation α} {units : List SourceUnit}
    {mode : ViewMode} (h : d.restartOf? op = some (units, mode)) (after : List (Operation α)) :
    ((d.apply op).1.run after).quiet =
      ((d.anew units mode).withViewport d.viewport).run ((d.apply op).1.direct after) := by
  have hstart : (d.apply op).1.quiet = (d.anew units mode).withViewport d.viewport := by
    rw [apply_of_restartOf? h]
    rfl
  rw [← hstart, run_direct]

private theorem run_viewMode_back {other : ViewMode} (h : other ≠ d.mode) :
    d.run [.viewMode other, .viewMode d.mode] = (d.anew d.source d.mode).frame d.viewport
      (d.run [.viewMode other, .viewMode d.mode]).loops := by
  have hleave : (d.apply (.viewMode other)).1 =
      (d.anew d.source other).frame d.viewport (d.apply (.viewMode other)).1.loops :=
    apply_of_restartOf? (if_neg h)
  have hreturn : (d.apply (.viewMode other)).1.restartOf? (.viewMode d.mode) =
      some (d.source, d.mode) := by
    rw [hleave]
    exact if_neg (Ne.symm h)
  have hback := apply_of_restartOf? hreturn
  rw [(sameMake_apply (d := d) (.viewMode other)).anew_eq, viewport_apply] at hback
  exact hback

/-- A new beginning leaves nothing of the past but the view and the loops: all else is as in a new
diagram of the same size and from the same seed, over the units and in the view mode that are shown
now. What is done later does to the layout what it does to the new diagram under that view, where
loops that wake up are steps; without drags to screen points the view does not matter. Changing the
view mode and changing it back begins the layout again. -/
theorem restart_forgets_past {options : DiagramOptions α} {units : List SourceUnit}
    {width height : Option Int} {mode : ViewMode} {seed : γ}
    (hcreate : create options units width height mode seed = .ok d)
    (before : List (Operation α)) :
    let now := d.run before
    (∀ op units' mode', now.restartOf? op = some (units', mode') → ∃ fresh,
      create options units' (some now.width) (some now.height) mode' seed = .ok fresh ∧
      (now.apply op).1 = fresh.frame now.viewport (now.apply op).1.loops ∧
      ∀ after, let later := (now.apply op).1.run after
        let direct := (now.apply op).1.direct after
        later.quiet = (fresh.withViewport now.viewport).run direct ∧
        ((∀ op ∈ after, op.isDragMove = false) →
          later.quiet = (fresh.run direct).withViewport later.viewport) ∧
        ((∀ op ∈ after, op.isLoop = false) → direct = after)) ∧
    ∀ other, other ≠ now.mode → ∃ fresh,
      create options now.source (some now.width) (some now.height) now.mode seed = .ok fresh ∧
      let back := now.run [.viewMode other, .viewMode now.mode]
      back = fresh.frame now.viewport back.loops := by
  intro now
  have hmake : SameMake d now := sameMake_run before
  refine ⟨fun op units' mode' hrestart => ⟨now.anew units' mode', create_again hcreate hmake _ _,
    apply_of_restartOf? hrestart, fun after => ?_⟩, fun other hother =>
    ⟨now.anew now.source now.mode, create_again hcreate hmake _ _, run_viewMode_back hother⟩⟩
  intro later direct
  have hquiet : later.quiet = ((now.anew units' mode').withViewport now.viewport).run direct :=
    quiet_run_of_restartOf? hrestart after
  refine ⟨hquiet, fun hmove => ?_, direct_of_not_isLoop⟩
  calc later.quiet = later.quiet.withViewport later.viewport := rfl
    _ = ((now.anew units' mode').run direct).withViewport later.viewport := by
      rw [hquiet, run_withViewport _ _ (not_isDragMove_of_mem_direct hmove)]

theorem lone_dragged_restart :
    let dragged := lone.run dragging
    ∃ fresh, create ({} : Settings).diagramOptions [loneUnit] (some dragged.width)
        (some dragged.height) .nesting (Twister.ofSeed 0) = .ok fresh ∧
      (dragged.apply (.viewMode .nesting)).1 =
        fresh.frame dragged.viewport (dragged.apply (.viewMode .nesting)).1.loops := by
  obtain ⟨fresh, hcreate, hrestart, -⟩ := (restart_forgets_past create_lone dragging).1
    (.viewMode .nesting) [loneUnit] .nesting (by decide +kernel)
  exact ⟨fresh, hcreate, hrestart⟩

end CodeAtlas.Diagram
