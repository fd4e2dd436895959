import CodeAtlas.Diagram.Operation
import CodeAtlas.Random.Twister
import CodeAtlas.Settings

/-! What an operation can do to a diagram. A layout is ticked, begun again, or has one of its bodies
held, moved or let go; none of this looks at the view or at the loops, but for the point that a body
is moved to. -/
namespace CodeAtlas.Diagram

variable {α γ : Type} {d e f : Diagram α γ}

/-- The layout of a diagram under another view and with other loops. -/
def frame (d : Diagram α γ) (viewport : Viewport α) (loops : Loops) : Diagram α γ :=
  { d with viewport, loops }

@[simp] theorem frame_viewport (v : Viewport α) (l : Loops) : (d.frame v l).viewport = v := rfl

variable [Scalar α]

def created (options : DiagramOptions α) (units : List SourceUnit) (width height : Int)
    (mode : ViewMode) (seed : γ) : Diagram α γ :=
  let physics := ⟨options.distance, options.charge, options.radius,
    Scalar.ofRatio width 2, Scalar.ofRatio height 2⟩
  let edges := Edge.ofUnits units mode
  { width, height, physics, seed, mode, edges, tickLimit := options.tickLimit, source := units
    simulation := layoutOf physics seed units edges, phase := .idle
    viewport := Viewport.initial, loops := {} }

theorem create_eq_ok_iff {options : DiagramOptions α} {units : List SourceUnit}
    {width height : Option Int} {mode : ViewMode} {seed : γ} :
    create options units width height mode seed = .ok d ↔
      (Scalar.finite (Scalar.ofRatio (measure width options.width) 2 : α) = true ∧
        Scalar.finite (Scalar.ofRatio (measure height options.height) 2 : α) = true) ∧
      d = created options units (measure width options.width) (measure height options.height)
        mode seed := by
  rw [← Bool.and_eq_true]
  dsimp only [create]
  split
  · next h => simp [h, created, eq_comm]
  · next h => simp [h]

def loneUnit : SourceUnit := { id := "src/main.ts", name := "main.ts", path := "src/main.ts" }

/-- The diagram of one unit under the settings of an empty environment. -/
def lone : Diagram Float Twister :=
  created ({} : Settings).diagramOptions [loneUnit] 800 600 .both (Twister.ofSeed 0)

/-- The unit is dragged while the view changes. -/
def dragging : List (Operation Float) :=
  [.step 2, .pan 5 6, .dragStart loneUnit.id, .zoom 2 none none, .dragMove loneUnit.id 30 40,
    .step 1, .dragEnd loneUnit.id]

theorem create_lone : create ({} : Settings).diagramOptions [loneUnit] none none .both
    (Twister.ofSeed 0) = .ok lone :=
  create_eq_ok_iff.2 ⟨⟨by decide +kernel, by decide +kernel⟩, rfl⟩

variable [Generator γ]

theorem step_of_settled (h : d.phase = .settled) : d.step = (d, .ok .settled) := if_pos h

theorem step_of_isEmpty (h : d.phase ≠ .settled) (hempty : d.source.isEmpty = true) :
    d.step = ({ d with phase := .settled }, .ok .settled) := by
  rw [step, if_neg h, if_pos hempty]

theorem step_of_stalled (h : d.phase ≠ .settled) (hunits : ¬d.source.isEmpty = true)
    {s : Layout.Simulation α γ} (htick : d.simulation.tick = (s, true)) :
    d.step = ({ d with simulation := s, phase := .simulating }, .error .divisionByZero) := by
  rw [step, if_neg h, if_neg hunits, htick]

theorem step_of_ticked (h : d.phase ≠ .settled) (hunits : ¬d.source.isEmpty = true)
    {s : Layout.Simulation α γ} (htick : d.simulation.tick = (s, false)) :
    d.step = ({ d with simulation := s, phase := if s.settled then .settled else .simulating },
      .ok (if s.settled then .settled else .simulating)) := by
  rw [step, if_neg h, if_neg hunits, htick]

inductive Stepped (d : Diagram α γ) : Diagram α γ × Except DiagramError Phase → Prop
  | settled (phase : d.phase = .settled) : Stepped d (d, .ok .settled)
  | emptied (phase : d.phase ≠ .settled) (units : d.source.isEmpty = true) :
      Stepped d ({ d with phase := .settled }, .ok .settled)
  | stalled (phase : d.phase ≠ .settled) (units : ¬d.source.isEmpty = true)
      {s : Layout.Simulation α γ} (tick : d.simulation.tick = (s, true)) :
      Stepped d ({ d with simulation := s, phase := .simulating }, .error .divisionByZero)
  | ticked (phase : d.phase ≠ .settled) (units : ¬d.source.isEmpty = true)
      {s : Layout.Simulation α γ} (tick : d.simulation.tick = (s, false)) :
      Stepped d ({ d with simulation := s, phase := if s.settled then .settled else .simulating },
        .ok (if s.settled then .settled else .simulating))

theorem stepped_step : Stepped d d.step := by
  by_cases hphase : d.phase = .settled
  · rw [step_of_settled hphase]
    exact .settled hphase
  by_cases hunits : d.source.isEmpty = true
  · rw [step_of_isEmpty hphase hunits]
    exact .emptied hphase hunits
  cases htick : d.simulation.tick with
  | mk s stalled =>
    cases stalled with
    | true =>
      rw [step_of_stalled hphase hunits htick]
      exact .stalled hphase hunits htick
    | false =>
      rw [step_of_ticked hphase hunits htick]
      exact .ticked hphase hunits htick

theorem simulation_step : d.step.1.simulation = d.simulation ∨
    d.step.1.simulation = d.simulation.tick.1 := by
  generalize hstep : d.step = result
  cases hstep ▸ stepped_step (d := d) with
  | settled phase => exact .inl rfl
  | emptied phase units => exact .inl rfl
  | stalled phase units tick => exact .inr (congrArg Prod.fst tick).symm
  | ticked phase units tick => exact .inr (congrArg Prod.fst tick).symm

theorem step_frame (v : Viewport α) (l : Loops) :
    (d.frame v l).step = (d.step.1.frame v l, d.step.2) := by
  generalize hstep : d.step = result
  cases hstep ▸ stepped_step (d := d) with
  | settled phase => exact step_of_settled (d := d.frame v l) phase
  | emptied phase units => exact step_of_isEmpty (d := d.frame v l) phase units
  | stalled phase units tick => exact step_of_stalled (d := d.frame v l) phase units tick
  | ticked phase units tick => exact step_of_ticked (d := d.frame v l) phase units tick

theorem steps_frame (count : Nat) (v : Viewport α) (l : Loops) :
    (d.frame v l).steps count = ((d.steps count).1.frame v l, (d.steps count).2) := by
  induction count generalizing d with
  | zero => rfl
  | succ count ih =>
    rw [steps, steps, step_frame]
    cases d.step with
    | mk next result =>
      cases result with
      | ok phase => exact ih
      | error fault => rfl

theorem settle_frame (limit : Nat) (v : Viewport α) (l : Loops) :
    (d.frame v l).settle limit = ((d.settle limit).1.frame v l, (d.settle limit).2) := by
  induction limit generalizing d with
  | zero => rfl
  | succ limit ih =>
    rw [settle, settle, step_frame]
    cases d.step with
    | mk next result =>
      cases result with
      | error fault => rfl
      | ok phase =>
        cases phase with
        | settled => rfl
        | idle => exact ih
        | simulating => exact ih

@[simp] theorem step_loops : d.step.1.loops = d.loops :=
  congrArg (·.1.loops) (step_frame (d := d) d.viewport d.loops)

@[simp] theorem steps_loops (count : Nat) : (d.steps count).1.loops = d.loops :=
  congrArg (·.1.loops) (steps_frame (d := d) count d.viewport d.loops)

@[simp] theorem settle_loops (limit : Nat) : (d.settle limit).1.loops = d.loops :=
  congrArg (·.1.loops) (settle_frame (d := d) limit d.viewport d.loops)

@[simp] theorem step_viewport : d.step.1.viewport = d.viewport :=
  congrArg (·.1.viewport) (step_frame (d := d) d.viewport d.loops)

@[simp] theorem steps_viewport (count : Nat) : (d.steps count).1.viewport = d.viewport :=
  congrArg (·.1.viewport) (steps_frame (d := d) count d.viewport d.loops)

@[simp] theorem settle_viewport (limit : Nat) : (d.settle limit).1.viewport = d.viewport :=
  congrArg (·.1.viewport) (settle_frame (d := d) limit d.viewport d.loops)

/-- Ticks, with changes of the loops between them; if they are to be clean, no tick fails. -/
inductive Ticked (clean : Prop) : Diagram α γ → Diagram α γ → Prop
  | refl (d : Diagram α γ) : Ticked clean d d
  | step {d e : Diagram α γ} (h : clean → d.step.2 ≠ .error .divisionByZero)
      (rest : Ticked clean d.step.1 e) : Ticked clean d e
  | loops {d e : Diagram α γ} (l : Loops) (rest : Ticked clean (d.frame d.viewport l) e) :
      Ticked clean d e

variable {clean clean' : Prop}

theorem Ticked.mono (hclean : clean' → clean) (h : Ticked clean d e) : Ticked clean' d e := by
  induction h with
  | refl d => exact .refl d
  | step h rest ih => exact .step (h ∘ hclean) ih
  | loops l rest ih => exact .loops l ih

theorem Ticked.same {β : Type} (f : Diagram α γ → β) (h : Ticked clean d e)
    (hstep : ∀ d : Diagram α γ, f d.step.1 = f d)
    (hloops : ∀ (d : Diagram α γ) (l : Loops), f (d.frame d.viewport l) = f d) : f e = f d := by
  induction h with
  | refl d => rfl
  | step h rest ih => exact ih.trans (hstep _)
  | loops l rest ih => exact ih.trans (hloops _ l)

theorem Ticked.trans (h : Ticked clean d e) (h' : Ticked clean e f) : Ticked clean d f := by
  induction h with
  | refl d => exact h'
  | step h rest ih => exact .step h (ih h')
  | loops l rest ih => exact .loops l (ih h')

private theorem ticked_steps (count : Nat) :
    Ticked ((d.steps count).2 ≠ .error .divisionByZero) d (d.steps count).1 := by
  induction count generalizing d with
  | zero => exact .refl d
  | succ count ih =>
    rw [steps]
    cases hstep : d.step with
    | mk next result =>
      obtain rfl : d.step.1 = next := congrArg Prod.fst hstep
      cases result with
      | ok phase => exact .step (fun _ h => by rw [hstep] at h; cases h) ih
      | error fault => exact .step (fun h => by rwa [hstep]) (.refl _)

private theorem ticked_settle (limit : Nat) :
    Ticked ((d.settle limit).2 ≠ .error .divisionByZero) d (d.settle limit).1 := by
  induction limit generalizing d with
  | zero => exact .refl d
  | succ limit ih =>
    rw [settle]
    cases hstep : d.step with
    | mk next result =>
      obtain rfl : d.step.1 = next := congrArg Prod.fst hstep
      cases result with
      | error fault => exact .step (fun h => by rwa [hstep]) (.refl _)
      | ok phase =>
        have hclean : d.step.2 ≠ .error .divisionByZero := fun h => by rw [hstep] at h; cases h
        cases phase with
        | settled => exact .step (fun _ => hclean) (.refl _)
        | idle => exact .step (fun _ => hclean) ih
        | simulating => exact .step (fun _ => hclean) ih

theorem ticked_wake (loop : Nat) :
    Ticked ((d.wake loop).2 ≠ some .divisionByZero) d (d.wake loop).1 := by
  by_cases hlive : d.loops.states[loop]?.any LoopState.live
  · rw [wake, if_pos hlive]
    cases hstep : d.step with
    | mk next result =>
      obtain rfl : d.step.1 = next := congrArg Prod.fst hstep
      refine .step (fun h hresult => ?_) (.loops _ (.refl _))
      rw [hstep] at hresult
      obtain rfl : result = .error .divisionByZero := hresult
      exact h rfl
  · rw [wake, if_neg hlive]
    exact .refl d

private theorem ticked_wakeOut (loop limit : Nat) :
    Ticked ((d.wakeOut loop limit).2 ≠ some .divisionByZero) d (d.wakeOut loop limit).1 := by
  induction limit generalizing d with
  | zero => exact .refl d
  | succ limit ih =>
    have hwake := ticked_wake (d := d) loop
    rw [wakeOut]
    cases hresult : d.wake loop with
    | mk next fault =>
      rw [hresult] at hwake
      cases fault with
      | some e => exact hwake
      | none =>
        have hfirst : ∀ clean, Ticked clean d next := fun clean => hwake.mono fun _ => by simp
        by_cases hlive : next.loops.states[loop]?.any LoopState.live
        · simp only [hlive, if_true]
          exact (hfirst _).trans ih
        · simp only [hlive]
          exact hfirst _

/-- The units and the view mode that an operation begins the layout again with. -/
def restartOf? (d : Diagram α γ) : Operation α → Option (List SourceUnit × ViewMode)
  | .setUnits units => some (units, d.mode)
  | .viewMode mode => if mode = d.mode then none else some (d.source, mode)
  | .viewModeNamed text =>
    (ViewMode.ofName? text).bind fun mode => if mode = d.mode then none else some (d.source, mode)
  | .close => some ([], d.mode)
  | _ => none

inductive Effect (d : Diagram α γ) : Operation α → Diagram α γ → Prop
  | ticked {op e} (h : Ticked ((d.apply op).2 ≠ .error .divisionByZero) d e) : Effect d op e
  | restarted {op units mode} (h : d.restartOf? op = some (units, mode)) (loops : Loops) :
      Effect d op { d with source := units, mode, loops }.rebuild
  | held {id i} (h : d.indexOf? id = some i) (loops : Loops) :
      Effect d (.dragStart id)
        { d with
          simulation := (d.simulation.modify i fun b =>
            { b with fx := some b.x, fy := some b.y }).reheat Layout.Cooling.warmTarget
          phase := .simulating
          loops }
  | moved {id x y i} (h : d.indexOf? id = some i) (fx fy : α) :
      Effect d (.dragMove id x y)
        { d with
          simulation := d.simulation.modify i fun b => { b with fx := some fx, fy := some fy } }
  | released {id i} (h : d.indexOf? id = some i) :
      Effect d (.dragEnd id)
        { d with
          simulation :=
            (d.simulation.modify i fun b => { b with fx := none, fy := none }).cool }
  | viewed {op} (viewport : Viewport α) : Effect d op (d.frame viewport d.loops)

def outcome (fault : Option DiagramError) (reply : Reply) : Except DiagramError Reply :=
  match fault with
  | none => .ok reply
  | some e => .error e

theorem apply_wake (loop : Nat) :
    d.apply (.wake loop) = ((d.wake loop).1, outcome (d.wake loop).2 .done) := by
  rw [apply]
  cases d.wake loop with
  | mk next fault => cases fault <;> rfl

private theorem current_stop (l : Loops) : l.stop.current = none := by
  unfold Loops.stop
  split
  · rfl
  · assumption

theorem start_stop (l : Loops) :
    l.stop.start = ⟨l.stop.states ++ [.created], some l.stop.states.length⟩ := by
  have hrunning : l.stop.running = false := by
    rw [Loops.running, Loops.currentState?, current_stop]
    rfl
  rw [Loops.start, hrunning, if_neg Bool.false_ne_true]

theorem apply_runLoop (limit : Nat) : d.apply (.runLoop limit) =
    (let ran := d.stop.start.wakeOut d.loops.stop.states.length limit
     (ran.1, outcome ran.2 (.phase ran.1.phase))) := by
  have hcurrent : d.stop.start.loops.current = some d.loops.stop.states.length :=
    congrArg Loops.current (start_stop d.loops)
  simp only [apply, hcurrent, Option.map_some, Option.getD_some]
  cases d.stop.start.wakeOut d.loops.stop.states.length limit with
  | mk next fault => cases fault <;> rfl

omit [Scalar α] [Generator γ] in
theorem withUnit_map (change : Diagram α γ → Diagram α γ) {id : String} {g g' : Nat → Diagram α γ}
    (hsource : (change d).source = d.source) (h : ∀ i, g' i = change (g i)) :
    (change d).withUnit id g' = (change (d.withUnit id g).1, (d.withUnit id g).2) := by
  have hindex : (change d).indexOf? id = d.indexOf? id := by rw [indexOf?, indexOf?, hsource]
  rw [withUnit, withUnit, hindex]
  cases d.indexOf? id with
  | some i => exact Prod.ext (h i) rfl
  | none => rfl

omit [Generator γ] in
theorem setViewMode_map (change : Diagram α γ → Diagram α γ) {mode : ViewMode}
    (hmode : (change d).mode = d.mode)
    (h : { change d with mode, loops := (change d).loops.restart }.rebuild =
      change { d with mode, loops := d.loops.restart }.rebuild) :
    (change d).setViewMode mode = change (d.setViewMode mode) := by
  rw [setViewMode, setViewMode, hmode]
  by_cases hsame : mode = d.mode
  · rw [if_pos hsame, if_pos hsame]
  · rw [if_neg hsame, if_neg hsame, h]

theorem effect_withUnit {id : String} {op : Operation α} {g : Nat → Diagram α γ}
    (h : ∀ i, d.indexOf? id = some i → Effect d op (g i)) :
    Effect d op (d.withUnit id g).1 := by
  unfold withUnit
  cases hindex : d.indexOf? id with
  | some i => exact h i hindex
  | none => exact .ticked (.refl d)

theorem effect_setViewMode {op : Operation α} {mode : ViewMode}
    (h : mode ≠ d.mode → d.restartOf? op = some (d.source, mode)) :
    Effect d op (d.setViewMode mode) := by
  unfold setViewMode
  by_cases hmode : mode = d.mode
  · rw [if_pos hmode]
    exact .ticked (.refl d)
  · rw [if_neg hmode]
    exact .restarted (h hmode) _

theorem effect_apply (op : Operation α) : Effect d op (d.apply op).1 := by
  cases op with
  | step count =>
    exact .ticked ((ticked_steps count).mono fun h hresult => h (by
      simp only [apply, replying, hresult]
      rfl))
  | settle limit =>
    exact .ticked ((ticked_settle _).mono fun h hresult => h (by
      simp only [apply, replying, hresult]
      rfl))
  | setUnits units => exact .restarted rfl _
  | viewMode mode =>
    exact effect_setViewMode fun hmode => if_neg hmode
  | viewModeNamed text =>
    simp only [apply, replying, setViewModeNamed]
    cases hname : ViewMode.ofName? text with
    | some mode =>
      refine effect_setViewMode fun hmode => ?_
      simp only [restartOf?, hname, Option.bind_some, if_neg hmode]
    | none => exact .ticked (.loops _ (.refl _))
  | dragStart id => exact effect_withUnit fun i hi => .held hi _
  | dragMove id x y => exact effect_withUnit fun i hi => .moved hi _ _
  | dragEnd id => exact effect_withUnit fun i hi => .released hi
  | zoom factor cx cy => exact .viewed _
  | pan dx dy => exact .viewed _
  | resetView => exact .viewed _
  | start => exact .ticked (.loops _ (.refl _))
  | stop => exact .ticked (.loops _ (.refl _))
  | close => exact .restarted rfl _
  | runLoop limit =>
    rw [apply_runLoop]
    refine .ticked (.loops _ ((ticked_wakeOut _ limit).mono fun h hfault => h ?_))
    rw [apply_runLoop]
    exact congrArg (outcome · _) hfault
  | wake loop =>
    rw [apply_wake]
    refine .ticked ((ticked_wake loop).mono fun h hfault => h ?_)
    rw [apply_wake]
    exact congrArg (outcome · _) hfault

/-- Two diagrams of one make: of one size, with the same forces, limit and seed. -/
structure SameMake (d e : Diagram α γ) : Prop where
  width : e.width = d.width
  height : e.height = d.height
  physics : e.physics = d.physics
  tickLimit : e.tickLimit = d.tickLimit
  seed : e.seed = d.seed

omit [Scalar α] [Generator γ] in
theorem SameMake.refl (d : Diagram α γ) : SameMake d d := ⟨rfl, rfl, rfl, rfl, rfl⟩

omit [Scalar α] [Generator γ] in
theorem SameMake.trans (h : SameMake d e) (h' : SameMake e f) : SameMake d f :=
  ⟨h'.width.trans h.width, h'.height.trans h.height, h'.physics.trans h.physics,
    h'.tickLimit.trans h.tickLimit, h'.seed.trans h.seed⟩

private theorem sameMake_step : SameMake d d.step.1 := by
  generalize hstep : d.step = result
  cases hstep ▸ stepped_step (d := d) with
  | settled phase => exact .refl d
  | emptied phase units => exact ⟨rfl, rfl, rfl, rfl, rfl⟩
  | stalled phase units tick => exact ⟨rfl, rfl, rfl, rfl, rfl⟩
  | ticked phase units tick => exact ⟨rfl, rfl, rfl, rfl, rfl⟩

private theorem Ticked.sameMake (h : Ticked clean d e) : SameMake d e := by
  induction h with
  | refl d => exact .refl d
  | step h rest ih => exact sameMake_step.trans ih
  | loops l rest ih => exact ⟨ih.width, ih.height, ih.physics, ih.tickLimit, ih.seed⟩

theorem sameMake_apply (op : Operation α) : SameMake d (d.apply op).1 := by
  generalize hnext : (d.apply op).1 = next
  cases hnext ▸ effect_apply (d := d) op with
  | ticked h => exact h.sameMake
  | restarted h loops => exact ⟨rfl, rfl, rfl, rfl, rfl⟩
  | held h loops => exact ⟨rfl, rfl, rfl, rfl, rfl⟩
  | moved h fx fy => exact ⟨rfl, rfl, rfl, rfl, rfl⟩
  | released h => exact ⟨rfl, rfl, rfl, rfl, rfl⟩
  | viewed viewport => exact ⟨rfl, rfl, rfl, rfl, rfl⟩

theorem sameMake_run (operations : List (Operation α)) : SameMake d (d.run operations) := by
  induction operations generalizing d with
  | nil => exact .refl d
  | cons op rest ih => exact (sameMake_apply op).trans ih

private theorem source_step : d.step.1.source = d.source := by
  generalize hstep : d.step = result
  cases hstep ▸ stepped_step (d := d) with
  | settled phase => rfl
  | emptied phase units => rfl
  | stalled phase units tick => rfl
  | ticked phase units tick => rfl

theorem Ticked.source {clean : Prop} (h : Ticked clean d e) : e.source = d.source :=
  h.same Diagram.source (fun _ => source_step) fun _ _ => rfl

theorem source_apply {op : Operation α} (h : d.restartOf? op = none) :
    (d.apply op).1.source = d.source := by
  generalize hnext : (d.apply op).1 = next
  cases hnext ▸ effect_apply (d := d) op with
  | ticked h => exact h.source
  | restarted hrestart loops => rw [h] at hrestart; cases hrestart
  | held h loops => rfl
  | moved h fx fy => rfl
  | released h => rfl
  | viewed viewport => rfl

end CodeAtlas.Diagram
