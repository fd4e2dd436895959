import CodeAtlas.Proofs.Diagram.Loops
import CodeAtlas.Proofs.Diagram.Rest
import CodeAtlas.Proofs.Session.Overtaken
import CodeAtlas.Studio

/-! What a studio displays. Requests overlap and loops wake up between their steps; through all of
this the diagram shows the analysis of the session, and one loop at most moves it. -/
namespace CodeAtlas

namespace Diagram

variable {α γ : Type} [Scalar α] {d : Diagram α γ}

private theorem source_setViewMode (mode : ViewMode) : (d.setViewMode mode).source = d.source := by
  unfold setViewMode
  split <;> rfl

end Diagram

namespace Studio

variable {α γ : Type} [Scalar α] [Generator γ] {s : Studio α γ}

/-- Whether an event is part of a request or the waking of a loop. -/
def Event.isServed : Event α → Bool
  | .session _ => true
  | .viewMode _ => true
  | .diagram (.dragStart _) | .diagram (.dragMove ..) | .diagram (.dragEnd _) => true
  | .diagram (.zoom ..) | .diagram (.pan ..) => true
  | .diagram (.wake _) => true
  | .diagram _ => false

/-- What an event can make of a studio. -/
inductive Effect (s : Studio α γ) : Event α → Studio α γ → Prop
  | published {run session analysis} (h : session.analysis = some analysis) :
      Effect s (.session (.conclude run))
        ⟨session, (s.diagram.setUnits analysis.architecture).start⟩
  | kept {event session} (h : session.analysis = s.session.analysis) :
      Effect s (.session event) ⟨session, s.diagram⟩
  | viewed (mode : ViewMode) :
      Effect s (.viewMode mode) ⟨s.session, (s.diagram.setViewMode mode).start⟩
  | operated (op : Diagram.Operation α) :
      Effect s (.diagram op) ⟨s.session, (s.diagram.apply op).1⟩

omit [Generator γ] in
private theorem conclude_of_waits {run : Nat} (h : s.session.concludeRun run = (s.session, [])) :
    (s.conclude run).1 = s := by
  unfold conclude
  simp only [h]
  cases s.session.outcome? run <;> rfl

private theorem effect_conclude (run : Nat) :
    Effect s (.session (.conclude run)) (s.conclude run).1 := by
  have hwaits (h : s.session.concludeRun run = (s.session, [])) :
      Effect s (.session (.conclude run)) (s.conclude run).1 := by
    rw [conclude_of_waits h]
    exact .kept rfl
  cases hr : s.session.runs[run]? with
  | none => exact hwaits (by rw [Session.concludeRun, hr])
  | some r =>
    rcases r.ready_or_waits with ⟨houtcome, result, hresult⟩ | hwait
    · -- A run that is ready has not been published yet; what it returns decides about the diagram.
      have hpending : s.session.outcome? run = none := by
        rw [Session.outcome?, hr]
        exact houtcome
      have hend := Session.concludeRun_eq hr houtcome hresult
      generalize hafter : s.session.concludeRun run = after at hend
      have hnext : after.1.outcome? run = some (s.session.endRun r result).2 := by
        rw [hend, Session.outcome?, Session.withRuns_runs, List.getElem?_modify_eq, hr]
        rfl
      have hanalysis : after.1.analysis =
          (s.session.endRun r result).2.analysis?.or s.session.analysis := by
        rw [hend]
        exact Session.endRun_analysis ..
      unfold conclude
      simp only [hpending, hafter, hnext, Option.isNone_none]
      cases hreturned : (s.session.endRun r result).2 with
      | produced analysis =>
        rw [hreturned] at hanalysis
        exact .published hanalysis
      | nothing =>
        rw [hreturned] at hanalysis
        exact .kept hanalysis
      | raised fault =>
        rw [hreturned] at hanalysis
        exact .kept hanalysis
    · exact hwaits (Session.concludeRun_of_waits hr hwait)

theorem effect_step (event : Event α) : Effect s event (s.step event).1 := by
  cases event with
  | session event =>
    cases event with
    | conclude run => exact effect_conclude run
    | start candidates name => exact .kept rfl
    | finishRead run entry =>
      have hkept : (s.session.step (.finishRead run entry)).1.analysis = s.session.analysis :=
        Session.analysis_of_not_isReady fun _ h => by cases h
      exact .kept hkept
    | reset => exact .kept rfl
  | viewMode mode => exact .viewed mode
  | diagram op => exact .operated op

omit [Scalar α] [Generator γ] in
private theorem restartOf?_of_isServed {op : Diagram.Operation α}
    (h : Event.isServed (.diagram op) = true) (d : Diagram α γ) : d.restartOf? op = none := by
  cases op <;> first | rfl | cases h

def Displays (s : Studio α γ) : Prop := s.diagram.source = shown s.session

private theorem displays_step (h : s.Displays) {event : Event α} (hserved : event.isServed = true) :
    (s.step event).1.Displays := by
  generalize hnext : (s.step event).1 = next
  cases hnext ▸ effect_step (s := s) event with
  | @published run session analysis hanalysis =>
    change analysis.architecture = shown session
    rw [shown, hanalysis]
    rfl
  | @kept event session hanalysis =>
    change s.diagram.source = shown session
    rw [shown, hanalysis]
    exact h
  | viewed mode => exact (Diagram.source_setViewMode mode).trans h
  | operated op => exact (Diagram.source_apply (restartOf?_of_isServed hserved _)).trans h

private theorem displays_trace (h : s.Displays) {events : List (Event α)}
    (hserved : ∀ event ∈ events, event.isServed = true) : (s.trace events).Displays := by
  induction events generalizing s with
  | nil => exact h
  | cons event events ih =>
    exact ih (displays_step h (hserved event List.mem_cons_self))
      fun event' hmem => hserved event' (List.mem_cons_of_mem _ hmem)

/-- In every state that requests and loops lead to, in whatever order they take their steps, the
diagram shows the units of the analysis that the session has at that moment. -/
theorem diagram_shows_analysis (extract : Extractor) (readLimit : Nat)
    {options : DiagramOptions α} {width height : Option Int} {mode : ViewMode} {seed : γ}
    {d : Diagram α γ} (hcreate : Diagram.create options [] width height mode seed = .ok d)
    {events : List (Event α)} (hserved : ∀ event ∈ events, event.isServed = true) :
    let s := trace ⟨{ extract, readLimit }, d⟩ events
    s.diagram.source = (s.session.analysis.map Analysis.architecture).getD [] := by
  have hstart : Displays (⟨{ extract, readLimit }, d⟩ : Studio α γ) := by
    obtain ⟨-, rfl⟩ := Diagram.create_eq_ok_iff.1 hcreate
    rfl
  exact displays_trace hstart hserved

/-- A new studio under the settings of an empty environment. -/
def opened : Studio Float Twister where
  session := { extract := .lexical, readLimit := 1 }
  diagram := Diagram.created ({} : Settings).diagramOptions [] 800 600 .both (Twister.ofSeed 0)

theorem create_opened : Diagram.create ({} : Settings).diagramOptions [] none none .both
    (Twister.ofSeed 0) = .ok opened.diagram :=
  Diagram.create_eq_ok_iff.2 ⟨⟨by decide +kernel, by decide +kernel⟩, rfl⟩

def sourceFile (path : String) : Candidate where
  path := path
  size := .ok 1
  isDirectory := false
  text := .ok "x"

/-- An upload is overtaken by another one and ends after it; the view mode changes in between. -/
def overlapping : List (Event Float) :=
  [.session (.start [sourceFile "src/old.ts"] none),
    .session (.start [sourceFile "src/new.ts"] none), .session (.finishRead 1 0),
    .session (.conclude 1), .diagram (.wake 0), .viewMode .nesting, .session (.finishRead 0 0),
    .session (.conclude 0), .diagram (.wake 0), .diagram (.wake 1)]

theorem overlapping_shows_newer :
    (opened.trace overlapping).diagram.source.map SourceUnit.path = ["src/new.ts"] ∧
      (opened.trace overlapping).diagram.source =
        ((opened.trace overlapping).session.analysis.map Analysis.architecture).getD [] :=
  ⟨by decide +kernel, diagram_shows_analysis .lexical 1 create_opened (by decide +kernel)⟩

/-- No tick divides by zero on the way through some events. -/
def TicksCleanly : Studio α γ → List (Event α) → Prop
  | _, [] => True
  | s, .diagram op :: rest =>
    s.diagram.TicksCleanly op ∧ TicksCleanly (s.step (.diagram op)).1 rest
  | s, event :: rest => TicksCleanly (s.step event).1 rest

instance decidableTicksCleanly :
    ∀ (s : Studio α γ) (events : List (Event α)), Decidable (s.TicksCleanly events)
  | _, [] => inferInstanceAs (Decidable True)
  | s, .diagram op :: rest =>
    have := decidableTicksCleanly (s.step (.diagram op)).1 rest
    inferInstanceAs (Decidable (s.diagram.TicksCleanly op ∧ TicksCleanly _ rest))
  | s, .session event :: rest => decidableTicksCleanly (s.step (.session event)).1 rest
  | s, .viewMode mode :: rest => decidableTicksCleanly (s.step (.viewMode mode)).1 rest

variable {clean : Prop}

private theorem driven_apply {d : Diagram α γ} (h : d.Driven clean) {op : Diagram.Operation α}
    (hserved : Event.isServed (.diagram op) = true) (hclean : clean → d.TicksCleanly op) :
    (d.apply op).1.Driven clean := by
  cases op with
  | dragStart id => exact h.dragStart id
  | dragMove id x y => exact h.withUnit fun i => h.of_eq rfl rfl rfl
  | dragEnd id => exact h.withUnit fun i => h.of_eq rfl rfl rfl
  | zoom factor cx cy => exact h.of_eq rfl rfl rfl
  | pan dx dy => exact h.of_eq rfl rfl rfl
  | wake loop =>
    rw [Diagram.apply_wake]
    refine h.wake loop fun hc hfault => hclean hc ?_
    rw [Diagram.apply_wake, hfault]
    rfl
  | _ => cases hserved

private theorem driven_trace (h : s.diagram.Driven clean) {events : List (Event α)}
    (hserved : ∀ event ∈ events, event.isServed = true) (hclean : clean → s.TicksCleanly events) :
    (s.trace events).diagram.Driven clean := by
  induction events generalizing s with
  | nil => exact h
  | cons event events ih =>
    have hrest : ∀ event' ∈ events, event'.isServed = true :=
      fun event' hmem => hserved event' (List.mem_cons_of_mem _ hmem)
    have hfirst := hserved event List.mem_cons_self
    suffices hnext : (s.step event).1.diagram.Driven clean ∧
        (clean → (s.step event).1.TicksCleanly events) from ih hnext.1 hrest hnext.2
    cases event with
    | diagram op =>
      exact ⟨driven_apply h hfirst fun hc => (hclean hc).1, fun hc => (hclean hc).2⟩
    | viewMode mode => exact ⟨Diagram.driven_setViewMode h.single mode, hclean⟩
    | session event =>
      refine ⟨?_, hclean⟩
      generalize hnext : (s.step (.session event)).1 = next
      cases hnext ▸ effect_step (s := s) (.session event) with
      | published hanalysis => exact Diagram.driven_setUnits h.single _
      | kept hanalysis => exact h

/-- In every state that requests and loops lead to, one loop at most can still step the diagram, and
no other does anything when it wakes up. Unless a tick has failed, there is one as long as a layout
with units is not at rest: the current one, and its waking is a step. -/
theorem one_loop_moves_layout (extract : Extractor) (readLimit : Nat)
    {options : DiagramOptions α} {width height : Option Int} {mode : ViewMode} {seed : γ}
    {d : Diagram α γ} (hcreate : Diagram.create options [] width height mode seed = .ok d)
    {events : List (Event α)} (hserved : ∀ event ∈ events, event.isServed = true) :
    let fresh : Studio α γ := ⟨{ extract, readLimit }, d⟩
    let now := (fresh.trace events).diagram
    now.loops.live.length ≤ 1 ∧
    (∀ loop, loop ∉ now.loops.live → now.wake loop = (now, none)) ∧
    (fresh.TicksCleanly events → now.source ≠ [] → now.phase ≠ .settled →
      ∃ loop, now.loops.live = [loop] ∧ now.loops.current = some loop ∧
        ∃ loops, (now.wake loop).1 = { now.step.1 with loops }) := by
  intro fresh now
  have hstart : d.Driven (fresh.TicksCleanly events) := by
    obtain ⟨-, rfl⟩ := Diagram.create_eq_ok_iff.1 hcreate
    exact ⟨Loops.single_nil, fun h => absurd rfl h, fun _ h => absurd rfl h⟩
  have hdriven : now.Driven (fresh.TicksCleanly events) := driven_trace hstart hserved id
  have hlive := hdriven.single.live_eq
  refine ⟨?_, fun loop hloop => ?_, fun hclean hunits hrest => ?_⟩
  · rw [hlive]
    cases now.loops.running <;> cases now.loops.current <;> simp
  · rw [Loops.mem_live, Bool.not_eq_true] at hloop
    exact Diagram.wake_of_not_live hloop
  · have hrunning : now.loops.running = true := hdriven.running hclean hunits hrest
    obtain ⟨loop, hcurrent⟩ := Option.ne_none_iff_exists'.1 (hdriven.looped hunits)
    rw [hrunning, if_pos rfl, hcurrent] at hlive
    refine ⟨loop, hlive, hcurrent, _, (Diagram.wake_of_live ?_ rfl).1⟩
    rwa [← Loops.running_eq hcurrent]

theorem overlapping_keeps_one_loop : ∃ loop,
    (opened.trace overlapping).diagram.loops.live = [loop] ∧
    (opened.trace overlapping).diagram.loops.current = some loop ∧
    ∃ loops, ((opened.trace overlapping).diagram.wake loop).1 =
      { (opened.trace overlapping).diagram.step.1 with loops } := by
  have hserved : ∀ event ∈ overlapping, event.isServed = true := by decide +kernel
  exact (one_loop_moves_layout .lexical 1 create_opened hserved).2.2 (by decide +kernel)
    (by decide +kernel) (by decide +kernel)

end Studio

end CodeAtlas
