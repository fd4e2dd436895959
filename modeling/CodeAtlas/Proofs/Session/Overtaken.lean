import CodeAtlas.Proofs.Session.Standing

/-! A run that has been overtaken goes on without any effect. Its remaining steps can be deleted
from a history and nobody would notice; an analysis is taken on exactly when the newest run ends
with one. -/
namespace CodeAtlas.Session

def Standing.drops (p : Standing) (event : Event) : Bool :=
  match event.run? with
  | some run => p.newest != some run
  | none => false

/-- A history without the steps that its runs take after they have been overtaken. -/
def Standing.live (p : Standing) : List Event → List Event
  | [] => []
  | event :: events =>
    if p.drops event then (p.after event).live events else event :: (p.after event).live events

/-- A run whose reads are done and that has not ended. -/
def IsReady (s : Session) (run : Nat) : Prop :=
  ∃ r, s.runs[run]? = some r ∧ r.outcome = none ∧ r.reading.isDone = true

theorem step_of_overtaken {s : Session} {event : Event} {run : Nat} {r : Run}
    (hevent : event.run? = some run) (hr : s.runs[run]? = some r)
    (h : r.generation ≠ s.generation) : (s.step event).1.face = s.face ∧ (s.step event).2 = [] := by
  cases event with
  | start candidates name => simp [Event.run?] at hevent
  | reset => simp [Event.run?] at hevent
  | finishRead run' entry =>
    obtain rfl : run' = run := Option.some.inj hevent
    simp only [step, finishRead_eq entry hr]
    split
    · exact ⟨rfl, rfl⟩
    · rw [announceFor_withRuns, announceFor_of_ne h]
      exact ⟨rfl, rfl⟩
  | conclude run' =>
    obtain rfl : run' = run := Option.some.inj hevent
    rcases r.ready_or_waits with ⟨houtcome, result, hresult⟩ | hwait
    · rw [step, concludeRun_eq hr houtcome hresult, endRun_of_ne h]
      exact ⟨rfl, rfl⟩
    · rw [step, concludeRun_of_waits hr hwait]
      exact ⟨rfl, rfl⟩

theorem step_of_not_newest {s : Session} {p : Standing} {event : Event} {run : Nat}
    (hs : s.Tracks p) (hevent : event.run? = some run) (h : p.newest ≠ some run) :
    (s.step event).1.face = s.face ∧ (s.step event).2 = [] := by
  cases hr : s.runs[run]? with
  | none =>
    rw [step_of_no_run hevent hr]
    exact ⟨rfl, rfl⟩
  | some r => exact step_of_overtaken hevent hr fun hg => h ((hs.newest run r hr).1 hg)

structure Agrees (p : Standing) (s t : Session) : Prop where
  left : s.Tracks p
  right : t.Tracks p
  face : s.face = t.face
  newest : ∀ run, p.newest = some run → s.runs[run]? = t.runs[run]?

private theorem agrees_drop {p : Standing} {s t : Session} {event : Event} (h : Agrees p s t)
    (hdrop : p.drops event = true) :
    Agrees (p.after event) (s.step event).1 t ∧ (s.step event).2 = [] := by
  unfold Standing.drops at hdrop
  cases hevent : event.run? with
  | none => simp [hevent] at hdrop
  | some run =>
    have hnewest : p.newest ≠ some run := by simpa [hevent] using hdrop
    obtain ⟨hface, hheard⟩ := step_of_not_newest h.left hevent hnewest
    rw [Standing.after_of_run hevent]
    refine ⟨⟨tracks_step_of_run h.left hevent, h.right, hface.trans h.face, ?_⟩, hheard⟩
    intro other hother
    cases hr : s.runs[run]? with
    | none => rw [step_of_no_run hevent hr, h.newest other hother]
    | some r =>
      obtain ⟨f, -, hruns⟩ := step_runs hevent hr
      have hne : run ≠ other := fun heq => hnewest (heq ▸ hother)
      rw [hruns, List.getElem?_modify_ne _ _ hne, h.newest other hother]

private theorem startRun_withRuns (s : Session) (runs : List Run) (candidates : List Candidate)
    (name : Option String) :
    (s.withRuns runs).startRun candidates name =
      ((s.startRun candidates name).1.withRuns (runs ++ [s.newRun candidates name]),
        (s.startRun candidates name).2) := rfl

private theorem agrees_start {p : Standing} {s t : Session} (h : Agrees p s t)
    (candidates : List Candidate) (name : Option String) :
    Agrees ⟨p.started + 1, some p.started⟩ (s.startRun candidates name).1
        (t.startRun candidates name).1 ∧
      (s.startRun candidates name).2 = (t.startRun candidates name).2 := by
  have ht := startRun_withRuns s t.runs candidates name
  rw [withRuns_of_face_eq h.face] at ht
  refine ⟨⟨tracks_startRun h.left candidates name, tracks_startRun h.right candidates name, ?_, ?_⟩,
    ?_⟩
  · rw [ht, face_withRuns]
  · intro run hrun
    obtain rfl : p.started = run := Option.some.inj hrun
    rw [ht, startRun_runs, withRuns_runs]
    rw [List.getElem?_append_right (Nat.le_of_eq h.left.started),
      List.getElem?_append_right (Nat.le_of_eq h.right.started), h.left.started, h.right.started]
  · rw [ht]

private theorem agrees_keep {p : Standing} {s t : Session} {event : Event} (h : Agrees p s t)
    (hkeep : p.drops event = false) :
    Agrees (p.after event) (s.step event).1 (t.step event).1 ∧
      (s.step event).2 = (t.step event).2 := by
  cases hevent : event.run? with
  | some run =>
    have hnewest : p.newest = some run := by simpa [Standing.drops, hevent] using hkeep
    have hsame := h.newest run hnewest
    rw [Standing.after_of_run hevent]
    cases hr : s.runs[run]? with
    | none =>
      rw [step_of_no_run hevent hr, step_of_no_run hevent (hsame ▸ hr)]
      exact ⟨h, rfl⟩
    | some r =>
      obtain ⟨f, -, hstep⟩ := step_of_run hevent hr
      have ht := hstep t.runs (hsame ▸ hr)
      rw [withRuns_of_face_eq h.face] at ht
      have hs := congrArg (fun heard => heard.1.runs) (hstep s.runs hr)
      rw [withRuns_self] at hs
      refine ⟨⟨tracks_step_of_run h.left hevent, tracks_step_of_run h.right hevent, ?_, ?_⟩, ?_⟩
      · rw [ht, face_withRuns]
      · intro other hother
        obtain rfl : run = other := Option.some.inj (hnewest.symm.trans hother)
        rw [hs, ht]
        simp only [withRuns_runs, List.getElem?_modify_eq, hsame]
      · rw [ht]
  | none =>
    cases event with
    | start candidates name => exact agrees_start h candidates name
    | reset =>
      have hface := congrArg Session.reset h.face
      exact ⟨⟨tracks_reset h.left, tracks_reset h.right, hface, fun run hrun => by cases hrun⟩,
        rfl⟩
    | finishRead run entry => simp [Event.run?] at hevent
    | conclude run => simp [Event.run?] at hevent

private theorem agrees_trace (events : List Event) {p : Standing} {s t : Session}
    (h : Agrees p s t) :
    Agrees (events.foldl Standing.after p) (s.trace events).1 (t.trace (p.live events)).1 ∧
      (s.trace events).2 = (t.trace (p.live events)).2 := by
  induction events generalizing p s t with
  | nil => exact ⟨h, rfl⟩
  | cons event events ih =>
    rw [Standing.live]
    split
    · next hdrop =>
      obtain ⟨hagrees, hheard⟩ := agrees_drop h hdrop
      obtain ⟨hlast, hrest⟩ := ih hagrees
      refine ⟨hlast, ?_⟩
      simp only [trace, hheard, List.nil_append, hrest]
    · next hkeep =>
      obtain ⟨hagrees, hheard⟩ := agrees_keep h (by simpa using hkeep)
      obtain ⟨hlast, hrest⟩ := ih hagrees
      refine ⟨hlast, ?_⟩
      simp only [trace, hheard, hrest]

theorem conclude_of_isReady {s : Session} {p : Standing}
    {begun : List (List Candidate × Option String)} {run : Nat} {candidates : List Candidate}
    {name : Option String} (htracks : s.Tracks p) (hkeeps : s.Keeps begun)
    (hready : s.IsReady run) (hbegun : begun[run]? = some (candidates, name)) :
    let outcome := Outcome.ofResult (decide (p.newest = some run))
      (Project.result candidates name s.extract)
    (s.step (.conclude run)).1.outcome? run = some outcome ∧
      (s.step (.conclude run)).1.analysis = outcome.analysis?.or s.analysis := by
  obtain ⟨r, hr, houtcome, hdone⟩ := hready
  have hmem : r ∈ s.runs := List.mem_of_getElem? hr
  obtain ⟨rfl, rfl⟩ := Prod.mk.inj (Option.some.inj ((hkeeps.begun_eq hr).symm.trans hbegun))
  have hresult : r.reading.result? =
      some (Reading.collect (r.candidates.filter Candidate.isSelected)) :=
    Reading.result?_eq_some_iff.2 ⟨hdone, by rw [hkeeps.selected r hmem]⟩
  have hcurrent : s.isCurrent r.generation = decide (p.newest = some run) := by
    unfold isCurrent
    rw [beq_eq_decide, decide_eq_decide, eq_comm]
    exact htracks.newest run r hr
  have hended := endRun_outcome s r (Reading.collect (r.candidates.filter Candidate.isSelected))
  rw [hcurrent] at hended
  rw [step, concludeRun_eq hr houtcome hresult]
  constructor
  · unfold outcome?
    rw [withRuns_runs, List.getElem?_modify_eq, hr, hended]
    rfl
  · change (s.endRun r _).1.1.analysis = _
    rw [endRun_analysis, hended]
    rfl

theorem analysis_of_not_isReady {s : Session} {event : Event}
    (h : ∀ run, event = .conclude run → ¬ s.IsReady run) :
    (s.step event).1.analysis = s.analysis := by
  cases event with
  | start candidates name => rfl
  | reset => rfl
  | finishRead run entry =>
    cases hr : s.runs[run]? with
    | none => rw [step_of_no_run rfl hr]
    | some r =>
      rw [step, finishRead_eq entry hr]
      split
      · rfl
      · exact announceFor_analysis ..
  | conclude run =>
    cases hr : s.runs[run]? with
    | none => rw [step_of_no_run rfl hr]
    | some r =>
      rcases r.ready_or_waits with ⟨houtcome, result, hresult⟩ | hwait
      · exact absurd ⟨r, hr, houtcome, (Reading.result?_eq_some_iff.1 hresult).1⟩ (h run rfl)
      · rw [step, concludeRun_of_waits hr hwait]

theorem ofResult_analysis? {current : Bool} {result : Except ProjectError Analysis}
    {analysis : Analysis} :
    (Outcome.ofResult current result).analysis? = some analysis ↔
      current = true ∧ result = .ok analysis := by
  cases result with
  | error e =>
    cases e with
    | raised fault =>
      unfold Outcome.ofResult
      dsimp only
      split <;> simp [Outcome.analysis?]
    | read failure => simp [Outcome.ofResult, Outcome.analysis?]
    | negativeLimit => simp [Outcome.ofResult, Outcome.analysis?]
  | ok found => cases current <;> simp [Outcome.ofResult, Outcome.analysis?]

private theorem ofResult_false (result : Except ProjectError Analysis) :
    Outcome.ofResult false result = .nothing ∨
      ∃ fault, Outcome.ofResult false result = .raised fault ∧ fault.kind ≠ .analysis ∧
        result = .error (.raised fault) := by
  cases result with
  | error e =>
    cases e with
    | raised fault =>
      unfold Outcome.ofResult
      dsimp only
      split
      · exact .inl rfl
      · next hkind => exact .inr ⟨fault, rfl, hkind, rfl⟩
    | read failure => exact .inl rfl
    | negativeLimit => exact .inl rfl
  | ok found => exact .inl rfl

theorem extract_trace (extract : Extractor) (readLimit : Nat) (events : List Event) :
    (trace { extract, readLimit } events).1.extract = extract := by
  refine trace_induction (motive := fun _ s => s.extract = extract) rfl ?_ events
  intro events event h
  cases event with
  | start candidates name => exact h
  | reset => exact h
  | finishRead run entry =>
    have hrun : Event.run? (.finishRead run entry) = some run := rfl
    exact (step_extract_of_run _ hrun).trans h
  | conclude run =>
    have hrun : Event.run? (.conclude run) = some run := rfl
    exact (step_extract_of_run _ hrun).trans h

theorem starts_of_isReady {s : Session} {begun : List (List Candidate × Option String)} {run : Nat}
    (hkeeps : s.Keeps begun) (hready : s.IsReady run) :
    ∃ candidates name, begun[run]? = some (candidates, name) := by
  obtain ⟨r, hr, -, -⟩ := hready
  exact ⟨r.candidates, r.name, hkeeps.begun_eq hr⟩

private theorem ended_of_analysis_ne {s : Session} {p : Standing}
    {begun : List (List Candidate × Option String)} (htracks : s.Tracks p)
    (hkeeps : s.Keeps begun) {event : Event} (hchange : (s.step event).1.analysis ≠ s.analysis) :
    ∃ run candidates name analysis, event = .conclude run ∧ p.newest = some run ∧
      s.IsReady run ∧ begun[run]? = some (candidates, name) ∧
      Project.result candidates name s.extract = .ok analysis ∧
      (s.step event).1.analysis = some analysis := by
  by_cases hready : ∃ run, event = .conclude run ∧ s.IsReady run
  · obtain ⟨run, rfl, hready⟩ := hready
    obtain ⟨candidates, name, hbegun⟩ := starts_of_isReady hkeeps hready
    obtain ⟨-, hanalysis⟩ := conclude_of_isReady htracks hkeeps hready hbegun
    cases hreturned : (Outcome.ofResult (decide (p.newest = some run))
        (Project.result candidates name s.extract)).analysis? with
    | none => exact absurd (hanalysis.trans (by rw [hreturned]; rfl)) hchange
    | some analysis =>
      rw [hreturned] at hanalysis
      obtain ⟨hnewest, hok⟩ := ofResult_analysis?.1 hreturned
      exact ⟨run, candidates, name, analysis, rfl, of_decide_eq_true hnewest, hready, hbegun, hok,
        hanalysis⟩
  · refine absurd (analysis_of_not_isReady fun run hrun hrunReady => ?_) hchange
    exact hready ⟨run, hrun, hrunReady⟩

/-- The steps that overtaken runs still take can be deleted from any history; each of them shows
nothing. The analysis of a session changes only when the newest run ends with one, and it is then
the one that its candidates come to. An overtaken run whose candidates all have a size returns
nothing unless the extractor raises a fault at one of its files. -/
theorem overtaken_runs_are_silent (extract : Extractor) (readLimit : Nat) (events : List Event) :
    let fresh : Session := { extract, readLimit }
    let s := (fresh.trace events).1
    let newest := (Standing.of events).newest
    ((fresh.trace (Standing.live {} events)).1.face = s.face ∧
      (fresh.trace (Standing.live {} events)).2 = (fresh.trace events).2) ∧
    (∀ event run, event.run? = some run → newest ≠ some run →
      (s.step event).1.face = s.face ∧ (s.step event).2 = []) ∧
    (∀ event, (s.step event).1.analysis ≠ s.analysis →
      ∃ run candidates name analysis, event = .conclude run ∧ newest = some run ∧
        s.IsReady run ∧ (starts events)[run]? = some (candidates, name) ∧
        (Project.analyze candidates name extract readLimit).2 = .ok analysis ∧
        (s.step event).1.analysis = some analysis) ∧
    ∀ run candidates name, s.IsReady run → (starts events)[run]? = some (candidates, name) →
      let next := (s.step (.conclude run)).1
      let result := (Project.analyze candidates name extract readLimit).2
      (∀ analysis, result = .ok analysis ↔ ∃ entries,
        (candidates.filter Candidate.isSelected).map Candidate.read = entries.map .ok ∧
        Analysis.ofEntries (Project.nameOf name candidates) entries extract = .ok analysis) ∧
      (newest = some run → ∀ analysis, result = .ok analysis →
        next.analysis = some analysis ∧ next.outcome? run = some (.produced analysis)) ∧
      (newest ≠ some run → next.outcome? run = some .nothing ∨
        ∃ fault, next.outcome? run = some (.raised fault) ∧ fault.kind ≠ .analysis ∧
          ∃ c ∈ candidates, c.size = .error fault ∨
            ∃ e, c.read = .ok e ∧ extract (e.content.getD "") e.path = .error fault) ∧
      (newest ≠ some run → (∀ c ∈ candidates, ∃ size, c.size = .ok size) →
        next.outcome? run = some .nothing ∨
          ∃ fault, next.outcome? run = some (.raised fault) ∧ fault.kind ≠ .analysis ∧
            ∃ c ∈ candidates, ∃ e, c.read = .ok e ∧
              extract (e.content.getD "") e.path = .error fault) := by
  intro fresh s newest
  have htracks : s.Tracks (Standing.of events) := tracks_trace extract readLimit events
  have hkeeps : s.Keeps (starts events) := keeps_trace extract readLimit events
  have hextract : s.extract = extract := extract_trace extract readLimit events
  have hfresh : fresh.Tracks {} := tracks_trace extract readLimit []
  refine ⟨?_, fun event run => step_of_not_newest htracks, ?_, ?_⟩
  · obtain ⟨hlast, hheard⟩ := agrees_trace events (p := {}) ⟨hfresh, hfresh, rfl, fun _ _ => rfl⟩
    exact ⟨hlast.face.symm, hheard.symm⟩
  · intro event hchange
    obtain ⟨run, candidates, name, analysis, hevent, hnewest, hready, hbegun, hok, hanalysis⟩ :=
      ended_of_analysis_ne htracks hkeeps hchange
    rw [hextract, ← Project.analyze_snd candidates name extract readLimit] at hok
    exact ⟨run, candidates, name, analysis, hevent, hnewest, hready, hbegun, hok, hanalysis⟩
  · intro run candidates name hready hbegun next result
    have hresult : result = Project.result candidates name extract := Project.analyze_snd ..
    obtain ⟨houtcome, hanalysis⟩ := conclude_of_isReady htracks hkeeps hready hbegun
    rw [hextract, ← hresult] at houtcome hanalysis
    have hovertaken : newest ≠ some run → next.outcome? run = some .nothing ∨
        ∃ fault, next.outcome? run = some (.raised fault) ∧ fault.kind ≠ .analysis ∧
          ∃ c ∈ candidates, c.size = .error fault ∨
            ∃ e, c.read = .ok e ∧ extract (e.content.getD "") e.path = .error fault := by
      intro hnewest
      rw [decide_eq_false hnewest] at houtcome
      rcases ofResult_false result with hnothing | ⟨fault, hraised, hkind, hfault⟩
      · exact .inl (houtcome.trans (congrArg some hnothing))
      · refine .inr ⟨fault, houtcome.trans (congrArg some hraised), hkind, ?_⟩
        exact Project.result_eq_raised (hresult ▸ hfault)
    refine ⟨fun analysis => ?_, fun hnewest analysis hok => ?_, hovertaken,
      fun hnewest hsizes => ?_⟩
    · rw [hresult]
      exact Project.result_eq_ok_iff
    · rw [decide_eq_true hnewest, hok] at houtcome hanalysis
      exact ⟨hanalysis, houtcome⟩
    · refine (hovertaken hnewest).imp_right fun ⟨fault, hraised, hkind, c, hc, hcause⟩ => ?_
      obtain ⟨size, hsize⟩ := hsizes c hc
      exact ⟨fault, hraised, hkind, c, hc, hcause.resolve_left (by simp [hsize])⟩

/-- A run that is overtaken while it reads is ready to end once its read is done, and then ends with
nothing. -/
theorem overtaken_while_reading :
    let file : Candidate :=
      { path := "p/a.ts", size := .ok 1, isDirectory := false, text := .ok "x" }
    let events : List Event := [.start [file] none, .start [file] none, .finishRead 0 0]
    let s := (trace { extract := .lexical, readLimit := 1 } events).1
    s.IsReady 0 ∧ (starts events)[0]? = some ([file], none) ∧
      (Standing.of events).newest ≠ some 0 ∧ (∀ c ∈ [file], ∃ size, c.size = .ok size) ∧
      (s.step (.conclude 0)).1.outcome? 0 = some .nothing := by
  intro file events s
  have hfirst : s.runs[0]?.map (fun r => (r.outcome.isNone, r.reading.isDone)) =
      some (true, true) := by decide +kernel
  obtain ⟨r, hr, hstate⟩ := Option.map_eq_some_iff.1 hfirst
  obtain ⟨houtcome, hdone⟩ := Prod.mk.inj hstate
  have hready : s.IsReady 0 := ⟨r, hr, Option.isNone_iff_eq_none.1 houtcome, hdone⟩
  have hbegun : (starts events)[0]? = some ([file], none) := rfl
  have hnewest : (Standing.of events).newest ≠ some 0 := by decide
  have hsizes : ∀ c ∈ [file], ∃ size, c.size = .ok size := by simp [file]
  refine ⟨hready, hbegun, hnewest, hsizes, ?_⟩
  obtain ⟨-, -, -, hends⟩ := overtaken_runs_are_silent .lexical 1 events
  obtain ⟨-, -, -, hsilent⟩ := hends 0 [file] none hready hbegun
  rcases hsilent hnewest hsizes with hnothing | ⟨fault, -, -, c, -, e, -, hfault⟩
  · exact hnothing
  · cases hfault

end CodeAtlas.Session
