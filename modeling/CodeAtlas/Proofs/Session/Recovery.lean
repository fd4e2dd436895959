import CodeAtlas.Proofs.Reading.Course
import CodeAtlas.Proofs.Session.Heard

/-! What a run leaves behind. A run that fails leaves the analysis of the session as it found it,
and a later run cannot tell: it ends as it would on a session that has never seen another. -/
namespace CodeAtlas.Session

variable {s : Session} {run : Nat}

private theorem outcome?_step_of_some {outcome : Outcome} (h : s.outcome? run = some outcome)
    (event : Event) : (s.step event).1.outcome? run = some outcome := by
  obtain ⟨r, hr, houtcome⟩ := Option.bind_eq_some_iff.1 h
  cases event with
  | start candidates name =>
    change (((s.startRun candidates name).1.runs[run]?).bind Run.outcome) = _
    rw [startRun_runs, List.getElem?_append_left (List.getElem?_eq_some_iff.1 hr).1]
    exact h
  | reset => exact h
  | finishRead other entry =>
    by_cases hne : other = run
    · subst hne
      rw [step, finishRead_eq entry hr]
      split
      · exact h
      · rw [announceFor_withRuns, outcome?, withRuns_runs, List.getElem?_modify_eq, hr]
        exact houtcome
    · rw [outcome?, runs_step_of_ne rfl hne]
      exact h
  | conclude other =>
    by_cases hne : other = run
    · subst hne
      rwa [step, concludeRun_of_waits hr (.inl (by simp [houtcome]))]
    · rw [outcome?, runs_step_of_ne rfl hne]
      exact h

private theorem started_of (extract : Extractor) (readLimit : Nat) (events : List Event) :
    (Standing.of events).started = (starts events).length := by
  rw [← (tracks_trace extract readLimit events).started,
    (keeps_trace extract readLimit events).length_eq]

private theorem analysis_of_running (extract : Extractor) (readLimit : Nat) (events : List Event)
    {event : Event} (hnewest : (Standing.of (events ++ [event])).newest = some run)
    (hrun : run < (starts events).length) :
    let s := (trace { extract, readLimit } events).1
    (s.step event).1.outcome? run = none →
      (Standing.of events).newest = some run ∧ s.outcome? run = none ∧
        (s.step event).1.analysis = s.analysis := by
  intro s houtcome
  rw [Standing.of_append_singleton] at hnewest
  have hearlier : s.outcome? run = none := by
    cases hended : s.outcome? run with
    | none => rfl
    | some outcome =>
      rw [outcome?_step_of_some hended] at houtcome
      cases houtcome
  have htracks : s.Tracks (Standing.of events) := tracks_trace extract readLimit events
  have hkeeps : s.Keeps (starts events) := keeps_trace extract readLimit events
  cases hevent : event.run? with
  | some other =>
    rw [Standing.after_of_run hevent] at hnewest
    refine ⟨hnewest, hearlier, ?_⟩
    by_cases hother : other = run
    · refine analysis_of_not_isReady fun run' hconclude hready => ?_
      subst hconclude
      obtain rfl : run' = run := (Option.some.inj hevent).trans hother
      obtain ⟨candidates, name, hbegun⟩ := starts_of_isReady hkeeps hready
      rw [(conclude_of_isReady htracks hkeeps hready hbegun).1] at houtcome
      cases houtcome
    · obtain ⟨hface, -⟩ := step_of_not_newest htracks hevent
        fun h => hother (Option.some.inj (h.symm.trans hnewest))
      exact (congrArg Session.analysis hface :)
  | none =>
    cases event with
    | start candidates name =>
      have hstarted : (Standing.of events).started = run := Option.some.inj hnewest
      rw [started_of extract readLimit] at hstarted
      exact absurd hrun (by omega)
    | reset => cases hnewest
    | finishRead other entry => cases hevent
    | conclude other => cases hevent

private theorem analysis_since_start (extract : Extractor) (readLimit : Nat)
    (before later : List Event) (candidates : List Candidate) (name : Option String) :
    let fresh : Session := { extract, readLimit }
    let run := (starts before).length
    let events := before ++ .start candidates name :: later
    (Standing.of events).newest = some run → (fresh.trace events).1.outcome? run = none →
      (fresh.trace events).1.analysis = (fresh.trace before).1.analysis := by
  intro fresh run
  induction later using List.reverseRecOn with
  | nil =>
    intro events _ _
    rw [trace_concat]
    rfl
  | append_singleton later event ih =>
    rw [← List.cons_append, ← List.append_assoc]
    dsimp only
    rw [trace_concat]
    intro hnewest houtcome
    have hrun : run < (starts (before ++ .start candidates name :: later)).length := by
      simp [starts_append, starts, run]
    obtain ⟨hnewest', houtcome', hanalysis⟩ :=
      analysis_of_running extract readLimit _ hnewest hrun houtcome
    exact hanalysis.trans (ih hnewest' houtcome')

def Snapshot.foreground (a : Snapshot) : Status × Nat × Option String :=
  (a.status, a.progress, a.error)

/-- A session whose newest run has just come to a result; there was an analysis before it or not. -/
structure Ends (s : Session) (run : Nat) (earlier : Option Analysis) (total : Nat)
    (result : Except ProjectError Analysis) : Prop where
  outcome : s.outcome? run = some (.ofResult true result)
  foreground : s.snapshot.foreground = (verdict false (100 * total / total) result).foreground
  analysis : s.analysis = (Outcome.ofResult true result).analysis?.or earlier

private theorem verdict_foreground (kept : Bool) (full : Nat)
    (result : Except ProjectError Analysis) :
    (verdict kept full result).foreground = (verdict false full result).foreground := by
  cases result <;> rfl

theorem Ends.of_error {earlier : Option Analysis} {total : Nat} {e : ProjectError}
    (h : s.Ends run earlier total (.error e)) :
    s.analysis = earlier ∧ s.status = .error ∧ s.error = some e.told := by
  have hnothing : (Outcome.ofResult true (.error e)).analysis? = none := by
    rw [Option.eq_none_iff_forall_ne_some]
    intro analysis hreturned
    cases (ofResult_analysis?.1 hreturned).2
  refine ⟨?_, congrArg Prod.fst h.foreground, congrArg (fun a => a.2.2) h.foreground⟩
  rw [h.analysis, hnothing]
  rfl

theorem Ends.same {t : Session} {run' total : Nat} {earlier earlier' : Option Analysis}
    {result : Except ProjectError Analysis} (h : s.Ends run earlier total result)
    (h' : t.Ends run' earlier' total result) :
    t.outcome? run' = s.outcome? run ∧
      (t.status, t.progress, t.error) = (s.status, s.progress, s.error) ∧
      ∀ analysis, s.outcome? run = some (.produced analysis) →
        s.analysis = some analysis ∧ t.analysis = some analysis := by
  refine ⟨h'.outcome.trans h.outcome.symm, h'.foreground.trans h.foreground.symm,
    fun analysis hproduced => ?_⟩
  have hreturned : (Outcome.ofResult true result).analysis? = some analysis := by
    rw [Option.some.inj (h.outcome.symm.trans hproduced)]
    rfl
  rw [h.analysis, h'.analysis, hreturned]
  exact ⟨rfl, rfl⟩

private theorem ends_of_newest (extract : Extractor) (readLimit : Nat) {events : List Event}
    {candidates : List Candidate} {name : Option String} :
    let s := (trace { extract, readLimit } events).1
    (Standing.of events).newest = some run → s.IsReady run →
      (starts events)[run]? = some (candidates, name) →
      (s.step (.conclude run)).1.Ends run s.analysis
        (candidates.filter Candidate.isSelected).length
        (Project.result candidates name extract) := by
  intro s hnewest hready hbegun
  have htracks : s.Tracks (Standing.of events) := tracks_trace extract readLimit events
  have hkeeps : s.Keeps (starts events) := keeps_trace extract readLimit events
  have hextract : s.extract = extract := extract_trace extract readLimit events
  obtain ⟨houtcome, hanalysis⟩ := conclude_of_isReady htracks hkeeps hready hbegun
  rw [hextract, decide_eq_true hnewest] at houtcome hanalysis
  refine ⟨houtcome, ?_, hanalysis⟩
  obtain ⟨r, hr, hnone, hdone⟩ := hready
  obtain ⟨parts, -, hnarrates⟩ := narrates_trace extract readLimit events
  obtain ⟨r', -, part, hr', -, -, hfollows⟩ := hnarrates.newest run hnewest
  obtain rfl : r = r' := Option.some.inj (hr.symm.trans hr')
  have hselected := hkeeps.selected r (List.mem_of_getElem? hr)
  obtain ⟨rfl, rfl⟩ := Prod.mk.inj (Option.some.inj ((hkeeps.begun_eq hr).symm.trans hbegun))
  -- A run that is ready has told all of its reads, and an error is told at the end alone.
  have hsnapshot := hfollows.snapshot_of_reading hnone
  rw [Reading.doneCount_of_isDone hdone, hfollows.length_done, hselected] at hsnapshot
  have herror : s.error = none := congrArg Snapshot.error hsnapshot
  have hprogress : s.progress = _ := congrArg Snapshot.progress hsnapshot
  have hcurrent : s.isCurrent r.generation = true :=
    beq_iff_eq.2 ((htracks.newest run r hr).2 hnewest).symm
  have hread := Reading.result?_eq_some_iff.2 ⟨hdone, rfl⟩
  have hend := concludeRun_of_current hr hnone hread hcurrent
  rw [hselected, hextract] at hend
  have hlast : (s.step (.conclude run)).1.snapshot = _ :=
    (congrArg (fun heard => heard.1.snapshot) hend).trans (ended_snapshot herror _)
  rw [hlast, verdict_foreground, hprogress]
  rfl

private theorem IsReady.outcome?_eq_none (h : s.IsReady run) : s.outcome? run = none := by
  obtain ⟨r, hr, houtcome, -⟩ := h
  rw [outcome?, hr]
  exact houtcome

theorem ends_since_start (extract : Extractor) (readLimit : Nat) (before later : List Event)
    (candidates : List Candidate) (name : Option String) :
    let fresh : Session := { extract, readLimit }
    let run := (starts before).length
    let events := before ++ .start candidates name :: later
    let s := (fresh.trace events).1
    (Standing.of events).newest = some run → s.IsReady run →
      (s.step (.conclude run)).1.Ends run (fresh.trace before).1.analysis
        (candidates.filter Candidate.isSelected).length
        (Project.result candidates name extract) := by
  intro fresh run events s hnewest hready
  have hbegun : (starts events)[run]? = some (candidates, name) := by
    simp [events, run, starts_append, starts]
  have hsince := analysis_since_start extract readLimit before later candidates name hnewest
    hready.outcome?_eq_none
  exact hsince ▸ ends_of_newest extract readLimit hnewest hready hbegun

private theorem newest_of_reads (run : Nat) (p : Standing) (order : List Nat) :
    (order.map (Event.finishRead run)).foldl Standing.after p = p := by
  induction order with
  | nil => rfl
  | cons entry order ih => exact ih

private theorem runs_of_reads (extract : Extractor) {limit : Nat} {candidates : List Candidate}
    (name : Option String) {order : List Nat} :
    let selected := candidates.filter Candidate.isSelected
    let events := Event.start candidates name :: order.map (.finishRead 0)
    Course.Possible selected.length limit order →
      ∃ r, (trace { extract, readLimit := limit } events).1.runs[0]? = some r ∧
        r.outcome = none ∧ r.reading = (Course.after selected limit order).reading := by
  intro selected
  induction order using List.reverseRecOn with
  | nil =>
    intro events _
    exact ⟨_, rfl, rfl, congrArg Course.reading Course.start_eq_after⟩
  | append_singleton order entry ih =>
    rw [List.map_append, ← List.cons_append, List.map_singleton]
    dsimp only
    rw [trace_concat]
    intro hpossible
    obtain ⟨hearlier, hentry⟩ := Course.possible_concat_iff.1 hpossible
    obtain ⟨r, hr, houtcome, hreading⟩ := ih hearlier
    obtain ⟨next, hnext, hcourse⟩ :=
      Option.map_eq_some_iff.1 (Course.finish_after hearlier hentry)
    rw [← hreading] at hnext
    refine ⟨{ r with reading := next }, ?_, houtcome, congrArg Course.reading hcourse⟩
    rw [step, finishRead_eq entry hr, hnext]
    simp only [announceFor_withRuns, withRuns_runs, List.getElem?_modify_eq, hr]
    rfl

private theorem ready_of_reads (extract : Extractor) {limit : Nat} {candidates : List Candidate}
    (name : Option String) {order : List Nat} :
    let selected := candidates.filter Candidate.isSelected
    let events := Event.start candidates name :: order.map (.finishRead 0)
    Course.Possible selected.length limit order → order.length = selected.length →
      (trace { extract, readLimit := limit } events).1.IsReady 0 := by
  intro selected events hpossible hlength
  obtain ⟨r, hr, houtcome, hreading⟩ := runs_of_reads extract name hpossible
  refine ⟨r, hr, houtcome, ?_⟩
  rw [hreading]
  exact (Course.isDone_after_iff hpossible).2 hlength

private theorem ends_alone (extract : Extractor) {limit : Nat} {candidates : List Candidate}
    (name : Option String) {order : List Nat} :
    let total := (candidates.filter Candidate.isSelected).length
    let events := Event.start candidates name :: order.map (.finishRead 0) ++ [.conclude 0]
    Course.Possible total limit order → order.length = total →
      (trace { extract, readLimit := limit } events).1.Ends 0 none total
        (Project.result candidates name extract) := by
  intro total events hpossible hlength
  have hready := ready_of_reads extract name hpossible hlength
  have hnewest :
      (Standing.of (.start candidates name :: order.map (.finishRead 0))).newest = some 0 := by
    rw [Standing.of, List.foldl_cons, newest_of_reads]
    rfl
  have hends := ends_since_start extract limit [] _ candidates name hnewest hready
  rwa [← congrArg Prod.fst (trace_concat ..)] at hends

/-- The newest run fails without a trace. Whatever came before it and whatever happens while it
reads, a run that fails leaves the analysis as it was before its start and names an error: for reads
the first failure in the list, and for the extractor its fault, which is passed on. Whether or not
runs before it failed or were reset, a run ends as it does alone on a new session. -/
theorem failure_is_atomic (extract : Extractor) (readLimit : Nat) (before later : List Event)
    (candidates : List Candidate) (name : Option String) :
    let fresh : Session := { extract, readLimit }
    let run := (starts before).length
    let events := before ++ .start candidates name :: later
    let s := (fresh.trace events).1
    let next := (s.step (.conclude run)).1
    let selected := candidates.filter Candidate.isSelected
    let result := (Project.analyze candidates name extract readLimit).2
    (Standing.of events).newest = some run → s.IsReady run →
    (∀ e, result = .error e → next.analysis = (fresh.trace before).1.analysis ∧
      next.status = .error ∧ ∃ message, next.error = some message ∧
        (message = "" → ∃ fault, e = .raised fault ∧ fault.IsMute)) ∧
    (∀ readable c rest fault, selected = readable ++ c :: rest →
      (∀ b ∈ readable, ∃ entry, b.read = .ok entry) → c.isDirectory = false →
      c.text = .error fault →
        result = .error (.read ⟨c.path, fault.text⟩) ∧
        next.error = some ("Failed to read " ++ c.path ++ ": " ++ fault.text) ∧
        next.outcome? run = some .nothing) ∧
    (∀ done e rest fault, selected.map Candidate.read = (done ++ e :: rest).map .ok →
      (∀ d ∈ done, Analysis.isRecorded d = true →
        ∃ record, extract (d.content.getD "") d.path = .ok record) →
      Analysis.isRecorded e = true → extract (e.content.getD "") e.path = .error fault →
      fault.kind ≠ .analysis →
        result = .error (.raised fault) ∧ next.error = some fault.summary ∧
        fault.summary ≠ "" ∧ next.outcome? run = some (.raised fault)) ∧
    ∀ limit order, Course.Possible selected.length limit order → order.length = selected.length →
      let alone := (trace { extract, readLimit := limit }
        (.start candidates name :: order.map (.finishRead 0) ++ [.conclude 0])).1
      alone.outcome? 0 = next.outcome? run ∧
        (alone.status, alone.progress, alone.error) = (next.status, next.progress, next.error) ∧
        ∀ analysis, next.outcome? run = some (.produced analysis) →
          next.analysis = some analysis ∧ alone.analysis = some analysis := by
  intro fresh run events s next selected result hnewest hready
  have hresult : result = Project.result candidates name extract := Project.analyze_snd ..
  have hends := ends_since_start extract readLimit before later candidates name hnewest hready
  rw [← hresult] at hends
  refine ⟨fun e he => ?_, ?_, ?_, ?_⟩
  · rw [he] at hends
    obtain ⟨hanalysis, hstatus, herror⟩ := hends.of_error
    exact ⟨hanalysis, hstatus, e.told, herror, ProjectError.told_eq_empty_iff.1⟩
  · intro readable c rest fault hselected hreadable hfile htext
    have he : result = .error (.read ⟨c.path, fault.text⟩) :=
      hresult.trans (Project.result_of_unread hselected hreadable hfile htext)
    rw [he] at hends
    exact ⟨he, hends.of_error.2.2, hends.outcome⟩
  · intro done e rest fault hread hdone hrecorded hextract hkind
    have he : result = .error (.raised fault) :=
      hresult.trans (Project.result_of_extraction hread hdone hrecorded hextract)
    rw [he] at hends
    have htold : (ProjectError.raised fault).told = fault.summary := Fault.told_of_foreign hkind
    refine ⟨he, htold ▸ hends.of_error.2.2, fault.summary_ne_empty, hends.outcome.trans ?_⟩
    rw [Outcome.ofResult, if_neg hkind]
  · intro limit order hpossible hlength
    exact hends.same (hresult ▸ ends_alone extract name hpossible hlength)

/-- A source file that is gone when it is read. -/
def lostFile : Candidate where
  path := "a.py"
  size := .ok 1
  isDirectory := false
  text := .error ⟨.missingFile, some "gone"⟩

def folder : Candidate where
  path := "src"
  size := .ok 0
  isDirectory := true
  text := .ok ""

theorem lostFile_fails_after_folder :
    let fresh : Session := { extract := .lexical, readLimit := 1 }
    let before := [.start [folder] none, .finishRead 0 0, .conclude 0]
    let next := (fresh.trace (before ++ [.start [lostFile] none, .finishRead 1 0, .conclude 1])).1
    let alone := (fresh.trace [.start [lostFile] none, .finishRead 0 0, .conclude 0]).1
    next.analysis = (fresh.trace before).1.analysis ∧ next.status = .error ∧
      next.error = some "Failed to read a.py: gone" ∧ next.outcome? 1 = some .nothing ∧
      (alone.status, alone.progress, alone.error) = (next.status, next.progress, next.error) := by
  intro fresh before next alone
  have hselected : [lostFile].filter Candidate.isSelected = [lostFile] :=
    List.filter_cons_of_pos (by decide +kernel)
  have hpossible : Course.Possible ([lostFile].filter Candidate.isSelected).length 1 [0] := by
    rw [hselected]
    exact Course.possible_concat_iff.2 ⟨Course.possible_nil, List.not_mem_nil, by decide, by decide⟩
  have h := failure_is_atomic .lexical 1 before [.finishRead 1 0] [lostFile] none rfl
    ⟨_, rfl, rfl, by decide +kernel⟩
  obtain ⟨hresult, herror, hreturned⟩ :=
    h.2.1 [] lostFile [] ⟨.missingFile, some "gone"⟩ hselected (fun b hb => by cases hb) rfl rfl
  obtain ⟨hanalysis, hstatus, -⟩ := h.1 _ hresult
  exact ⟨hanalysis, hstatus, herror, hreturned,
    (h.2.2.2 1 [0] hpossible (by rw [hselected]; rfl)).2.1⟩

end CodeAtlas.Session
