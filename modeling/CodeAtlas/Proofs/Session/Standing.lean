import Mathlib.Data.List.Induction
import CodeAtlas.Proofs.Session.Step

/-! Which run is the newest, read off the events alone. A session counts generations instead; the
invariant below says that both counts name the same run. -/
namespace CodeAtlas.Session

/-- How many runs have started, and which of them neither a newer run nor a reset has overtaken. -/
structure Standing where
  started : Nat := 0
  newest : Option Nat := none

namespace Standing

def after (p : Standing) : Event → Standing
  | .start .. => ⟨p.started + 1, some p.started⟩
  | .reset => ⟨p.started, none⟩
  | .finishRead .. => p
  | .conclude _ => p

/-- The standing at the end of a history. -/
def of (events : List Event) : Standing := events.foldl after {}

@[simp] theorem of_append_singleton (events : List Event) (event : Event) :
    of (events ++ [event]) = (of events).after event := by
  unfold of
  rw [List.foldl_append]
  rfl

theorem after_of_run {p : Standing} {event : Event} {run : Nat} (h : event.run? = some run) :
    p.after event = p := by
  cases event with
  | start candidates name => simp [Event.run?] at h
  | reset => simp [Event.run?] at h
  | finishRead run' entry => rfl
  | conclude run' => rfl

end Standing

/-- What each run of a history was started with. -/
def starts : List Event → List (List Candidate × Option String)
  | [] => []
  | .start candidates name :: events => (candidates, name) :: starts events
  | _ :: events => starts events

theorem starts_append (events more : List Event) :
    starts (events ++ more) = starts events ++ starts more := by
  induction events with
  | nil => rfl
  | cons event events ih => cases event <;> simp [starts, ih]

theorem starts_of_run {event : Event} {run : Nat} (h : event.run? = some run) :
    starts [event] = [] := by
  cases event with
  | start candidates name => simp [Event.run?] at h
  | reset => rfl
  | finishRead run' entry => rfl
  | conclude run' => rfl

structure Tracks (s : Session) (p : Standing) : Prop where
  started : s.runs.length = p.started
  bounded : ∀ (run : Nat) (r : Run), s.runs[run]? = some r → r.generation ≤ s.generation
  newest : ∀ (run : Nat) (r : Run), s.runs[run]? = some r →
    (r.generation = s.generation ↔ p.newest = some run)

structure Keeps (s : Session) (begun : List (List Candidate × Option String)) : Prop where
  kept : s.runs.map (fun r => (r.candidates, r.name)) = begun
  selected : ∀ r ∈ s.runs, r.reading.selected = r.candidates.filter Candidate.isSelected

theorem step_terms_of_run (s : Session) {event : Event} {run : Nat}
    (hevent : event.run? = some run) : (s.step event).1.terms = s.terms := by
  cases event with
  | start candidates name => simp [Event.run?] at hevent
  | reset => simp [Event.run?] at hevent
  | finishRead run' entry =>
    cases hr : s.runs[run']? with
    | none => rw [step_of_no_run rfl hr]
    | some r =>
      simp only [step, finishRead_eq entry hr]
      split
      · rfl
      · exact announceFor_terms ..
  | conclude run' =>
    cases hr : s.runs[run']? with
    | none => rw [step_of_no_run rfl hr]
    | some r =>
      rcases r.ready_or_waits with ⟨houtcome, result, hresult⟩ | hwait
      · simp only [step, concludeRun_eq hr houtcome hresult]
        exact endRun_terms ..
      · simp only [step, concludeRun_of_waits hr hwait]

theorem step_extract_of_run (s : Session) {event : Event} {run : Nat}
    (hevent : event.run? = some run) : (s.step event).1.extract = s.extract :=
  congrArg Prod.fst (step_terms_of_run s hevent)

theorem step_runs {s : Session} {event : Event} {run : Nat} {r : Run}
    (hevent : event.run? = some run) (hr : s.runs[run]? = some r) :
    ∃ f : Run → Run, r.Continues (f r) ∧ (s.step event).1.runs = s.runs.modify run f := by
  obtain ⟨f, hf, hstep⟩ := step_of_run hevent hr
  refine ⟨f, hf, ?_⟩
  have h := congrArg (fun heard => heard.1.runs) (hstep s.runs hr)
  simpa only [withRuns_self, withRuns_runs] using h

theorem getElem?_modify_cases {runs : List Run} {run i : Nat} {r after : Run} {f : Run → Run}
    (hr : runs[run]? = some r) (h : (runs.modify run f)[i]? = some after) :
    (i = run ∧ after = f r) ∨ (i ≠ run ∧ runs[i]? = some after) := by
  by_cases hi : run = i
  · subst hi
    rw [List.getElem?_modify_eq, hr] at h
    exact .inl ⟨rfl, (Option.some.inj h).symm⟩
  · rw [List.getElem?_modify_ne _ _ hi] at h
    exact .inr ⟨Ne.symm hi, h⟩

theorem tracks_step_of_run {s : Session} {p : Standing} {event : Event} {run : Nat}
    (h : s.Tracks p) (hevent : event.run? = some run) : (s.step event).1.Tracks p := by
  cases hr : s.runs[run]? with
  | none =>
    rw [step_of_no_run hevent hr]
    exact h
  | some r =>
    obtain ⟨f, hf, hruns⟩ := step_runs hevent hr
    have hgeneration : (s.step event).1.generation = s.generation :=
      congrArg (fun terms => terms.2.2) (step_terms_of_run s hevent)
    refine ⟨?_, fun i after hafter => ?_, fun i after hafter => ?_⟩
    · rw [hruns, List.length_modify]
      exact h.started
    · rw [hruns] at hafter
      rw [hgeneration]
      obtain ⟨rfl, rfl⟩ | ⟨-, hi⟩ := getElem?_modify_cases hr hafter
      · rw [hf.generation]
        exact h.bounded i r hr
      · exact h.bounded i after hi
    · rw [hruns] at hafter
      rw [hgeneration]
      obtain ⟨rfl, rfl⟩ | ⟨-, hi⟩ := getElem?_modify_cases hr hafter
      · rw [hf.generation]
        exact h.newest i r hr
      · exact h.newest i after hi

theorem startRun_runs (s : Session) (candidates : List Candidate) (name : Option String) :
    (s.startRun candidates name).1.runs = s.runs ++ [s.newRun candidates name] := rfl

theorem startRun_generation (s : Session) (candidates : List Candidate) (name : Option String) :
    (s.startRun candidates name).1.generation = s.generation + 1 := rfl

theorem tracks_startRun {s : Session} {p : Standing} (h : s.Tracks p)
    (candidates : List Candidate) (name : Option String) :
    (s.startRun candidates name).1.Tracks ⟨p.started + 1, some p.started⟩ := by
  have hcases : ∀ (i : Nat) (r : Run), (s.startRun candidates name).1.runs[i]? = some r →
      (i < p.started ∧ r.generation ≤ s.generation) ∨
        (i = p.started ∧ r.generation = s.generation + 1) := by
    intro i r hr
    rw [startRun_runs] at hr
    rcases Nat.lt_or_ge i s.runs.length with hi | hi
    · rw [List.getElem?_append_left hi] at hr
      exact .inl ⟨h.started ▸ hi, h.bounded i r hr⟩
    · rw [List.getElem?_append_right hi] at hr
      obtain ⟨hlast, hnew⟩ := List.getElem?_eq_some_iff.1 hr
      rw [List.length_singleton] at hlast
      have hgeneration : r.generation = s.generation + 1 := by
        rw [← hnew, List.getElem_singleton]
        rfl
      exact .inr ⟨by have := h.started; omega, hgeneration⟩
  refine ⟨?_, fun i r hr => ?_, fun i r hr => ?_⟩
  · simp [startRun_runs, h.started]
  · rw [startRun_generation]
    rcases hcases i r hr with ⟨-, hg⟩ | ⟨-, hg⟩ <;> omega
  · rw [startRun_generation, Option.some.injEq]
    rcases hcases i r hr with ⟨hi, hg⟩ | ⟨hi, hg⟩ <;> omega

theorem tracks_reset {s : Session} {p : Standing} (h : s.Tracks p) :
    s.reset.Tracks ⟨p.started, none⟩ := by
  refine ⟨h.started, fun i r hr => ?_, fun i r hr => ?_⟩
  · have hg := h.bounded i r hr
    change r.generation ≤ s.generation + 1
    omega
  · have hg := h.bounded i r hr
    change r.generation = s.generation + 1 ↔ none = some i
    simp only [reduceCtorEq, iff_false]
    omega

theorem tracks_step {s : Session} {p : Standing} (h : s.Tracks p) (event : Event) :
    (s.step event).1.Tracks (p.after event) := by
  cases event with
  | start candidates name => exact tracks_startRun h candidates name
  | reset => exact tracks_reset h
  | finishRead run entry => exact tracks_step_of_run h rfl
  | conclude run => exact tracks_step_of_run h rfl

theorem Keeps.begun_eq {s : Session} {begun : List (List Candidate × Option String)} {run : Nat}
    {r : Run} (h : s.Keeps begun) (hr : s.runs[run]? = some r) :
    begun[run]? = some (r.candidates, r.name) := by
  rw [← h.kept, List.getElem?_map, hr]
  rfl

theorem Keeps.length_eq {s : Session} {begun : List (List Candidate × Option String)}
    (h : s.Keeps begun) : begun.length = s.runs.length := by
  rw [← h.kept, List.length_map]

theorem keeps_step_of_run {s : Session} {begun : List (List Candidate × Option String)}
    {event : Event} {run : Nat} (h : s.Keeps begun) (hevent : event.run? = some run) :
    (s.step event).1.Keeps begun := by
  cases hr : s.runs[run]? with
  | none =>
    rw [step_of_no_run hevent hr]
    exact h
  | some r =>
    obtain ⟨f, hf, hruns⟩ := step_runs hevent hr
    constructor
    · rw [hruns, ← h.kept]
      apply List.ext_getElem?
      intro i
      simp only [List.getElem?_map, List.getElem?_modify]
      by_cases hi : run = i
      · subst hi
        simp [hr, hf.candidates, hf.name]
      · simp [hi]
    · intro after hafter
      rw [hruns] at hafter
      obtain ⟨i, hi⟩ := List.mem_iff_getElem?.1 hafter
      obtain ⟨rfl, rfl⟩ | ⟨-, hi⟩ := getElem?_modify_cases hr hi
      · rw [hf.selected, hf.candidates]
        exact h.selected r (List.mem_of_getElem? hr)
      · exact h.selected after (List.mem_of_getElem? hi)

private theorem keeps_step {s : Session} {begun : List (List Candidate × Option String)}
    (h : s.Keeps begun) (event : Event) : (s.step event).1.Keeps (begun ++ starts [event]) := by
  cases event with
  | start candidates name =>
    constructor
    · change (s.startRun candidates name).1.runs.map _ = _
      rw [startRun_runs, List.map_append, h.kept]
      rfl
    · intro r hr
      change r ∈ (s.startRun candidates name).1.runs at hr
      rw [startRun_runs, List.mem_append, List.mem_singleton] at hr
      rcases hr with hr | rfl
      · exact h.selected r hr
      · rfl
  | reset =>
    rw [show starts [.reset] = [] from rfl, List.append_nil]
    exact ⟨h.kept, h.selected⟩
  | finishRead run entry =>
    rw [starts_of_run rfl, List.append_nil]
    exact keeps_step_of_run h rfl
  | conclude run =>
    rw [starts_of_run rfl, List.append_nil]
    exact keeps_step_of_run h rfl

theorem trace_append (s : Session) (events more : List Event) :
    s.trace (events ++ more) =
      (((s.trace events).1.trace more).1,
        (s.trace events).2 ++ ((s.trace events).1.trace more).2) := by
  induction events generalizing s with
  | nil => rfl
  | cons event events ih =>
    simp only [List.cons_append, trace, ih]
    rw [List.append_assoc]

theorem trace_induction {motive : List Event → Session → Prop} {s : Session}
    (start : motive [] s)
    (next : ∀ events event, motive events (s.trace events).1 →
      motive (events ++ [event]) ((s.trace events).1.step event).1)
    (events : List Event) : motive events (s.trace events).1 := by
  induction events using List.reverseRecOn with
  | nil => exact start
  | append_singleton events event ih =>
    have hstep : (s.trace (events ++ [event])).1 = ((s.trace events).1.step event).1 := by
      rw [trace_append]
      rfl
    rw [hstep]
    exact next events event ih

variable (extract : Extractor) (readLimit : Nat)

theorem tracks_trace (events : List Event) :
    (trace { extract, readLimit } events).1.Tracks (Standing.of events) := by
  refine trace_induction (motive := fun events s => s.Tracks (Standing.of events)) ?_ ?_ events
  · refine ⟨rfl, fun run r hr => ?_, fun run r hr => ?_⟩ <;> simp at hr
  · intro events event h
    rw [Standing.of_append_singleton]
    exact tracks_step h event

theorem keeps_trace (events : List Event) :
    (trace { extract, readLimit } events).1.Keeps (starts events) := by
  refine trace_induction (motive := fun events s => s.Keeps (starts events)) ?_ ?_ events
  · exact ⟨rfl, fun r hr => by simp at hr⟩
  · intro events event h
    rw [starts_append]
    exact keeps_step h event

end CodeAtlas.Session
