import CodeAtlas.Proofs.Session.Heard

/-! What the listeners of a session know. Whatever a run changes is told before the session waits
again, so listeners know what the session shows from the start of a run on; a reset is not told, and
they know nothing of it until the next run starts. -/
namespace CodeAtlas.Session

variable {s : Session} {p : Standing} {heard : List Snapshot}

/-- What a listener knows that knew `known` and has heard more since. -/
def lastKnown (known : Snapshot) (heard : List Snapshot) : Snapshot := heard.getLast?.getD known

theorem lastKnown_step (s : Session) {event : Event} (h : event ≠ .reset) :
    lastKnown s.snapshot (s.step event).2 = (s.step event).1.snapshot := by
  rcases s.step_cases event with
    hreset | ⟨hface, hheard⟩ | ⟨t, progress, hstep, -⟩ | ⟨result, read, hface, hheard⟩
  · exact absurd hreset h
  · have hsnapshot : (s.step event).1.snapshot = s.snapshot :=
      (congrArg Session.snapshot hface :)
    rw [hheard, hsnapshot]
    rfl
  · rw [hstep]
    rfl
  · have hsnapshot : (s.step event).1.snapshot = (s.ended result).snapshot :=
      (congrArg Session.snapshot hface :)
    rw [hheard, hsnapshot]
    cases read <;> rfl

private theorem status_of_mem_step {event : Event} {a : Snapshot} (ha : a ∈ (s.step event).2) :
    a.status ≠ .idle := by
  rcases s.step_cases event with
    rfl | ⟨-, hheard⟩ | ⟨t, progress, hstep, -⟩ | ⟨result, read, -, hheard⟩
  · cases ha
  · rw [hheard] at ha
    cases ha
  · rw [hstep] at ha
    obtain rfl := List.mem_singleton.1 ha
    exact Status.noConfusion
  · have hlast : (s.ended result).snapshot.status ≠ .idle := by
      cases result <;> exact Status.noConfusion
    rw [hheard] at ha
    cases read with
    | error e =>
      obtain rfl := List.mem_singleton.1 ha
      exact hlast
    | ok entries =>
      rcases List.mem_pair.1 ha with rfl | rfl
      · exact Status.noConfusion
      · exact hlast

/-- What listeners know of a session: all of it while a run is the newest one, and nothing of its
being idle. -/
structure Informs (s : Session) (p : Standing) (heard : List Snapshot) : Prop where
  busy : ∀ a ∈ heard, a.status ≠ .idle
  told : p.newest ≠ none → heard.getLast? = some s.snapshot
  idle : p.newest = none → s.status = .idle

theorem getLast?_append {known next : Snapshot} {more : List Snapshot}
    (h : heard.getLast? = some known) (hnext : lastKnown known more = next) :
    (heard ++ more).getLast? = some next := by
  rw [List.getLast?_append, h, Option.or_some]
  exact congrArg some hnext

private theorem informs_step (h : s.Informs p heard) (htracks : s.Tracks p) (event : Event) :
    (s.step event).1.Informs (p.after event) (heard ++ (s.step event).2) := by
  have hbusy : ∀ a ∈ heard ++ (s.step event).2, a.status ≠ .idle := by
    intro a ha
    rcases List.mem_append.1 ha with ha | ha
    · exact h.busy a ha
    · exact status_of_mem_step ha
  cases hevent : event.run? with
  | none =>
    cases event with
    | start candidates name =>
      exact ⟨hbusy, fun _ => List.getLast?_concat, fun hnewest => by cases hnewest⟩
    | reset => exact ⟨hbusy, fun hnewest => absurd rfl hnewest, fun _ => rfl⟩
    | finishRead run entry => cases hevent
    | conclude run => cases hevent
  | some run =>
    rw [Standing.after_of_run hevent]
    refine ⟨hbusy, fun hnewest => ?_, fun hnewest => ?_⟩
    · have hreset : event ≠ .reset := by
        rintro rfl
        cases hevent
      exact getLast?_append (h.told hnewest) (s.lastKnown_step hreset)
    · obtain ⟨hface, -⟩ := step_of_not_newest htracks hevent (by simp [hnewest])
      exact (congrArg Session.status hface :).trans (h.idle hnewest)

private theorem informs_trace (extract : Extractor) (readLimit : Nat) (events : List Event) :
    (trace { extract, readLimit } events).1.Informs (Standing.of events)
      (trace { extract, readLimit } events).2 := by
  induction events using List.reverseRecOn with
  | nil => exact ⟨fun a ha => (by cases ha), fun h => absurd rfl h, fun _ => rfl⟩
  | append_singleton events event ih =>
    rw [trace_concat, Standing.of_append_singleton]
    exact informs_step ih (tracks_trace extract readLimit events) event

private theorem trace_of_no_start {later : List Event} {kept : Bool} (htracks : s.Tracks p)
    (hnewest : p.newest = none) (hidle : s.snapshot = ⟨.idle, 0, none, kept⟩)
    (hlater : starts later = []) :
    (s.trace later).1.snapshot = ⟨.idle, 0, none, kept⟩ ∧ (s.trace later).2 = [] := by
  induction later generalizing s p with
  | nil => exact ⟨hidle, rfl⟩
  | cons event later ih =>
    have hnext : (s.step event).1.snapshot = ⟨.idle, 0, none, kept⟩ ∧ (s.step event).2 = [] ∧
        (p.after event).newest = none ∧ starts later = [] := by
      cases hevent : event.run? with
      | some run =>
        obtain ⟨hface, hheard⟩ := step_of_not_newest htracks hevent (by simp [hnewest])
        have hstarts : starts (event :: later) = starts [event] ++ starts later :=
          starts_append [event] later
        rw [hlater, starts_of_run hevent] at hstarts
        exact ⟨(congrArg Session.snapshot hface :).trans hidle, hheard,
          by rw [Standing.after_of_run hevent, hnewest], hstarts.symm⟩
      | none =>
        cases event with
        | start candidates name => cases hlater
        | reset =>
          have hkept : s.analysis.isSome = kept := congrArg Snapshot.hasResult hidle
          exact ⟨hkept ▸ rfl, rfl, rfl, hlater⟩
        | finishRead run entry => cases hevent
        | conclude run => cases hevent
    obtain ⟨hsnapshot, hheard, hnewest', hstarts⟩ := hnext
    obtain ⟨hlast, hmore⟩ := ih (tracks_step htracks event) hnewest' hsnapshot hstarts
    exact ⟨hlast, List.append_eq_nil_iff.2 ⟨hheard, hmore⟩⟩

/-- Whatever an event other than a reset changes is told before the session waits again. So of a
session of which something was heard, the last thing heard is what it shows if and only if no reset
has come after the last start of a run. From a reset on the session is idle, which nobody is told,
until a run starts. -/
theorem told_until_reset (extract : Extractor) (readLimit : Nat) (events : List Event) :
    let fresh : Session := { extract, readLimit }
    let s := (fresh.trace events).1
    let heard := (fresh.trace events).2
    (∀ event, event ≠ .reset →
      lastKnown s.snapshot (s.step event).2 = (s.step event).1.snapshot) ∧
    (heard ≠ [] → (heard.getLast? = some s.snapshot ↔ (Standing.of events).newest ≠ none)) ∧
    ∀ before later, events = before ++ .reset :: later → starts later = [] →
      s.snapshot = ⟨.idle, 0, none, (fresh.trace before).1.analysis.isSome⟩ ∧
        heard = (fresh.trace before).2 := by
  intro fresh s heard
  have hinforms : s.Informs (Standing.of events) heard := informs_trace extract readLimit events
  refine ⟨fun event => s.lastKnown_step, fun hheard => ⟨fun hlast hnewest => ?_, hinforms.told⟩,
    fun before later hevents hlater => ?_⟩
  · exact hinforms.busy _ (List.mem_of_getLast? hlast) (hinforms.idle hnewest)
  · obtain ⟨hsnapshot, hsilent⟩ := trace_of_no_start (s := (fresh.trace before).1.reset)
      (tracks_reset (tracks_trace extract readLimit before)) rfl rfl hlater
    have htrace : fresh.trace events = (((fresh.trace before).1.reset.trace later).1,
        (fresh.trace before).2 ++ ((fresh.trace before).1.reset.trace later).2) := by
      rw [hevents, trace_append]
      rfl
    exact ⟨(congrArg (fun traced => traced.1.snapshot) htrace).trans hsnapshot,
      (congrArg Prod.snd htrace).trans (by rw [hsilent, List.append_nil])⟩

/-- The listeners of a session that is reset after a success still believe in the success. -/
theorem reset_after_success_untold :
    let fresh : Session := { extract := .lexical, readLimit := 1 }
    let file : Candidate :=
      { path := "p/a.ts", size := .ok 1, isDirectory := false, text := .ok "x" }
    let traced := fresh.trace [.start [file] none, .finishRead 0 0, .conclude 0, .reset]
    traced.2.getLast? = some ⟨.success, 100, none, true⟩ ∧
      traced.1.snapshot = ⟨.idle, 0, none, true⟩ := by
  decide +kernel

end CodeAtlas.Session
