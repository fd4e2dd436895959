import CodeAtlas.Proofs.Session.Account
import Mathlib.Data.List.Forall2

/-! The history of a session as its listeners hear it. Of the newest run they have heard just as
much as it has done; of every other run they keep what they had heard when it was overtaken. -/
namespace CodeAtlas.Session

def Excerpt (extract : Extractor) (begun : List Candidate × Option String)
    (part : List Snapshot) : Prop :=
  part ≠ [] ∧ ∃ kept, part <+: account extract kept begun

structure Follows (s : Session) (r : Run) (part : List Snapshot) : Prop where
  shown : part.getLast? = some s.snapshot
  length_done : r.reading.done.length = r.reading.selected.length
  reading : r.outcome = none →
    part = readingAccount s.analysis.isSome r.reading.selected.length r.reading.doneCount
  ended : r.outcome ≠ none → r.reading.isDone = true ∧
    ∃ kept, part = account s.extract kept (r.candidates, r.name)

variable {s : Session} {r : Run} {run : Nat} {part : List Snapshot}

theorem Follows.excerpt (h : s.Follows r part)
    (hselected : r.reading.selected = r.candidates.filter Candidate.isSelected) :
    Excerpt s.extract (r.candidates, r.name) part := by
  refine ⟨fun hnil => ?_, ?_⟩
  · have hshown := h.shown
    rw [hnil] at hshown
    cases hshown
  · cases houtcome : r.outcome with
    | some outcome =>
      obtain ⟨-, kept, rfl⟩ := h.ended (by simp [houtcome])
      exact ⟨kept, List.prefix_rfl⟩
    | none =>
      have hcount : r.reading.doneCount ≤ r.reading.selected.length :=
        h.length_done ▸ List.count_le_length
      refine ⟨s.analysis.isSome, ?_⟩
      rw [h.reading houtcome, account, ← hselected]
      exact (readingAccount_isPrefix _ hcount).trans (List.prefix_append _ _)

theorem Follows.snapshot_of_reading (h : s.Follows r part) (houtcome : r.outcome = none) :
    s.snapshot = ⟨.uploading, 100 * r.reading.doneCount / r.reading.selected.length, none,
      s.analysis.isSome⟩ := by
  have hshown := h.shown
  rw [h.reading houtcome, getLast?_readingAccount] at hshown
  exact (Option.some.inj hshown).symm

private theorem follows_startRun (s : Session) (candidates : List Candidate)
    (name : Option String) : (s.startRun candidates name).1.Follows (s.newRun candidates name)
      (s.startRun candidates name).2 where
  shown := rfl
  length_done := Reading.start_length ..
  reading := fun _ => by
    rw [newRun, Reading.start_doneCount]
    rfl
  ended := fun h => absurd rfl h

private theorem follows_finishRead (h : s.Follows r part) (hr : s.runs[run]? = some r)
    (hcurrent : s.isCurrent r.generation = true) (entry : Nat) :
    ∃ next, (s.finishRead run entry).1.runs[run]? = some next ∧
      (s.finishRead run entry).1.Follows next (part ++ (s.finishRead run entry).2) := by
  cases hfinish : r.reading.finish entry with
  | none =>
    rw [finishRead_eq entry hr, hfinish]
    exact ⟨r, hr, by simpa using h⟩
  | some reading =>
    have houtcome : r.outcome = none := by
      by_contra houtcome
      rw [Reading.finish_of_isDone (h.ended houtcome).1] at hfinish
      cases hfinish
    have hselected := Reading.selected_of_finish hfinish
    have herror : s.error = none := congrArg Snapshot.error (h.snapshot_of_reading houtcome)
    rw [finishRead_of_current hr hcurrent hfinish]
    refine ⟨{ r with reading }, ?_, List.getLast?_concat, ?_, fun _ => ?_,
      fun hended => absurd houtcome hended⟩
    · change (s.runs.modify run _)[run]? = _
      rw [List.getElem?_modify_eq, hr]
      rfl
    · exact (Reading.length_done_of_finish hfinish).trans (h.length_done.trans (by rw [hselected]))
    · rw [h.reading houtcome]
      simp only [hselected, Reading.doneCount_of_finish hfinish, readingAccount_succ,
        Reading.progress, announce, snapshot, withRuns, herror, Option.getD_some]

private theorem follows_concludeRun (h : s.Follows r part) (hr : s.runs[run]? = some r)
    (hcurrent : s.isCurrent r.generation = true)
    (hselected : r.reading.selected = r.candidates.filter Candidate.isSelected) :
    ∃ next, (s.concludeRun run).1.runs[run]? = some next ∧
      (s.concludeRun run).1.Follows next (part ++ (s.concludeRun run).2) := by
  rcases r.ready_or_waits with ⟨houtcome, result, hresult⟩ | hwait
  · obtain ⟨hdone, rfl⟩ := Reading.result?_eq_some_iff.1 hresult
    have hsnapshot := h.snapshot_of_reading houtcome
    rw [Reading.doneCount_of_isDone hdone, h.length_done] at hsnapshot
    have herror : s.error = none := congrArg Snapshot.error hsnapshot
    have hprogress : s.progress = 100 * r.reading.selected.length / r.reading.selected.length :=
      congrArg Snapshot.progress hsnapshot
    rw [concludeRun_of_current hr houtcome hresult hcurrent]
    let result := Project.resultOf r.candidates r.name s.extract
      (Reading.collect r.reading.selected)
    refine ⟨{ r with outcome := some (.ofResult true result) }, ?_, ?_, h.length_done,
      fun hnone => (by cases hnone), fun _ => ⟨hdone, s.analysis.isSome, ?_⟩⟩
    · rw [withRuns_runs, List.getElem?_modify_eq, hr]
      rfl
    · unfold heardOfEnd
      cases Reading.collect r.reading.selected with
      | error e => exact List.getLast?_concat
      | ok entries => rw [List.append_cons]; exact List.getLast?_concat
    · rw [heardOfEnd_eq_closing herror (r.candidates, r.name), h.reading houtcome, hprogress,
        Reading.doneCount_of_isDone hdone, h.length_done]
      simp only [account, ← hselected, withRuns, ended_extract]
  · rw [concludeRun_of_waits hr hwait]
    exact ⟨r, hr, by simpa using h⟩

private theorem follows_step (h : s.Follows r part) (hr : s.runs[run]? = some r)
    (hcurrent : s.isCurrent r.generation = true)
    (hselected : r.reading.selected = r.candidates.filter Candidate.isSelected) {event : Event}
    (hevent : event.run? = some run) :
    ∃ next, (s.step event).1.runs[run]? = some next ∧
      (s.step event).1.Follows next (part ++ (s.step event).2) := by
  cases event with
  | start candidates name => cases hevent
  | reset => cases hevent
  | finishRead run' entry =>
    obtain rfl : run' = run := Option.some.inj hevent
    exact follows_finishRead h hr hcurrent entry
  | conclude run' =>
    obtain rfl : run' = run := Option.some.inj hevent
    exact follows_concludeRun h hr hcurrent hselected

structure Narrates (s : Session) (p : Standing) (begun : List (List Candidate × Option String))
    (parts : List (List Snapshot)) : Prop where
  each : List.Forall₂ (Excerpt s.extract) begun parts
  newest : ∀ run, p.newest = some run → ∃ r earlier part, s.runs[run]? = some r ∧
    parts = earlier ++ [part] ∧ earlier.length = run ∧ s.Follows r part

variable {p : Standing} {begun : List (List Candidate × Option String)}
  {parts : List (List Snapshot)}

private theorem forall₂_concat {α β : Type} {R : α → β → Prop} {l : List α} {earlier : List β}
    {b b' : β} (h : List.Forall₂ R l (earlier ++ [b]))
    (hlast : ∀ a, l[earlier.length]? = some a → R a b') :
    List.Forall₂ R l (earlier ++ [b']) := by
  induction earlier generalizing l with
  | nil =>
    cases h with
    | cons hab hnil =>
      cases hnil
      exact .cons (hlast _ rfl) .nil
  | cons c rest ih =>
    cases h with
    | cons hac hrest => exact .cons hac (ih hrest hlast)

theorem runs_step_of_ne {event : Event} {other : Nat} (hevent : event.run? = some run)
    (hne : run ≠ other) : (s.step event).1.runs[other]? = s.runs[other]? := by
  cases hr : s.runs[run]? with
  | none => rw [step_of_no_run hevent hr]
  | some r =>
    obtain ⟨f, -, hruns⟩ := step_runs hevent hr
    rw [hruns, List.getElem?_modify_ne _ _ hne]

private theorem Narrates.overtaken (h : s.Narrates p begun parts) (htracks : s.Tracks p)
    {event : Event} (hevent : event.run? = some run) (hnewest : p.newest ≠ some run) :
    (s.step event).2 = [] ∧ (s.step event).1.Narrates p begun parts := by
  obtain ⟨hface, hheard⟩ := step_of_not_newest htracks hevent hnewest
  have hextract := step_extract_of_run s hevent
  have hsnapshot : (s.step event).1.snapshot = s.snapshot := (congrArg Session.snapshot hface :)
  have hanalysis : (s.step event).1.analysis = s.analysis := (congrArg Session.analysis hface :)
  refine ⟨hheard, hextract ▸ h.each, fun other hother => ?_⟩
  obtain ⟨r, earlier, part, hr, hparts, hlength, hfollows⟩ := h.newest other hother
  have hne : run ≠ other := fun heq => hnewest (heq ▸ hother)
  refine ⟨r, earlier, part, (runs_step_of_ne hevent hne).trans hr, hparts, hlength, ?_⟩
  exact ⟨hsnapshot ▸ hfollows.shown, hfollows.length_done, hanalysis ▸ hfollows.reading,
    hextract ▸ hfollows.ended⟩

private theorem Narrates.advanced (h : s.Narrates p begun parts) (htracks : s.Tracks p)
    (hkeeps : s.Keeps begun) {event : Event} (hevent : event.run? = some run)
    (hnewest : p.newest = some run) :
    ∃ parts', parts'.flatten = parts.flatten ++ (s.step event).2 ∧
      (s.step event).1.Narrates p begun parts' := by
  obtain ⟨r, earlier, part, hr, rfl, hlength, hfollows⟩ := h.newest run hnewest
  have hcurrent : s.isCurrent r.generation = true :=
    beq_iff_eq.2 ((htracks.newest run r hr).2 hnewest).symm
  have hselected := hkeeps.selected r (List.mem_of_getElem? hr)
  obtain ⟨next, hnext, hfollows'⟩ := follows_step hfollows hr hcurrent hselected hevent
  refine ⟨earlier ++ [part ++ (s.step event).2], by simp, ?_, fun other hother => ?_⟩
  · have hkept := keeps_step_of_run hkeeps hevent
    rw [step_extract_of_run s hevent]
    refine forall₂_concat h.each fun b hb => ?_
    rw [hlength, hkept.begun_eq hnext] at hb
    obtain rfl := Option.some.inj hb
    have hexcerpt := hfollows'.excerpt (hkept.selected next (List.mem_of_getElem? hnext))
    rwa [step_extract_of_run s hevent] at hexcerpt
  · obtain rfl : run = other := Option.some.inj (hnewest.symm.trans hother)
    exact ⟨next, earlier, _, hnext, rfl, hlength, hfollows'⟩

private theorem narrates_step (h : s.Narrates p begun parts) (htracks : s.Tracks p)
    (hkeeps : s.Keeps begun) (event : Event) :
    ∃ parts', parts'.flatten = parts.flatten ++ (s.step event).2 ∧
      (s.step event).1.Narrates (p.after event) (begun ++ starts [event]) parts' := by
  cases hevent : event.run? with
  | some run =>
    rw [Standing.after_of_run hevent, starts_of_run hevent, List.append_nil]
    by_cases hnewest : p.newest = some run
    · exact h.advanced htracks hkeeps hevent hnewest
    · obtain ⟨hheard, hnarrates⟩ := h.overtaken htracks hevent hnewest
      exact ⟨parts, by rw [hheard, List.append_nil], hnarrates⟩
  | none =>
    cases event with
    | start candidates name =>
      have hfollows := follows_startRun s candidates name
      have hlength : parts.length = s.runs.length := h.each.length_eq.symm.trans hkeeps.length_eq
      refine ⟨parts ++ [(s.startRun candidates name).2], by simp [step], ?_, fun run hrun => ?_⟩
      · exact List.rel_append h.each (.cons (hfollows.excerpt rfl) .nil)
      · obtain rfl : p.started = run := Option.some.inj hrun
        refine ⟨_, parts, _, ?_, rfl, hlength.trans htracks.started, hfollows⟩
        change (s.startRun candidates name).1.runs[p.started]? = _
        rw [startRun_runs, ← htracks.started, List.getElem?_concat_length]
    | reset =>
      refine ⟨parts, (List.append_nil _).symm, ?_, fun run hrun => by cases hrun⟩
      rw [show starts [.reset] = [] from rfl, List.append_nil]
      exact h.each
    | finishRead run entry => cases hevent
    | conclude run => cases hevent

theorem trace_concat (s : Session) (events : List Event) (event : Event) :
    s.trace (events ++ [event]) = (((s.trace events).1.step event).1,
      (s.trace events).2 ++ ((s.trace events).1.step event).2) := by
  rw [trace_append]
  simp only [trace, List.append_nil]

theorem narrates_trace (extract : Extractor) (readLimit : Nat) (events : List Event) :
    ∃ parts, parts.flatten = (trace { extract, readLimit } events).2 ∧
      (trace { extract, readLimit } events).1.Narrates (Standing.of events) (starts events)
        parts := by
  induction events using List.reverseRecOn with
  | nil => exact ⟨[], rfl, .nil, fun run hrun => by cases hrun⟩
  | append_singleton events event ih =>
    obtain ⟨parts, hparts, hnarrates⟩ := ih
    obtain ⟨parts', hparts', hnarrates'⟩ := narrates_step hnarrates
      (tracks_trace extract readLimit events) (keeps_trace extract readLimit events) event
    rw [trace_concat, Standing.of_append_singleton, starts_append]
    exact ⟨parts', by rw [hparts', hparts], hnarrates'⟩

/-- What is heard tells at every moment whether there is an analysis: there was one at first or not,
and there is one in the end or not. -/
def Reports : Bool → List Snapshot → Bool → Prop
  | had, [], has => has = had
  | had, a :: rest, has => a.hasResult = (had || a.status == .success) ∧
    Reports a.hasResult rest has

theorem Reports.append {had has last : Bool} {heard more : List Snapshot}
    (h : Reports had heard has) (h' : Reports has more last) :
    Reports had (heard ++ more) last := by
  induction heard generalizing had with
  | nil => exact (show has = had from h) ▸ h'
  | cons a rest ih => exact ⟨h.1, ih h.2⟩

end CodeAtlas.Session
