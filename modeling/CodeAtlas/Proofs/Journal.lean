import Mathlib
import CodeAtlas.Journal

/-! Journals that are set up again and again. A journal takes each kind of outlet once at most and
never changes its outlets when it has some, and its level is the last known one that it was asked
for. A setup that fails at its directory has set the level and the console already. -/
namespace CodeAtlas.Journal

private theorem Level.value?_cases (level : Level) :
    (∃ n, level.value? = .ok n) ∨ ∃ name, level.value? = .error (.unknownLevel name) := by
  cases level with
  | number n => exact .inl ⟨n, rfl⟩
  | named name =>
    rw [value?]
    cases levels.lookup name with
    | none => exact .inr ⟨name, rfl⟩
    | some n => exact .inl ⟨n, rfl⟩

/-- A setup of a journal, with the disk as it finds it. -/
structure Setup (δ : Type) where
  level : Level
  console : Bool
  directory : Option String
  disk : δ

variable {δ : Type} (makeDirectory : δ → String → Except DiskError δ)

namespace Setup

/-- The journal after a setup, and how the setup ends. -/
def act (c : Setup δ) (j : Journal) : Journal × Except JournalError Unit :=
  let (next, _, result) := j.setup c.level c.console c.directory c.disk makeDirectory
  (next, result)

/-- The level that a setup asks for, if it is known. -/
def level? (c : Setup δ) : Option Int := c.level.value?.toOption

/-- The console, where it is asked for. -/
def front (c : Setup δ) : List Outlet := if c.console then [.console] else []

/-- The file, where it is asked for and its directory can be made. -/
def file (c : Setup δ) : Except DiskError (List Outlet) :=
  match c.directory.filter (· != "") with
  | none => .ok []
  | some path => (makeDirectory c.disk path).map fun _ => [.file]

variable {makeDirectory} {c : Setup δ} {j : Journal}

theorem act_cases (makeDirectory : δ → String → Except DiskError δ) (c : Setup δ) (j : Journal) :
    (∃ name, c.level? = none ∧ c.act makeDirectory j = (j, .error (.unknownLevel name))) ∨
    ∃ n, c.level? = some n ∧
      ((j.outlets ≠ [] ∧ c.act makeDirectory j = ({ j with level := n }, .ok ())) ∨
      (∃ e, j.outlets = [] ∧ c.file makeDirectory = .error e ∧
        c.act makeDirectory j = (⟨n, c.front⟩, .error (.directory e))) ∨
      ∃ file, j.outlets = [] ∧ c.file makeDirectory = .ok file ∧
        c.act makeDirectory j = (⟨n, c.front ++ file⟩, .ok ())) := by
  unfold act setup level?
  rcases c.level.value?_cases with ⟨n, hlevel⟩ | ⟨name, hlevel⟩
  · refine .inr ⟨n, by rw [hlevel]; rfl, ?_⟩
    rw [hlevel]
    obtain ⟨level, outlets⟩ := j
    cases outlets with
    | cons first rest => exact .inl ⟨List.cons_ne_nil _ _, rfl⟩
    | nil =>
      right
      unfold file front
      cases c.directory.filter (· != "") with
      | none => exact .inr ⟨[], rfl, rfl, by cases c.console <;> rfl⟩
      | some path =>
        cases hmade : makeDirectory c.disk path with
        | error e =>
          exact .inl ⟨e, rfl, by simp [hmade, Except.map],
            by cases c.console <;> simp [hmade]⟩
        | ok disk =>
          exact .inr ⟨[.file], rfl, by simp [hmade, Except.map],
            by cases c.console <;> simp [hmade]⟩
  · exact .inl ⟨name, by rw [hlevel]; rfl, by rw [hlevel]⟩

private theorem level_act (makeDirectory : δ → String → Except DiskError δ) (c : Setup δ)
    (j : Journal) : (c.act makeDirectory j).1.level = c.level?.getD j.level := by
  rcases c.act_cases makeDirectory j with
    ⟨name, hlevel, hact⟩ | ⟨n, hlevel, ⟨-, hact⟩ | ⟨e, -, -, hact⟩ | ⟨file, -, -, hact⟩⟩ <;>
  · rw [hlevel, hact]
    rfl

private theorem outlets_act (makeDirectory : δ → String → Except DiskError δ) (c : Setup δ)
    (h : j.outlets ≠ []) : (c.act makeDirectory j).1.outlets = j.outlets := by
  rcases c.act_cases makeDirectory j with
    ⟨name, -, hact⟩ | ⟨n, -, ⟨-, hact⟩ | ⟨e, hnone, -⟩ | ⟨file, hnone, -⟩⟩
  · rw [hact]
  · rw [hact]
  · exact absurd hnone h
  · exact absurd hnone h

theorem front_sublist (c : Setup δ) : c.front.Sublist [.console] := by
  rw [front]
  split
  · exact List.Sublist.refl _
  · exact List.nil_sublist _

private theorem file_sublist {file : List Outlet} (h : c.file makeDirectory = .ok file) :
    file.Sublist [.file] := by
  rw [Setup.file] at h
  split at h
  · cases h
    exact List.nil_sublist _
  · next path _ =>
    cases hmade : makeDirectory c.disk path with
    | error e => simp [hmade, Except.map] at h
    | ok disk =>
      rw [hmade] at h
      cases h
      exact List.Sublist.refl _

private theorem sublist_act (h : j.outlets.Sublist [.console, .file]) :
    (c.act makeDirectory j).1.outlets.Sublist [.console, .file] := by
  rcases c.act_cases makeDirectory j with
    ⟨name, -, hact⟩ | ⟨n, -, ⟨-, hact⟩ | ⟨e, -, -, hact⟩ | ⟨file, -, hfile, hact⟩⟩
  · rwa [hact]
  · rwa [hact]
  · rw [hact]
    exact c.front_sublist.trans (List.sublist_append_left [Outlet.console] [Outlet.file])
  · rw [hact]
    exact c.front_sublist.append (file_sublist hfile)

theorem front_eq_nil_iff : c.front = [] ↔ c.console = false := by
  rw [front]
  cases c.console <;> simp

private theorem act_error {next : Journal} {error : JournalError}
    (h : c.act makeDirectory j = (next, .error error)) :
    (∃ name, error = .unknownLevel name ∧ next = j) ∨
      ∃ e n, error = .directory e ∧ j.outlets = [] ∧ c.level? = some n ∧ next = ⟨n, c.front⟩ := by
  rcases c.act_cases makeDirectory j with
    ⟨name, -, hact⟩ | ⟨n, hlevel, ⟨-, hact⟩ | ⟨e, hnone, -, hact⟩ | ⟨file, -, -, hact⟩⟩
  · cases hact.symm.trans h
    exact .inl ⟨name, rfl, rfl⟩
  · cases hact.symm.trans h
  · cases hact.symm.trans h
    exact .inr ⟨e, n, rfl, hnone, hlevel, rfl⟩
  · cases hact.symm.trans h

private theorem file_after_failure {d : Setup δ} {n m : Int} (hlevel : d.level? = some n)
    (hfile : d.file makeDirectory = .ok [.file]) :
    .file ∈ (d.act makeDirectory ⟨m, c.front⟩).1.outlets ↔ c.console = false := by
  have hfront : Outlet.file ∉ c.front := fun hmem =>
    absurd (c.front_sublist.subset hmem) (by decide)
  rcases d.act_cases makeDirectory ⟨m, c.front⟩ with
    ⟨name, hunknown, -⟩ | ⟨n', -, ⟨hsome, hact⟩ | ⟨e, -, herror, -⟩ | ⟨file, hnone, hok, hact⟩⟩
  · rw [hlevel] at hunknown
    cases hunknown
  · rw [hact]
    exact iff_of_false hfront (mt front_eq_nil_iff.2 hsome)
  · rw [hfile] at herror
    cases herror
  · rw [hfile] at hok
    cases hok
    rw [hact]
    exact iff_of_true (List.mem_append_right _ (List.mem_singleton_self _))
      (front_eq_nil_iff.1 hnone)

end Setup

/-- The journal after some setups. -/
def after (j : Journal) (setups : List (Setup δ)) : Journal :=
  setups.foldl (fun j c => (c.act makeDirectory j).1) j

variable {makeDirectory} {j : Journal}

private theorem outlets_after (h : j.outlets ≠ []) (setups : List (Setup δ)) :
    (j.after makeDirectory setups).outlets = j.outlets := by
  induction setups generalizing j with
  | nil => rfl
  | cons c rest ih =>
    have hstep := c.outlets_act makeDirectory h
    exact (ih (hstep ▸ h)).trans hstep

private theorem level_after (j : Journal) (setups : List (Setup δ)) :
    (j.after makeDirectory setups).level =
      ((setups.filterMap Setup.level?).getLast?).getD j.level := by
  induction setups generalizing j with
  | nil => rfl
  | cons c rest ih =>
    have hstep := c.level_act makeDirectory j
    refine (ih _).trans ?_
    cases hlevel : c.level? with
    | none =>
      rw [List.filterMap_cons_none hlevel, hstep, hlevel]
      rfl
    | some n =>
      rw [List.filterMap_cons_some hlevel, hstep, hlevel, List.getLast?_cons]
      rfl

private theorem sublist_after (h : j.outlets.Sublist [.console, .file]) (setups : List (Setup δ)) :
    (j.after makeDirectory setups).outlets.Sublist [.console, .file] := by
  induction setups generalizing j with
  | nil => exact h
  | cons c rest ih => exact ih (Setup.sublist_act h)

/-- Whatever setups a new journal has seen, it has at most one console and one file, its outlets
never change once it has some, and its level is the last known one that was asked for. A setup with
an unknown level changes nothing. One that fails at its directory, which only a journal without
outlets looks for, sets the level and the console all the same; it has changed nothing only if the
level was the same and no console was asked for, and it keeps later setups from adding a file
exactly if the console was. -/
theorem outlets_of_setups (makeDirectory : δ → String → Except DiskError δ)
    (setups : List (Setup δ)) :
    let j := ({} : Journal).after makeDirectory setups
    (j.outlets.count .console ≤ 1 ∧ j.outlets.count .file ≤ 1) ∧
    (j.outlets ≠ [] → ∀ later, (j.after makeDirectory later).outlets = j.outlets) ∧
    j.level = ((setups.filterMap Setup.level?).getLast?).getD 0 ∧
    ∀ (c : Setup δ) (next : Journal) (error : JournalError),
      c.act makeDirectory j = (next, .error error) →
        (∃ name, error = .unknownLevel name ∧ next = j) ∨
        ∃ e n, error = .directory e ∧ j.outlets = [] ∧ c.level? = some n ∧ next = ⟨n, c.front⟩ ∧
          (next = j ↔ n = j.level ∧ c.console = false) ∧
          ∀ d : Setup δ, d.level?.isSome → d.file makeDirectory = .ok [.file] →
            (.file ∈ (d.act makeDirectory next).1.outlets ↔ c.console = false) := by
  intro j
  have hsublist : j.outlets.Sublist [.console, .file] :=
    sublist_after (List.nil_sublist _) setups
  refine ⟨⟨hsublist.count_le .console, hsublist.count_le .file⟩, outlets_after,
    level_after {} setups, fun c next error h => ?_⟩
  refine (Setup.act_error h).imp_right ?_
  rintro ⟨e, n, rfl, hnone, hlevel, rfl⟩
  refine ⟨e, n, rfl, hnone, hlevel, rfl, ?_, fun d hd hfile => ?_⟩
  · rw [← Setup.front_eq_nil_iff, ← hnone, Journal.mk.injEq]
  · obtain ⟨m, hm⟩ := Option.isSome_iff_exists.1 hd
    exact Setup.file_after_failure hm hfile

/-- A directory that cannot be made, since a file is there or for a null byte in its name, leaves a
level and a console behind, and a good directory then gets no file. -/
theorem failed_directory_keeps_file_out :
    let disk : Disk := ⟨[.file "a" []], none, []⟩
    let ask (level directory : String) (j : Journal) :=
      (⟨.named level, true, some directory, disk⟩ : Setup Disk).act (openDirectory "l") j
    ask "INFO" "a" {} = (⟨20, [.console]⟩, .error (.directory ⟨.occupied, "a"⟩)) ∧
    ask "INFO" "x\x00y" {} = (⟨20, [.console]⟩, .error (.directory ⟨.nullByte, "x\x00y"⟩)) ∧
    ask "DEBUG" "b" ⟨20, [.console]⟩ = (⟨10, [.console]⟩, .ok ()) ∧
    ask "DEBUG" "b" {} = (⟨10, [.console, .file]⟩, .ok ()) := by
  intro disk ask
  have hinfo : (Level.named "INFO").value? = .ok 20 := rfl
  have hdebug : (Level.named "DEBUG").value? = .ok 10 := rfl
  have hoccupied : openDirectory "l" disk "a" = .error ⟨.occupied, "a"⟩ := by cbv
  have hnull : openDirectory "l" disk "x\x00y" = .error ⟨.nullByte, "x\x00y"⟩ := by cbv
  have hmade : (openDirectory "l" disk "b").isOk = true := by cbv
  refine ⟨?_, ?_, ?_, ?_⟩
  · simp [ask, Setup.act, setup, hinfo, Option.filter, hoccupied]
  · simp [ask, Setup.act, setup, hinfo, Option.filter, hnull]
  · simp [ask, Setup.act, setup, hdebug]
  · cases hopened : openDirectory "l" disk "b" with
    | error e => simp [hopened, Except.isOk, Except.toBool] at hmade
    | ok opened => simp [ask, Setup.act, setup, hdebug, Option.filter, hopened]

end CodeAtlas.Journal
