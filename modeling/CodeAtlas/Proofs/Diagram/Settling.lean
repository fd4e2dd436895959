import CodeAtlas.Proofs.Diagram.Loops
import CodeAtlas.Proofs.Diagram.Rest

/-! Three ways to bring a layout to rest: settling it, stepping it again and again, and a loop that
wakes up from time to time. They look for the end at different points and come to the same. -/
namespace CodeAtlas

open Layout

namespace Layout.Simulation

variable {α γ : Type} [Scalar α] [Generator γ]

private theorem run_of_settled {s : Simulation α γ} (h : s.settled = true) (limit : Nat) :
    s.run limit = (s, 0, false) := by
  cases limit with
  | zero => rfl
  | succ limit => exact if_pos h

private theorem ticks_run (s : Simulation α γ) (limit : Nat) :
    (s.run limit).1.ticks = s.ticks + (s.run limit).2.1 := by
  induction limit generalizing s with
  | zero => rfl
  | succ limit ih =>
    have htick := s.ticks_tick
    rw [run]
    split
    · rfl
    · cases hresult : s.tick with
      | mk next stalled =>
        rw [hresult] at htick
        cases stalled with
        | true => exact htick
        | false =>
          have hnext : next.ticks = s.ticks + 1 := htick
          calc (next.run limit).1.ticks = next.ticks + (next.run limit).2.1 := ih next
            _ = s.ticks + ((next.run limit).2.1 + 1) := by omega

end Layout.Simulation

namespace Diagram

variable {α γ : Type} [Scalar α] [Generator γ] {d e : Diagram α γ}

/-- A number of steps, one at a time. -/
def stepping (n : Nat) : List (Operation α) := List.replicate n (.step 1)

theorem run_stepping_succ (n : Nat) : d.run (stepping (n + 1)) = d.step.1.run (stepping n) :=
  congrArg (run · (stepping n)) steps_one

theorem run_stepping_of_settled (h : d.phase = .settled) (n : Nat) : d.run (stepping n) = d := by
  induction n with
  | zero => rfl
  | succ n ih => rw [run_stepping_succ, step_of_settled h, ih]

private theorem clean_step (h : d.TicksCleanly (.step 1)) : d.step.2 ≠ .error .divisionByZero := by
  intro hfault
  refine h ?_
  simp only [apply, replying, steps]
  cases hstep : d.step with
  | mk next result =>
    rw [hstep] at hfault
    obtain rfl : result = .error .divisionByZero := hfault
    rfl

theorem clean_stepping_succ {n : Nat} (h : d.Throughout TicksCleanly (stepping (n + 1))) :
    d.step.2 ≠ .error .divisionByZero ∧ d.step.1.Throughout TicksCleanly (stepping n) := by
  obtain ⟨hfirst, hrest⟩ := h
  rw [show (d.apply (.step 1)).1 = d.step.1 from steps_one] at hrest
  exact ⟨clean_step hfirst, hrest⟩

theorem settle_eq_run {n : Nat} (hclean : d.Throughout TicksCleanly (stepping n)) :
    (d.settle n).1 = d.run (stepping n) := by
  induction n generalizing d with
  | zero => rfl
  | succ n ih =>
    obtain ⟨hfirst, hrest⟩ := clean_stepping_succ hclean
    have hlater := ih hrest
    rw [run_stepping_succ, settle]
    generalize hstep : d.step = result at hfirst hlater
    cases hstep ▸ stepped_step (d := d) with
    | settled phase => exact (run_stepping_of_settled phase n).symm
    | emptied phase units => exact (run_stepping_of_settled rfl n).symm
    | stalled phase units tick => exact absurd rfl hfirst
    | @ticked phase units s tick =>
      cases hsettled : s.settled with
      | true => exact (run_stepping_of_settled rfl n).symm
      | false =>
        simp only [hsettled] at hlater
        exact hlater

private theorem simulation_settle (h : Tempered d) (hunits : d.source ≠ []) (n : Nat) :
    (d.settle n).1.simulation = (d.simulation.run n).1 := by
  induction n generalizing d with
  | zero => rfl
  | succ n ih =>
    have hiff := h.settled_iff hunits
    have hnext := h.step
    rw [settle, Simulation.run]
    generalize hstep : d.step = result at hnext
    cases hstep ▸ stepped_step (d := d) with
    | settled phase => rw [if_pos (hiff.1 phase)]
    | emptied phase units => exact absurd (List.isEmpty_iff.1 units) hunits
    | stalled phase units tick =>
      rw [if_neg (mt hiff.2 phase), tick]
    | @ticked phase units s tick =>
      rw [if_neg (mt hiff.2 phase), tick]
      cases hsettled : s.settled with
      | true => exact (congrArg Prod.fst (Simulation.run_of_settled hsettled n)).symm
      | false =>
        rw [hsettled] at hnext
        exact ih (hnext fun hfault => by cases hfault) hunits

private theorem snd_step (hclean : d.step.2 ≠ .error .divisionByZero) :
    d.step.2 = .ok d.step.1.phase := by
  generalize hstep : d.step = result at hclean
  cases hstep ▸ stepped_step (d := d) with
  | settled phase => rw [phase]
  | emptied phase units => rfl
  | stalled phase units tick => exact absurd rfl hclean
  | ticked phase units tick => rfl

private theorem run_wake_of_not_live {loop : Nat} (h : d.loops.isLive loop = false) (n : Nat) :
    d.run (List.replicate n (.wake loop)) = d := by
  induction n with
  | zero => rfl
  | succ n ih =>
    have hnothing : (d.apply (.wake loop)).1 = d := by
      rw [apply_wake, wake_of_not_live h]
    exact (congrArg (run · _) hnothing).trans ih

private theorem quiet_run_wake {loop n : Nat} (hlive : d.loops.isLive loop = true)
    (hsame : d.quiet = e.quiet) (hclean : e.Throughout TicksCleanly (stepping n)) :
    (d.run (List.replicate n (.wake loop))).quiet = (e.run (stepping n)).quiet := by
  induction n generalizing d e with
  | zero => exact hsame
  | succ n ih =>
    obtain ⟨hfirst, hrest⟩ := clean_stepping_succ hclean
    obtain ⟨hnext, hresult⟩ : d.step.1.quiet = e.step.1.quiet ∧ d.step.2 = e.step.2 := by
      rw [← Prod.mk.injEq, ← step_quiet, ← step_quiet, hsame]
    rw [snd_step hfirst] at hresult
    have hstep : d.step = (d.step.1, d.step.2) := rfl
    obtain ⟨hwoken, -⟩ := wake_of_live hlive hstep
    have hstate := any_live_set hlive (loopAfter d.step.2)
    rw [run_stepping_succ]
    change ((d.apply (.wake loop)).1.run _).quiet = _
    rw [apply_wake, hwoken]
    rw [hresult] at hstate ⊢
    by_cases hphase : e.step.1.phase = .settled
    · rw [hphase] at hstate
      rw [run_stepping_of_settled hphase, run_wake_of_not_live (by rw [hphase]; exact hstate)]
      exact hnext
    · have hsleeping : loopAfter (.ok e.step.1.phase) = .sleeping := by
        cases hcase : e.step.1.phase with
        | settled => exact absurd hcase hphase
        | idle => rfl
        | simulating => rfl
      rw [hsleeping] at hstate ⊢
      exact ih hstate hnext hrest

/-- In every state that clean ticks lead to, settling a layout in two goes is settling it in one,
and is stepping it as many times, if these ticks are clean too. Settling a diagram with units ticks
its simulation exactly as running the simulation does, and a loop that can still run and wakes up a
number of times does to the diagram what as many steps do. -/
theorem settling_is_stepping [LawfulScalar α] {options : DiagramOptions α}
    {units : List SourceUnit} {width height : Option Int} {mode : ViewMode} {seed : γ}
    (hcreate : create options units width height mode seed = .ok d)
    {operations : List (Operation α)} (hclean : d.Throughout TicksCleanly operations) :
    let now := d.run operations
    (∀ m n : Nat, now.Throughout TicksCleanly (stepping (m + n)) →
      let whole := now.run [.settle (some ((m + n : Nat) : Int))]
      now.run [.settle (some m), .settle (some n)] = whole ∧
      whole = now.run (stepping (m + n))) ∧
    (now.source ≠ [] → ∀ n : Nat,
      let settled := (now.apply (.settle (some n))).1
      settled.simulation = (now.simulation.run n).1 ∧
      settled.simulation.ticks = now.simulation.ticks + (now.simulation.run n).2.1) ∧
    ∀ loop, now.loops.isLive loop = true → ∀ n, now.Throughout TicksCleanly (stepping n) →
      (now.run (List.replicate n (.wake loop))).quiet = (now.run (stepping n)).quiet := by
  intro now
  have htempered : now.Tempered := (tempered_create hcreate).run hclean
  refine ⟨fun m n hsteps => ?_, fun hunits n => ?_, fun loop hlive n hsteps =>
    quiet_run_wake hlive rfl hsteps⟩
  · intro whole
    have hsplit : (stepping (m + n) : List (Operation α)) = stepping m ++ stepping n :=
      List.replicate_add ..
    have hwhole : whole = now.run (stepping (m + n)) := settle_eq_run hsteps
    obtain ⟨hfirst, hsecond⟩ := throughout_append.1 (hsplit ▸ hsteps)
    refine ⟨?_, hwhole⟩
    calc now.run [.settle (some m), .settle (some n)]
      _ = ((now.settle m).1.settle n).1 := rfl
      _ = (now.run (stepping m)).run (stepping n) := by
        rw [settle_eq_run hfirst, settle_eq_run hsecond]
      _ = now.run (stepping (m + n)) := by rw [hsplit, run_append]
      _ = whole := hwhole.symm
  · intro settled
    have hsimulation : settled.simulation = (now.simulation.run n).1 :=
      simulation_settle htempered hunits n
    exact ⟨hsimulation, by rw [hsimulation, Simulation.ticks_run]⟩

theorem lone_dragged_three_ways :
    let now := lone.run (dragging ++ [.start])
    lone.Throughout TicksCleanly (dragging ++ [.start]) ∧
    now.Throughout TicksCleanly (stepping 5) ∧ now.source ≠ [] ∧ now.loops.isLive 0 = true ∧
    now.run [.settle (some 2), .settle (some 3)] = now.run (stepping 5) ∧
    (now.apply (.settle (some 5))).1.simulation = (now.simulation.run 5).1 ∧
    (now.run (List.replicate 5 (.wake 0))).quiet = (now.run (stepping 5)).quiet := by
  intro now
  have hclean : lone.Throughout TicksCleanly (dragging ++ [.start]) := by decide +kernel
  have hsteps : now.Throughout TicksCleanly (stepping 5) := by decide +kernel
  have hunits : now.source ≠ [] := by decide +kernel
  have hlive : now.loops.isLive 0 = true := by decide +kernel
  obtain ⟨hgoes, hticks, hloop⟩ := settling_is_stepping create_lone hclean
  obtain ⟨hone, hmany⟩ := hgoes 2 3 hsteps
  exact ⟨hclean, hsteps, hunits, hlive, hone.trans hmany, (hticks hunits 5).1,
    hloop 0 hlive 5 hsteps⟩

end Diagram

end CodeAtlas
