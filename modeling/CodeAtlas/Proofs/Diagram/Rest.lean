import CodeAtlas.Proofs.Decimal.Binary64
import CodeAtlas.Proofs.Diagram.Effect
import CodeAtlas.Proofs.Layout.Hold

/-! When a layout is at rest. A diagram with units is settled as long as its temperature lies below
the floor, and only a drag or a new beginning brings its bodies back into motion. -/
namespace CodeAtlas

open Layout

namespace Layout

variable {α γ : Type}

/-- The place and the speed of a body. -/
def Body.motion (b : Body α) : (α × α) × α × α := ((b.x, b.y), b.vx, b.vy)

namespace Simulation

/-- The places and speeds of the bodies, the temperature, and the number of ticks. -/
def motion (s : Simulation α γ) : List ((α × α) × α × α) × α × Nat :=
  (s.bodies.map Body.motion, s.cooling.alpha, s.ticks)

theorem motion_modify (s : Simulation α γ) (i : Nat) {g : Body α → Body α}
    (hg : ∀ b, (g b).motion = b.motion) : (s.modify i g).motion = s.motion := by
  rw [motion, modify, map_modify_of_eq hg]
  rfl

variable [Scalar α]

@[simp] theorem motion_cool (s : Simulation α γ) : s.cool.motion = s.motion := rfl

variable [LawfulScalar α]

private theorem settled_reheat (s : Simulation α γ) (target : α) :
    (s.reheat target).settled = false := by
  unfold settled Cooling.settled reheat Cooling.reheat
  cases h : s.cooling.settled with
  | true => exact LawfulScalar.less_self s.cooling.floor
  | false => exact h

private theorem settled_start (bodies : List (Body α)) (links : List (Nat × Nat))
    (physics : Physics α) (generator : γ) : (start bodies links physics generator).settled = false :=
  LawfulScalar.one_not_less_thousandth

end Simulation

end Layout

namespace Diagram

variable {α γ : Type} {d e : Diagram α γ}

section Throughout

variable [Scalar α] [Generator γ]

/-- Something holds of every operation of a list and the diagram that it is done to. -/
def Throughout (P : Diagram α γ → Operation α → Prop) (d : Diagram α γ) : List (Operation α) → Prop
  | [] => True
  | op :: rest => P d op ∧ Throughout P (d.apply op).1 rest

instance (P : Diagram α γ → Operation α → Prop) [∀ d op, Decidable (P d op)] :
    ∀ d operations, Decidable (Throughout P d operations)
  | _, [] => inferInstanceAs (Decidable True)
  | d, op :: rest =>
    have := instDecidableThroughout P (d.apply op).1 rest
    inferInstanceAs (Decidable (P d op ∧ Throughout P (d.apply op).1 rest))

theorem throughout_append {P : Diagram α γ → Operation α → Prop}
    {first second : List (Operation α)} : d.Throughout P (first ++ second) ↔
      d.Throughout P first ∧ (d.run first).Throughout P second := by
  induction first generalizing d with
  | nil => exact ⟨fun h => ⟨trivial, h⟩, And.right⟩
  | cons op rest ih => exact (and_congr_right fun _ => ih).trans and_assoc.symm

end Throughout

/-- The phase of a diagram tells its temperature, and a layout that has not begun has not ticked. -/
structure Tempered [Scalar α] (d : Diagram α γ) : Prop where
  settled_iff : d.source ≠ [] → (d.phase = .settled ↔ d.simulation.settled = true)
  ticks_of_idle : d.phase = .idle → d.simulation.ticks = 0

variable [Scalar α] [Generator γ]

theorem Tempered.step (h : Tempered d) (hclean : d.step.2 ≠ .error .divisionByZero) :
    Tempered d.step.1 := by
  generalize hstep : d.step = result at hclean
  cases hstep ▸ stepped_step (d := d) with
  | settled phase => exact h
  | emptied phase units =>
    exact ⟨fun hne => absurd (List.isEmpty_iff.1 units) hne, fun hidle => by cases hidle⟩
  | stalled phase units tick => exact absurd rfl hclean
  | @ticked phase units s tick =>
    cases hsettled : s.settled with
    | true => exact ⟨fun _ => iff_of_true rfl hsettled, fun hidle => by cases hidle⟩
    | false =>
      exact ⟨fun _ => iff_of_false (by simp) (by simp [hsettled]), fun hidle => by cases hidle⟩

theorem Tempered.of_ticked {clean : Prop} (hclean : clean) (hticked : Ticked clean d e)
    (h : Tempered d) : Tempered e := by
  induction hticked with
  | refl d => exact h
  | step hstep rest ih => exact ih (h.step (hstep hclean))
  | loops l rest ih => exact ih ⟨h.settled_iff, h.ticks_of_idle⟩

variable [LawfulScalar α]

omit [Generator γ] in
theorem tempered_rebuild : Tempered d.rebuild where
  settled_iff := fun _ => iff_of_false (fun h => by cases h) (by
    rw [rebuild, layoutOf, Simulation.settled_start]
    exact Bool.false_ne_true)
  ticks_of_idle := fun _ => rfl

omit [Generator γ] in
theorem tempered_create {options : DiagramOptions α} {units : List SourceUnit}
    {width height : Option Int} {mode : ViewMode} {seed : γ}
    (h : create options units width height mode seed = .ok d) : Tempered d := by
  obtain ⟨-, rfl⟩ := create_eq_ok_iff.1 h
  exact tempered_rebuild (d := created options units _ _ mode seed)

theorem Tempered.apply (h : Tempered d) {op : Operation α}
    (hclean : (d.apply op).2 ≠ .error .divisionByZero) : Tempered (d.apply op).1 := by
  generalize hnext : (d.apply op).1 = next
  cases hnext ▸ effect_apply (d := d) op with
  | ticked hticked => exact h.of_ticked hclean hticked
  | restarted hrestart loops => exact tempered_rebuild
  | held hi loops =>
    -- A settled layout is lifted to the floor, and the floor does not lie below itself.
    refine ⟨fun _ => iff_of_false (fun h => by cases h) ?_, fun hidle => by cases hidle⟩
    rw [Simulation.settled_reheat]
    exact Bool.false_ne_true
  | moved hi fx fy => exact ⟨h.settled_iff, h.ticks_of_idle⟩
  | released hi => exact ⟨h.settled_iff, h.ticks_of_idle⟩
  | viewed viewport => exact ⟨h.settled_iff, h.ticks_of_idle⟩

/-- No tick of an operation divides by zero. -/
def TicksCleanly (d : Diagram α γ) (op : Operation α) : Prop :=
  (d.apply op).2 ≠ .error .divisionByZero

instance (d : Diagram α γ) (op : Operation α) : Decidable (d.TicksCleanly op) :=
  match h : (d.apply op).2 with
  | .error .divisionByZero => isFalse fun hclean => hclean h
  | .error (.unknownNode _) | .error (.unknownViewMode _) | .error .canvasTooLarge | .ok _ =>
    isTrue fun hfault => by rw [h] at hfault; cases hfault

theorem Tempered.run (h : Tempered d) {operations : List (Operation α)}
    (hclean : d.Throughout TicksCleanly operations) : Tempered (d.run operations) := by
  induction operations generalizing d with
  | nil => exact h
  | cons op rest ih => exact ih (h.apply hclean.1) hclean.2

omit [LawfulScalar α]

private theorem phase_step_ne_idle : d.step.1.phase ≠ .idle := by
  generalize hstep : d.step = result
  cases hstep ▸ stepped_step (d := d) with
  | settled phase => rw [phase]; exact Phase.noConfusion
  | emptied phase units => exact Phase.noConfusion
  | stalled phase units tick => exact Phase.noConfusion
  | @ticked phase units s tick => cases s.settled <;> exact Phase.noConfusion

private theorem phase_ne_idle_of_ticked {clean : Prop} (h : Ticked clean d e)
    (hphase : d.phase ≠ .idle) : e.phase ≠ .idle := by
  induction h with
  | refl d => exact hphase
  | step hstep rest ih => exact ih phase_step_ne_idle
  | loops l rest ih => exact ih hphase

private theorem phase_ne_idle_of_apply {op : Operation α} (hphase : d.phase ≠ .idle)
    (hrestart : d.restartOf? op = none) : (d.apply op).1.phase ≠ .idle := by
  generalize hnext : (d.apply op).1 = next
  cases hnext ▸ effect_apply (d := d) op with
  | ticked hticked => exact phase_ne_idle_of_ticked hticked hphase
  | restarted h loops => rw [hrestart] at h; cases h
  | held hi loops => exact Phase.noConfusion
  | moved hi fx fy => exact hphase
  | released hi => exact hphase
  | viewed viewport => exact hphase

/-- Neither begins the layout again nor starts to drag one of its units. -/
def LeavesAtRest (d : Diagram α γ) (op : Operation α) : Prop :=
  d.restartOf? op = none ∧ ∀ id, op = .dragStart id → d.indexOf? id = none

private theorem settled_of_ticked {clean : Prop} (h : Ticked clean d e)
    (hphase : d.phase = .settled) : e.phase = .settled ∧ e.simulation = d.simulation := by
  induction h with
  | refl d => exact ⟨hphase, rfl⟩
  | step hstep rest ih =>
    rw [step_of_settled hphase] at ih
    exact ih hphase
  | loops l rest ih => exact ih hphase

theorem settled_of_apply {op : Operation α} (hphase : d.phase = .settled)
    (hrest : d.LeavesAtRest op) :
    (d.apply op).1.phase = .settled ∧ (d.apply op).1.simulation.motion = d.simulation.motion := by
  generalize hnext : (d.apply op).1 = next
  cases hnext ▸ effect_apply (d := d) op with
  | ticked hticked =>
    obtain ⟨hsettled, hsimulation⟩ := settled_of_ticked hticked hphase
    exact ⟨hsettled, congrArg Simulation.motion hsimulation⟩
  | restarted h loops => rw [hrest.1] at h; cases h
  | held hi loops => rw [hrest.2 _ rfl] at hi; cases hi
  | moved hi fx fy => exact ⟨hphase, Simulation.motion_modify _ _ fun _ => rfl⟩
  | released hi =>
    exact ⟨hphase, (Simulation.motion_cool _).trans (Simulation.motion_modify _ _ fun _ => rfl)⟩
  | viewed viewport => exact ⟨hphase, rfl⟩

private theorem settled_of_run {operations : List (Operation α)} (hphase : d.phase = .settled)
    (hrest : d.Throughout LeavesAtRest operations) :
    (d.run operations).phase = .settled ∧
      (d.run operations).simulation.motion = d.simulation.motion := by
  induction operations generalizing d with
  | nil => exact ⟨hphase, rfl⟩
  | cons op rest ih =>
    obtain ⟨hnext, hmotion⟩ := settled_of_apply hphase hrest.1
    obtain ⟨hend, hmotion'⟩ := ih hnext hrest.2
    exact ⟨hend, hmotion'.trans hmotion⟩

/-- In every state that clean ticks lead to, a diagram with units is settled exactly when its
temperature lies below the floor, and an idle layout has not ticked. A layout becomes idle by a new
beginning alone and is roused from its rest by a new beginning or a drag alone; until then no
operation moves a body, changes the temperature or counts a tick. -/
theorem settled_iff_below_floor [LawfulScalar α] {options : DiagramOptions α}
    {units : List SourceUnit} {width height : Option Int} {mode : ViewMode} {seed : γ}
    {d : Diagram α γ} (hcreate : create options units width height mode seed = .ok d)
    {operations : List (Operation α)} (hclean : d.Throughout TicksCleanly operations) :
    let now := d.run operations
    (now.source ≠ [] → (now.phase = .settled ↔
      Scalar.less now.simulation.cooling.alpha now.simulation.cooling.floor = true)) ∧
    (now.phase = .idle → now.simulation.ticks = 0) ∧
    (∀ op, (now.apply op).1.phase = .idle → now.phase = .idle ∨ (now.restartOf? op).isSome) ∧
    (∀ op, now.phase = .settled → (now.apply op).1.phase ≠ .settled →
      (now.restartOf? op).isSome ∨ ∃ id, op = .dragStart id ∧ (now.indexOf? id).isSome) ∧
    ∀ later, now.phase = .settled → now.Throughout LeavesAtRest later →
      (now.run later).phase = .settled ∧
      (now.run later).simulation.bodies.map Body.motion = now.simulation.bodies.map Body.motion ∧
      (now.run later).simulation.cooling.alpha = now.simulation.cooling.alpha ∧
      (now.run later).simulation.ticks = now.simulation.ticks := by
  intro now
  have htempered : now.Tempered := (tempered_create hcreate).run hclean
  refine ⟨htempered.settled_iff, htempered.ticks_of_idle, fun op hidle => ?_,
    fun op hsettled hleft => ?_, fun later hsettled hrest => ?_⟩
  · cases hrestart : now.restartOf? op with
    | some restart => exact .inr rfl
    | none =>
      exact .inl <| Decidable.not_not.1 fun hphase =>
        phase_ne_idle_of_apply hphase hrestart hidle
  · by_cases hrest : now.LeavesAtRest op
    · exact absurd (settled_of_apply hsettled hrest).1 hleft
    · cases hrestart : now.restartOf? op with
      | some restart => exact .inl rfl
      | none =>
        obtain ⟨id, hid⟩ := Classical.not_forall.1 fun h => hrest ⟨hrestart, h⟩
        obtain ⟨hop, hindex⟩ := Classical.not_imp.1 hid
        exact .inr ⟨id, hop, Option.isSome_iff_ne_none.2 hindex⟩
  · obtain ⟨hend, hmotion⟩ := settled_of_run hsettled hrest
    obtain ⟨hbodies, hcounts⟩ := Prod.mk.inj hmotion
    obtain ⟨halpha, hticks⟩ := Prod.mk.inj hcounts
    exact ⟨hend, hbodies, halpha, hticks⟩

/-- The unit that has been dragged is not settled as long as it is warm. -/
theorem lone_dragged_settled_iff : lone.Throughout TicksCleanly dragging ∧
    ((lone.run dragging).phase = .settled ↔
      Scalar.less (lone.run dragging).simulation.cooling.alpha
        (lone.run dragging).simulation.cooling.floor = true) := by
  have hclean : lone.Throughout TicksCleanly dragging := by decide +kernel
  exact ⟨hclean, (settled_iff_below_floor create_lone hclean).1 (by decide +kernel)⟩

end Diagram

end CodeAtlas
