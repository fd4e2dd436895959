import CodeAtlas.Proofs.Diagram.Rest

/-! How warm dragging keeps a layout. All drags share one target for the temperature, and the last
one that began or ended has set it, whatever else is still held. -/
namespace CodeAtlas

open Layout

namespace Diagram

variable {α γ : Type} {d e : Diagram α γ} {op : Operation α} {operations : List (Operation α)}
  {units : List SourceUnit} {before : List String} {id : String}

/-- A unit is taken up at the beginning of a drag and let go at its end. -/
inductive Turn where
  | taken (id : String)
  | letGo (id : String)
deriving DecidableEq

namespace Turn

def isTaking : Turn → Bool
  | taken _ => true
  | letGo _ => false

/-- What the temperature is to become after a turn. -/
def target [Scalar α] (turn : Turn) : α :=
  if turn.isTaking then Cooling.warmTarget else Scalar.zero

/-- The units that are held after a turn. -/
def after (held : List String) : Turn → List String
  | taken id => id :: held
  | letGo id => held.filter (· != id)

end Turn

/-- The turn that an operation on some units is. One on a unit that is not there is none. -/
def turn? (units : List SourceUnit) : Operation α → Option Turn
  | .dragStart id => if units.any (·.id == id) then some (.taken id) else none
  | .dragEnd id => if units.any (·.id == id) then some (.letGo id) else none
  | _ => none

def turns (units : List SourceUnit) (operations : List (Operation α)) : List Turn :=
  operations.filterMap (turn? units)

/-- The units that are held after a run: each is between the beginning and the end of a drag. -/
def heldAfter (units : List SourceUnit) (before : List String) (operations : List (Operation α)) :
    List String :=
  (turns units operations).foldl Turn.after before

/-- A unit is taken up only if it is not held, and moved or let go only if it is. -/
def Follows (held : List String) : Operation α → Prop
  | .dragStart id => id ∉ held
  | .dragMove id _ _ | .dragEnd id => id ∈ held
  | _ => True

instance (held : List String) : (op : Operation α) → Decidable (Follows held op)
  | .dragStart id => inferInstanceAs (Decidable (id ∉ held))
  | .dragMove id _ _ | .dragEnd id => inferInstanceAs (Decidable (id ∈ held))
  | .step _ | .settle _ | .setUnits _ | .viewMode _ | .viewModeNamed _ | .zoom .. | .pan ..
  | .resetView | .start | .stop | .close | .runLoop _ | .wake _ => isTrue trivial

/-- Every drag has a beginning, then moves, and then an end. -/
def Orderly (units : List SourceUnit) : List String → List (Operation α) → Prop
  | _, [] => True
  | held, op :: rest => Follows held op ∧ Orderly units (heldAfter units held [op]) rest

instance decidableOrderly (units : List SourceUnit) :
    ∀ (held : List String) (operations : List (Operation α)),
      Decidable (Orderly units held operations)
  | _, [] => isTrue trivial
  | held, op :: rest =>
    have := decidableOrderly units (heldAfter units held [op]) rest
    inferInstanceAs (Decidable (Follows held op ∧ Orderly units _ rest))

/-- The layout is not begun again. -/
def Continues (d : Diagram α γ) (op : Operation α) : Prop := d.restartOf? op = none

instance (d : Diagram α γ) (op : Operation α) : Decidable (d.Continues op) :=
  inferInstanceAs (Decidable (d.restartOf? op = none))

private theorem turn?_eq_letGo (h : turn? units op = some (.letGo id)) : op = .dragEnd id := by
  unfold turn? at h
  split at h
  · split at h <;> cases h
  · split at h
    · cases h
      rfl
    · cases h
  · cases h

theorem turns_cons (op : Operation α) (rest : List (Operation α)) :
    turns units (op :: rest) = (turn? units op).toList ++ turns units rest := by
  rw [turns, List.filterMap_cons]
  cases turn? units op <;> rfl

private theorem heldAfter_append (first second : List (Operation α)) :
    heldAfter units before (first ++ second) =
      heldAfter units (heldAfter units before first) second := by
  simp only [heldAfter, turns, List.filterMap_append, List.foldl_append]

theorem heldAfter_of_turn? (h : turn? units op = turn) :
    heldAfter units before [op] = turn.toList.foldl Turn.after before := by
  rw [heldAfter, turns_cons, h, turns, List.filterMap_nil, List.append_nil]

private theorem turns_ne_nil_of_heldAfter (h : heldAfter units [] operations ≠ []) :
    turns units operations ≠ [] := by
  intro hturns
  rw [heldAfter, hturns] at h
  exact h rfl

theorem isSome_indexOf? (id : String) :
    (d.indexOf? id).isSome = d.source.any (·.id == id) := by
  have hpresent : d.source.any (·.id == id) = d.source.zipIdx.any (·.1.id == id) := by
    conv_lhs => rw [← List.zipIdx_map_fst 0 d.source, List.any_map]
    rfl
  rw [indexOf?, Option.isSome_map, hpresent, Bool.eq_iff_iff, List.getLast?_isSome, Ne,
    List.filter_eq_nil_iff, List.any_eq_true]
  push Not
  rfl

variable [Scalar α] [Generator γ]

private theorem target_step : d.step.1.simulation.cooling.target = d.simulation.cooling.target := by
  rcases simulation_step (d := d) with h | h
  · rw [h]
  · rw [h, Simulation.cooling_tick]
    rfl

theorem Ticked.target {clean : Prop} (h : Ticked clean d e) :
    e.simulation.cooling.target = d.simulation.cooling.target :=
  h.same (·.simulation.cooling.target) (fun _ => target_step) fun _ _ => rfl

theorem target_apply (h : d.Continues op) : (d.apply op).1.simulation.cooling.target =
    ((turn? d.source op).map Turn.target).getD d.simulation.cooling.target := by
  cases hturn : turn? d.source op with
  | none =>
    generalize hnext : (d.apply op).1 = next
    cases hnext ▸ effect_apply (d := d) op with
    | ticked hticked => exact hticked.target
    | restarted hrestart loops => exact absurd (h.symm.trans hrestart) nofun
    | held hi loops => simp [turn?, ← isSome_indexOf?, hi] at hturn
    | moved hi fx fy => rfl
    | released hi => simp [turn?, ← isSome_indexOf?, hi] at hturn
    | viewed viewport => rfl
  | some turn =>
    cases op with
    | dragStart id =>
      cases hindex : d.indexOf? id with
      | none => simp [turn?, ← isSome_indexOf?, hindex] at hturn
      | some i =>
        obtain rfl : Turn.taken id = turn := by
          simpa [turn?, ← isSome_indexOf?, hindex] using hturn
        simp only [apply, replying, dragStart, withUnit, hindex]
        rfl
    | dragEnd id =>
      cases hindex : d.indexOf? id with
      | none => simp [turn?, ← isSome_indexOf?, hindex] at hturn
      | some i =>
        obtain rfl : Turn.letGo id = turn := by
          simpa [turn?, ← isSome_indexOf?, hindex] using hturn
        simp only [apply, replying, dragEnd, withUnit, hindex]
        rfl
    | _ => cases hturn

private theorem target_run (h : d.Throughout Continues operations) :
    (d.run operations).simulation.cooling.target =
      ((turns d.source operations).getLast?.map Turn.target).getD
        d.simulation.cooling.target := by
  induction operations generalizing d with
  | nil => rfl
  | cons op rest ih =>
    have hrest := ih h.2
    rw [source_apply h.1, target_apply h.1] at hrest
    refine hrest.trans ?_
    rw [turns_cons, List.getLast?_append]
    cases (turns d.source rest).getLast? with
    | none => cases turn? d.source op <;> rfl
    | some last => rfl

private theorem target_of_alone (h : d.Throughout Continues operations)
    (horderly : Orderly d.source before operations)
    (halone : ∀ first ∈ operations.inits, (heldAfter d.source before first).length ≤ 1)
    (hwarm : before ≠ [] → d.simulation.cooling.target = Cooling.warmTarget)
    (hheld : heldAfter d.source before operations ≠ []) :
    (d.run operations).simulation.cooling.target = Cooling.warmTarget := by
  induction operations generalizing d before with
  | nil => exact hwarm hheld
  | cons op rest ih =>
    have hsource := source_apply h.1
    have hsplit (first : List (Operation α)) :
        heldAfter (d.apply op).1.source (heldAfter d.source before [op]) first =
          heldAfter d.source before (op :: first) := by
      rw [hsource, ← heldAfter_append]
      rfl
    refine @ih _ (heldAfter d.source before [op]) h.2 (hsource ▸ horderly.2)
      (fun first hfirst => ?_) (fun hnow => ?_) ?_
    · rw [hsplit]
      exact halone _ (by simpa using hfirst)
    · rw [target_apply h.1]
      cases hturn : turn? d.source op with
      | none =>
        rw [heldAfter_of_turn? hturn] at hnow
        exact hwarm hnow
      | some turn =>
        cases turn with
        | taken id => rfl
        | letGo id =>
          -- The unit that is let go is the only one that was held.
          obtain rfl := turn?_eq_letGo hturn
          have hmem : id ∈ before := horderly.1
          have hlength : before.length ≤ 1 := halone [] (by simp)
          obtain rfl : before = [id] := by
            obtain ⟨x, rfl⟩ := List.length_eq_one_iff.1
              (Nat.le_antisymm hlength (List.length_pos_of_mem hmem))
            rw [List.mem_singleton.1 hmem]
          rw [heldAfter_of_turn? hturn] at hnow
          exact absurd (by simp [Turn.after]) hnow
    · rwa [hsplit]

/-- As long as a unit is held, the layout is being warmed up if the last drag that began or ended
has begun, and is cooling down if it has ended, whichever unit that was. So it is warm under a drag
that no other overlaps. -/
theorem target_while_held (d : Diagram α γ) {operations : List (Operation α)}
    (hcontinues : d.Throughout Continues operations)
    (hheld : heldAfter d.source [] operations ≠ []) :
    let target := (d.run operations).simulation.cooling.target
    (target = if (turns d.source operations).getLast?.any Turn.isTaking then Cooling.warmTarget
      else Scalar.zero) ∧
    (Orderly d.source [] operations →
      (∀ first ∈ operations.inits, (heldAfter d.source [] first).length ≤ 1) →
      target = Cooling.warmTarget) := by
  intro target
  refine ⟨?_, fun horderly halone =>
    target_of_alone hcontinues horderly halone (absurd rfl) hheld⟩
  have hlast := List.getLast?_eq_some_getLast (turns_ne_nil_of_heldAfter hheld)
  have hrun : target = _ := target_run hcontinues
  rw [hrun, hlast]
  rfl

def otherUnit : SourceUnit := { id := "src/util.ts", name := "util.ts", path := "src/util.ts" }

/-- The diagram of two units under the settings of an empty environment. -/
def pair : Diagram Float Twister :=
  created ({} : Settings).diagramOptions [loneUnit, otherUnit] 800 600 .both (Twister.ofSeed 0)

private theorem create_pair :
    create ({} : Settings).diagramOptions [loneUnit, otherUnit] none none .both
      (Twister.ofSeed 0) = .ok pair :=
  create_eq_ok_iff.2 ⟨⟨by decide +kernel, by decide +kernel⟩, rfl⟩

/-- One unit is held while another is dragged. -/
def overlappingDrags : List (Operation Float) :=
  [.dragStart loneUnit.id, .dragStart otherUnit.id, .dragMove otherUnit.id 30 40,
    .dragEnd otherUnit.id]

theorem overlapped_drag_left_cold :
    create ({} : Settings).diagramOptions [loneUnit, otherUnit] none none .both
      (Twister.ofSeed 0) = .ok pair ∧
    (pair.source.map SourceUnit.id).Nodup ∧ pair.Throughout Continues overlappingDrags ∧
    Orderly pair.source [] overlappingDrags ∧
    heldAfter pair.source [] overlappingDrags = [loneUnit.id] ∧
    (pair.run overlappingDrags).simulation.cooling.target ≠ Cooling.warmTarget := by
  refine ⟨create_pair, by decide, ?_, by decide, by decide, ?_⟩
  · decide +kernel
  · decide +kernel

/-- It is warm again as soon as the other one is taken up once more. -/
theorem overlapped_drag_warm_again :
    let again := overlappingDrags ++ [.dragStart otherUnit.id, .step 1, .pan 5 6]
    pair.Throughout Continues again ∧ heldAfter pair.source [] again ≠ [] ∧
      (pair.run again).simulation.cooling.target = Cooling.warmTarget := by
  intro again
  have hcontinues : pair.Throughout Continues again := by decide +kernel
  have hheld : heldAfter pair.source [] again ≠ [] := by decide
  exact ⟨hcontinues, hheld, (target_while_held pair hcontinues hheld).1⟩

end Diagram

end CodeAtlas
