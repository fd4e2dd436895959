import CodeAtlas.Proofs.Diagram.Drag
import CodeAtlas.Proofs.Diagram.Restart
import CodeAtlas.Proofs.Diagram.Scene

/-! What holds the units of a diagram. A unit is held from the last drag that took hold of it to the
next that lets it go, and every tick that comes to its end leaves it where it is held. A tick that
divides by zero has moved all bodies by then, and puts no unit back. -/
namespace CodeAtlas.Diagram

open Layout

variable {α γ : Type} {d e : Diagram α γ} {op : Operation α} {operations : List (Operation α)}
  {id other : String} {i j : Nat}

theorem exists_of_indexOf? (h : d.indexOf? id = some i) :
    ∃ u, d.source[i]? = some u ∧ u.id = id := by
  obtain ⟨⟨u, n⟩, hlast, rfl⟩ := Option.map_eq_some_iff.1 h
  obtain ⟨hmem, hid⟩ := List.mem_filter.1 (List.mem_of_getLast? hlast)
  exact ⟨u, List.mem_zipIdx_iff_getElem?.1 hmem, beq_iff_eq.1 hid⟩

private theorem id_eq_of_indexOf? (h : d.indexOf? id = some i) (h' : d.indexOf? other = some i) :
    id = other := by
  obtain ⟨u, hu, rfl⟩ := exists_of_indexOf? h
  obtain ⟨v, hv, rfl⟩ := exists_of_indexOf? h'
  rw [Option.some.inj (hu.symm.trans hv)]

private theorem indexOf?_of_nodup (hids : (d.source.map SourceUnit.id).Nodup) {u : SourceUnit}
    (hu : d.source[i]? = some u) : d.indexOf? u.id = some i := by
  obtain ⟨j, hj⟩ : ∃ j, d.indexOf? u.id = some j := by
    rw [← Option.isSome_iff_exists, isSome_indexOf?]
    exact List.any_eq_true.2 ⟨u, List.mem_of_getElem? hu, beq_iff_eq.2 rfl⟩
  obtain ⟨v, hv, hid⟩ := exists_of_indexOf? hj
  have hplace (k : Nat) (w : SourceUnit) (hw : d.source[k]? = some w) :
      (d.source.map SourceUnit.id)[k]? = some w.id := by
    rw [List.getElem?_map, hw]
    rfl
  have hi : i < (d.source.map SourceUnit.id).length := by
    rw [List.length_map]
    exact (List.getElem?_eq_some_iff.1 hu).1
  rw [hj, (List.getElem?_inj hi hids).1 ((hplace i u hu).trans (hid ▸ (hplace j v hv).symm))]

theorem getElem?_modify_of_ne (f : Body α → Body α) (hi : d.indexOf? id = some i)
    (hj : d.indexOf? other = some j) (hne : other ≠ id) :
    (d.simulation.bodies.modify j f)[i]? = d.simulation.bodies[i]? :=
  List.getElem?_modify_ne _ _ fun hji => hne (id_eq_of_indexOf? (hji ▸ hj) hi)

/-- Whether an operation takes hold of the unit with an id or lets it go. One that does neither
leaves the unit in the hold that it was in. -/
def grip? (id : String) : Operation α → Option Bool
  | .dragStart other | .dragMove other _ _ => if other = id then some true else none
  | .dragEnd other => if other = id then some false else none
  | _ => none

variable [Scalar α] [Generator γ]

theorem map_hold_step :
    d.step.1.simulation.bodies.map Body.hold = d.simulation.bodies.map Body.hold := by
  rcases simulation_step (d := d) with h | h
  · rw [h]
  · rw [h, Simulation.map_hold_tick]

theorem Ticked.map_hold {clean : Prop} (h : Ticked clean d e) :
    e.simulation.bodies.map Body.hold = d.simulation.bodies.map Body.hold :=
  h.same (·.simulation.bodies.map Body.hold) (fun _ => map_hold_step) fun _ _ => rfl

theorem hold_apply (hi : d.indexOf? id = some i) (hcontinues : d.Continues op)
    (hgrip : grip? id op = none) : ((d.apply op).1.simulation.bodies[i]?).map Body.hold =
      (d.simulation.bodies[i]?).map Body.hold := by
  generalize hnext : (d.apply op).1 = next
  cases hnext ▸ effect_apply (d := d) op with
  | ticked hticked => rw [← List.getElem?_map, ← List.getElem?_map, hticked.map_hold]
  | restarted hrestart loops => rw [hcontinues] at hrestart; cases hrestart
  | held hj loops =>
    exact congrArg _ (getElem?_modify_of_ne _ hi hj fun hid => by simp [grip?, hid] at hgrip)
  | moved hj fx fy =>
    exact congrArg _ (getElem?_modify_of_ne _ hi hj fun hid => by simp [grip?, hid] at hgrip)
  | released hj =>
    exact congrArg _ (getElem?_modify_of_ne _ hi hj fun hid => by simp [grip?, hid] at hgrip)
  | viewed viewport => rfl

theorem getElem?_dragStart (hi : d.indexOf? id = some i) :
    (d.apply (.dragStart id)).1.simulation.bodies[i]? =
      (d.simulation.bodies[i]?).map fun b => { b with fx := some b.x, fy := some b.y } := by
  simp only [apply, replying, dragStart, withUnit, hi]
  exact List.getElem?_modify_eq _ _ _

private theorem grip_apply {held : Bool} (hi : d.indexOf? id = some i)
    (hgrip : grip? id op = some held) :
    ((d.apply op).1.simulation.bodies[i]?).map Body.pinned =
      (d.simulation.bodies[i]?).map fun _ => held := by
  cases op with
  | dragStart other =>
    obtain ⟨rfl, rfl⟩ : other = id ∧ true = held := by simpa [grip?] using hgrip
    rw [getElem?_dragStart hi, Option.map_map]
    rfl
  | dragMove other x y =>
    obtain ⟨rfl, rfl⟩ : other = id ∧ true = held := by simpa [grip?] using hgrip
    simp only [apply, replying, dragMove, withUnit, hi]
    rw [Simulation.modify, List.getElem?_modify_eq, Option.map_eq_map, Option.map_map]
    rfl
  | dragEnd other =>
    obtain ⟨rfl, rfl⟩ : other = id ∧ false = held := by simpa [grip?] using hgrip
    simp only [apply, replying, dragEnd, withUnit, hi]
    rw [Simulation.cool, Simulation.modify, List.getElem?_modify_eq, Option.map_eq_map,
      Option.map_map]
    rfl
  | _ => cases hgrip

private theorem exists_of_apply (hi : d.indexOf? id = some i) (hcontinues : d.Continues op)
    {b : Body α} (hb : (d.apply op).1.simulation.bodies[i]? = some b) :
    ∃ c, d.simulation.bodies[i]? = some c ∧ b.pinned = (grip? id op).getD c.pinned := by
  cases hgrip : grip? id op with
  | none =>
    have hhold := hold_apply hi hcontinues hgrip
    rw [hb] at hhold
    obtain ⟨c, hc, hsame⟩ := Option.map_eq_some_iff.1 hhold.symm
    exact ⟨c, hc, congrArg (·.1.isSome) hsame.symm⟩
  | some held =>
    have hpinned := grip_apply hi hgrip
    rw [hb] at hpinned
    obtain ⟨c, hc, hheld⟩ := Option.map_eq_some_iff.1 hpinned.symm
    exact ⟨c, hc, hheld.symm⟩

omit [Scalar α] [Generator γ] in
private theorem continues_of_grip? {held : Bool} (hgrip : grip? id op = some held) :
    d.Continues op := by
  cases op with
  | dragStart other => rfl
  | dragMove other x y => rfl
  | dragEnd other => rfl
  | _ => cases hgrip

def Paired (d : Diagram α γ) : Prop :=
  ∀ b ∈ d.simulation.bodies, b.fx.isSome = b.fy.isSome

omit [Generator γ] in
theorem hold_rebuild : ∀ b ∈ d.rebuild.simulation.bodies, b.hold = (none, none) := by
  intro b hb
  obtain ⟨i, hi, rfl⟩ := List.mem_mapIdx.1 hb
  rw [Body.hold_place]
  simp [bodiesOf, Body.hold]

omit [Generator γ] in
private theorem hold_create {options : DiagramOptions α} {units : List SourceUnit}
    {width height : Option Int} {mode : ViewMode} {seed : γ}
    (h : create options units width height mode seed = .ok d) :
    ∀ b ∈ d.simulation.bodies, b.hold = (none, none) := by
  obtain ⟨-, rfl⟩ := create_eq_ok_iff.1 h
  exact hold_rebuild (d := created options units _ _ mode seed)

omit [Scalar α] [Generator γ] in
theorem paired_of_hold (h : ∀ b ∈ d.simulation.bodies, b.hold = (none, none)) : Paired d := by
  intro b hb
  obtain ⟨hx, hy⟩ := Prod.mk.inj (h b hb)
  rw [hx, hy]

theorem Paired.apply (h : Paired d) (op : Operation α) : Paired (d.apply op).1 := by
  generalize hnext : (d.apply op).1 = next
  cases hnext ▸ effect_apply (d := d) op with
  | ticked hticked =>
    have hpair : ∀ hold ∈ d.simulation.bodies.map Body.hold, hold.1.isSome = hold.2.isSome :=
      List.forall_mem_map.2 h
    rw [← hticked.map_hold] at hpair
    exact List.forall_mem_map.1 hpair
  | restarted hrestart loops => exact paired_of_hold hold_rebuild
  | held hi loops => exact forall_mem_modify h fun _ => rfl
  | moved hi fx fy => exact forall_mem_modify h fun _ => rfl
  | released hi => exact forall_mem_modify h fun _ => rfl
  | viewed viewport => exact h

theorem Paired.run (h : Paired d) (operations : List (Operation α)) :
    Paired (d.run operations) := by
  induction operations generalizing d with
  | nil => exact h
  | cons op rest ih => exact ih (h.apply op)

/-- Some operation has taken hold of the unit with an id; none has let it go since, nor has the
layout begun again. -/
def HeldSince (d : Diagram α γ) (operations : List (Operation α)) (id : String) : Prop :=
  ∃ before op after, operations = before ++ op :: after ∧ grip? id op = some true ∧
    (∀ later ∈ after, grip? id later ≠ some false) ∧
    (d.run (before ++ [op])).Throughout Continues after

private theorem heldSince_concat : d.HeldSince (operations ++ [op]) id ↔ grip? id op = some true ∨
    d.HeldSince operations id ∧ grip? id op ≠ some false ∧ (d.run operations).Continues op := by
  constructor
  · rintro ⟨before, taking, after, hsplit, htaking, hafter, hcontinues⟩
    induction after using List.reverseRecOn with
    | nil =>
      obtain ⟨-, hop⟩ := List.append_inj' hsplit rfl
      obtain rfl := List.singleton_inj.1 hop
      exact .inl htaking
    | append_singleton after last =>
      rw [← List.cons_append, ← List.append_assoc] at hsplit
      obtain ⟨rfl, hop⟩ := List.append_inj' hsplit rfl
      obtain rfl := List.singleton_inj.1 hop
      obtain ⟨hfirst, hlast, -⟩ := throughout_append.1 hcontinues
      rw [← run_append, List.append_assoc] at hlast
      exact .inr ⟨⟨before, taking, after, rfl, htaking,
        fun later hlater => hafter later (List.mem_append_left _ hlater), hfirst⟩,
        hafter _ (List.mem_append_right _ (List.mem_singleton_self _)), hlast⟩
  · rintro (htaking | ⟨⟨before, taking, after, rfl, htaking, hafter, hcontinues⟩, hgrip, hlast⟩)
    · exact ⟨operations, op, [], rfl, htaking, fun _ h => absurd h List.not_mem_nil, trivial⟩
    · refine ⟨before, taking, after ++ [op], by simp, htaking, fun later hlater => ?_,
        throughout_append.2 ⟨hcontinues, ?_, trivial⟩⟩
      · rcases List.mem_append.1 hlater with hlater | hlater
        · exact hafter later hlater
        · rwa [List.mem_singleton.1 hlater]
      · rwa [← run_append, List.append_assoc]

private theorem pinned_run_iff (hfree : ∀ b ∈ d.simulation.bodies, b.hold = (none, none))
    (hids : ((d.run operations).source.map SourceUnit.id).Nodup) {u : SourceUnit} {b : Body α}
    (hu : (d.run operations).source[i]? = some u)
    (hb : (d.run operations).simulation.bodies[i]? = some b) :
    b.pinned = true ↔ d.HeldSince operations u.id := by
  have hloose {b : Body α} (hb : b.hold = (none, none)) : ¬ b.pinned = true := by
    rw [Body.pinned, (Prod.mk.inj hb).1]
    exact Bool.false_ne_true
  induction operations using List.reverseRecOn generalizing b with
  | nil =>
    refine iff_of_false (hloose (hfree b (List.mem_of_getElem? hb))) ?_
    rintro ⟨before, op, after, hsplit, -⟩
    exact List.append_ne_nil_of_right_ne_nil _ (List.cons_ne_nil _ _) hsplit.symm
  | append_singleton operations op ih =>
    have hrun : d.run (operations ++ [op]) = ((d.run operations).apply op).1 := run_append _ _
    rw [heldSince_concat]
    rw [hrun] at hids hu hb
    cases hrestart : (d.run operations).restartOf? op with
    | none =>
      have hcontinues : (d.run operations).Continues op := hrestart
      rw [source_apply hcontinues] at hids hu
      obtain ⟨c, hc, hpinned⟩ := exists_of_apply (indexOf?_of_nodup hids hu) hcontinues hb
      have hbefore := ih hids hu hc
      rw [hpinned]
      cases hgrip : grip? u.id op with
      | none => simpa [hcontinues] using hbefore
      | some held => cases held <;> simp
    | some restart =>
      have hcontinues : ¬ (d.run operations).Continues op := by
        rw [Continues, hrestart]
        exact Option.some_ne_none _
      rw [apply_of_restartOf? hrestart] at hb
      refine iff_of_false (hloose (hold_rebuild b (List.mem_of_getElem? hb))) ?_
      rintro (htaking | ⟨-, -, h⟩)
      · exact hcontinues (continues_of_grip? htaking)
      · exact hcontinues h

theorem seated_step (h : d.step.1.simulation.ticks ≠ d.simulation.ticks) :
    ∀ b ∈ d.step.1.simulation.bodies, b.Seated := by
  generalize hstep : d.step = result at h
  cases hstep ▸ stepped_step (d := d) with
  | settled phase => exact absurd rfl h
  | emptied phase units => exact absurd rfl h
  | stalled phase units tick =>
    have hticks := d.simulation.ticks_tick
    rw [tick] at hticks
    exact absurd hticks h
  | ticked phase units tick => exact Simulation.seated_of_tick tick

/-- A body is held at a point and lies there. -/
def Rests (d : Diagram α γ) (i : Nat) (x y : α) : Prop :=
  ∃ b, d.simulation.bodies[i]? = some b ∧ b.hold = (some x, some y) ∧ b.x = x ∧ b.y = y

/-- Does not begin the layout again, and neither moves the unit with an id nor lets it go. -/
def LeavesInHand (id : String) (d : Diagram α γ) (op : Operation α) : Prop :=
  d.Continues op ∧ op ≠ .dragEnd id ∧ ∀ x y, op ≠ .dragMove id x y

variable {x y : α}

omit [Generator γ] in
theorem rests_of_seated (hseated : ∀ b ∈ d.simulation.bodies, b.Seated)
    (hhold : (d.simulation.bodies[i]?).map Body.hold = some (some x, some y)) : Rests d i x y := by
  obtain ⟨b, hb, hheld⟩ := Option.map_eq_some_iff.1 hhold
  obtain ⟨hx, hy, -, -⟩ := hseated b (List.mem_of_getElem? hb) x y hheld
  exact ⟨b, hb, hheld, hx, hy⟩

theorem hold_step :
    (d.step.1.simulation.bodies[i]?).map Body.hold = (d.simulation.bodies[i]?).map Body.hold := by
  rw [← List.getElem?_map, ← List.getElem?_map, map_hold_step]

theorem Rests.step (h : Rests d i x y) (hclean : d.step.2 ≠ .error .divisionByZero) :
    Rests d.step.1 i x y := by
  have hhold : (d.step.1.simulation.bodies[i]?).map Body.hold = some (some x, some y) := by
    obtain ⟨b, hb, hheld, -⟩ := h
    rw [hold_step, hb, Option.map_some, hheld]
  generalize hstep : d.step = result at hclean hhold
  cases hstep ▸ stepped_step (d := d) with
  | settled phase => exact h
  | emptied phase units => exact h
  | stalled phase units tick => exact absurd rfl hclean
  | ticked phase units tick => exact rests_of_seated (Simulation.seated_of_tick tick) hhold

theorem Rests.of_ticked {clean : Prop} (hclean : clean) (hticked : Ticked clean d e)
    (h : Rests d i x y) : Rests e i x y := by
  induction hticked with
  | refl d => exact h
  | step hstep rest ih => exact ih (h.step (hstep hclean))
  | loops l rest ih => exact ih h

omit [Scalar α] [Generator γ] in
theorem Rests.of_eq (h : Rests d i x y)
    (hsame : e.simulation.bodies[i]? = d.simulation.bodies[i]?) : Rests e i x y := by
  rwa [Rests, hsame]

theorem Rests.apply (h : Rests d i x y) (hi : d.indexOf? id = some i)
    (hhand : LeavesInHand id d op) (hclean : d.TicksCleanly op) : Rests (d.apply op).1 i x y := by
  obtain ⟨hcontinues, hend, hmove⟩ := hhand
  generalize hnext : (d.apply op).1 = next
  cases hnext ▸ effect_apply (d := d) op with
  | ticked hticked => exact h.of_ticked hclean hticked
  | restarted hrestart loops => rw [hcontinues] at hrestart; cases hrestart
  | @held other j hj loops =>
    by_cases hid : other = id
    · -- A unit that rests where it is held is taken hold of at the same place.
      obtain rfl : i = j := Option.some.inj (hi.symm.trans (hid ▸ hj))
      obtain ⟨b, hb, -, rfl, rfl⟩ := h
      refine ⟨{ b with fx := some b.x, fy := some b.y }, ?_, rfl, rfl, rfl⟩
      rw [Simulation.reheat, Simulation.modify, List.getElem?_modify_eq, hb]
      rfl
    · exact h.of_eq (getElem?_modify_of_ne _ hi hj hid)
  | moved hj fx fy =>
    exact h.of_eq (getElem?_modify_of_ne _ hi hj fun hid => hmove _ _ (by rw [hid]))
  | released hj =>
    exact h.of_eq (getElem?_modify_of_ne _ hi hj fun hid => hend (by rw [hid]))
  | viewed viewport => exact h

theorem indexOf?_apply (h : d.Continues op) : (d.apply op).1.indexOf? id = d.indexOf? id := by
  rw [indexOf?, indexOf?, source_apply h]

theorem Rests.run (h : Rests d i x y) (hi : d.indexOf? id = some i)
    (hhand : d.Throughout (LeavesInHand id) operations)
    (hclean : d.Throughout TicksCleanly operations) : Rests (d.run operations) i x y := by
  induction operations generalizing d with
  | nil => exact h
  | cons op rest ih =>
    exact ih (h.apply hi hhand.1 hclean.1) ((indexOf?_apply hhand.1.1).trans hi) hhand.2 hclean.2

private theorem hold_run (hi : d.indexOf? id = some i)
    (hhand : d.Throughout (LeavesInHand id) operations)
    (hstart : ∀ op ∈ operations, op ≠ .dragStart id) :
    ((d.run operations).simulation.bodies[i]?).map Body.hold =
      (d.simulation.bodies[i]?).map Body.hold := by
  induction operations generalizing d with
  | nil => rfl
  | cons op rest ih =>
    obtain ⟨⟨hcontinues, hend, hmove⟩, hrest⟩ := hhand
    have hgrip : grip? id op = none := by
      have hthis := hstart op List.mem_cons_self
      cases op with
      | dragStart other => exact if_neg fun hid : other = id => hthis (by rw [hid])
      | dragMove other x y => exact if_neg fun hid : other = id => hmove x y (by rw [hid])
      | dragEnd other => exact if_neg fun hid : other = id => hend (by rw [hid])
      | _ => rfl
    have hlater := ih ((indexOf?_apply hcontinues).trans hi) hrest
      fun op hop => hstart op (List.mem_cons_of_mem _ hop)
    exact hlater.trans (hold_apply hi hcontinues hgrip)

/-- A body is always held in both coordinates or in none. Among units with distinct ids, a unit is
held exactly if it has been taken since the layout began and not let go since. Every tick that comes
to its end leaves all held bodies at rest where they are held. From the beginning of a drag until
the unit is moved, let go or its layout begun again, it lies where it was as long as no tick divides
by zero. If one does, the unit is still held there until another drag of it begins, and lies there
again after the next tick that comes to its end. -/
theorem held_in_place {options : DiagramOptions α} {units : List SourceUnit}
    {width height : Option Int} {mode : ViewMode} {seed : γ}
    (hcreate : create options units width height mode seed = .ok d)
    (operations : List (Operation α)) :
    let now := d.run operations
    (∀ b ∈ now.simulation.bodies, b.fx.isSome = b.fy.isSome) ∧
    ((now.source.map SourceUnit.id).Nodup → List.Forall₂ (fun u b =>
      b.pinned = true ↔ d.HeldSince operations u.id) now.source now.simulation.bodies) ∧
    (now.step.1.simulation.ticks ≠ now.simulation.ticks →
      ∀ b ∈ now.step.1.simulation.bodies, b.Seated) ∧
    ∀ id i, now.indexOf? id = some i → ∃ b, now.simulation.bodies[i]? = some b ∧
      let held := (now.apply (.dragStart id)).1
      ∀ later, held.Throughout (LeavesInHand id) later →
        let last := held.run later
        (held.Throughout TicksCleanly later → last.Rests i b.x b.y) ∧
        ((∀ op ∈ later, op ≠ .dragStart id) →
          (last.simulation.bodies[i]?).map Body.hold = some (some b.x, some b.y) ∧
          (last.step.1.simulation.ticks ≠ last.simulation.ticks →
            last.step.1.Rests i b.x b.y)) := by
  intro now
  have hfree := hold_create hcreate
  have hfitted : now.Fitted := (fitted_create hcreate).run operations
  refine ⟨(paired_of_hold hfree).run operations, fun hids => ?_, seated_step, fun id i hi => ?_⟩
  · refine List.forall₂_iff_get.2 ⟨hfitted.bodies.symm, fun i hi hi' => ?_⟩
    exact pinned_run_iff hfree hids (List.getElem?_eq_getElem hi) (List.getElem?_eq_getElem hi')
  · obtain ⟨u, hu, -⟩ := exists_of_indexOf? hi
    obtain ⟨b, hb, -⟩ := hfitted.exists_node hu
    refine ⟨b, hb, ?_⟩
    intro held later hhand last
    have hcontinues : now.Continues (.dragStart id) := rfl
    have hindex : held.indexOf? id = some i := (indexOf?_apply hcontinues).trans hi
    have htaken : held.simulation.bodies[i]? = some { b with fx := some b.x, fy := some b.y } := by
      rw [getElem?_dragStart hi, hb]
      rfl
    refine ⟨fun hclean => Rests.run ⟨_, htaken, rfl, rfl, rfl⟩ hindex hhand hclean,
      fun hstart => ?_⟩
    have hhold : (last.simulation.bodies[i]?).map Body.hold = some (some b.x, some b.y) := by
      rw [hold_run hindex hhand hstart, htaken]
      rfl
    exact ⟨hhold, fun hticks => rests_of_seated (seated_step hticks) (hold_step.trans hhold)⟩

/-- The unit that is taken in hand stays where it was while the layout is ticked and viewed. -/
theorem lone_stays_in_hand :
    let held := ((lone.run [.step 2, .pan 5 6]).apply (.dragStart loneUnit.id)).1
    let later : List (Operation Float) := [.step 3, .zoom 2 none none, .step 1]
    held.Throughout (LeavesInHand loneUnit.id) later ∧ held.Throughout TicksCleanly later ∧
      ∃ b, (lone.run [.step 2, .pan 5 6]).simulation.bodies[0]? = some b ∧
        (held.run later).Rests 0 b.x b.y := by
  intro held later
  have hhand : held.Throughout (LeavesInHand loneUnit.id) later :=
    ⟨⟨rfl, nofun, nofun⟩, ⟨rfl, nofun, nofun⟩, ⟨rfl, nofun, nofun⟩, trivial⟩
  have hclean : held.Throughout TicksCleanly later := by decide +kernel
  obtain ⟨-, -, -, hstay⟩ := held_in_place create_lone [.step 2, .pan 5 6]
  obtain ⟨b, hb, hlater⟩ := hstay loneUnit.id 0 (by decide +kernel)
  exact ⟨hhand, hclean, b, hb, (hlater later hhand).1 hclean⟩

structure Rough where
  value : Float

instance : Scalar Rough where
  add a b := ⟨a.value + b.value⟩
  sub a b := ⟨a.value - b.value⟩
  mul a b := ⟨a.value * b.value⟩
  neg a := ⟨-a.value⟩
  div a b := ⟨a.value / b.value⟩
  zero := ⟨Scalar.zero⟩
  one := ⟨Scalar.one⟩
  half := ⟨Scalar.half⟩
  ofRatio num den := ⟨Scalar.ofRatio num den⟩
  finite a := Scalar.finite a.value
  less a b := Scalar.less a.value b.value
  same a b := Scalar.same a.value b.value
  sqrt a := ⟨Scalar.sqrt a.value⟩
  cos _ := ⟨Scalar.one⟩
  sin a := a

structure Constant where
  number : Nat

instance : Generator Constant where
  draw g := (g.number, g)

/-- Units hardly attract each other. -/
def weakly : DiagramOptions Rough where
  width := 800
  height := 600
  distance := Scalar.ofNat 120
  charge := Scalar.ofRatio 1 (10 ^ 200)
  radius := Scalar.ofNat 30
  tickLimit := 1000

def weakPair : Diagram Rough Constant :=
  created weakly [loneUnit, otherUnit] 800 600 .both ⟨0⟩

/-- Both units are held at one point. -/
def stacking : List (Operation Rough) :=
  [.dragMove loneUnit.id (Scalar.ofNat 100) (Scalar.ofNat 100),
    .dragMove otherUnit.id (Scalar.ofNat 100) (Scalar.ofNat 100), .step 1]

/-- The two speeds differ by so little that the square of the difference is zero. The bodies have
been moved to the centre by then, and both stay there, held as they are. -/
theorem held_bodies_displaced :
    let now := weakPair.run stacking
    let held := (now.apply (.dragStart loneUnit.id)).1
    let next := (held.apply (.step 1)).1
    create weakly [loneUnit, otherUnit] none none .both ⟨0⟩ = .ok weakPair ∧
    (now.source.map SourceUnit.id).Nodup ∧ LeavesInHand loneUnit.id held (.step 1) ∧
    ¬ held.TicksCleanly (.step 1) ∧ next.simulation.bodies.map Body.pinned = [true, true] ∧
    now.simulation.bodies.map (fun b => Scalar.same b.x (Scalar.ofNat 100)) = [true, true] ∧
    next.simulation.bodies.map (fun b => Scalar.same b.x (Scalar.ofNat 400)) = [true, true] := by
  have hcreate : create weakly [loneUnit, otherUnit] none none .both ⟨0⟩ = .ok weakPair :=
    create_eq_ok_iff.2 ⟨⟨by decide +kernel, by decide +kernel⟩, rfl⟩
  refine ⟨hcreate, by decide +kernel, ⟨rfl, nofun, nofun⟩, ?_, ?_, ?_, ?_⟩
  · decide +kernel
  · decide +kernel
  · decide +kernel
  · decide +kernel

end CodeAtlas.Diagram
