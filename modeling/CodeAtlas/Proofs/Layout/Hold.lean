import CodeAtlas.Layout.Simulation
import Mathlib.Data.List.Induction

/-! What holds the bodies of a layout. A tick changes places and speeds, but not where bodies are
held; and since bodies are moved after all forces have acted, a whole tick leaves every held body at
rest where it is held, whatever the forces were. -/
namespace CodeAtlas.Layout

variable {α γ : Type}

theorem map_modify_of_eq {β δ : Type} {f : β → δ} {g : β → β} (hg : ∀ b, f (g b) = f b) (i : Nat)
    (l : List β) : (l.modify i g).map f = l.map f := by
  induction l generalizing i with
  | nil => rw [List.modify_nil]
  | cons b rest ih =>
    cases i with
    | zero => rw [List.modify_zero_cons, List.map_cons, List.map_cons, hg]
    | succ i => rw [List.modify_succ_cons, List.map_cons, List.map_cons, ih]

theorem forall_mem_modify {β : Type} {P : β → Prop} {g : β → β} {i : Nat} {l : List β}
    (hl : ∀ b ∈ l, P b) (hg : ∀ b, P (g b)) : ∀ b ∈ l.modify i g, P b := by
  intro b hb
  obtain ⟨j, hj⟩ := List.mem_iff_getElem?.1 hb
  rw [List.getElem?_modify] at hj
  obtain ⟨a, ha, rfl⟩ := Option.map_eq_some_iff.1 hj
  split
  · exact hg a
  · exact hl a (List.mem_of_getElem? ha)

/-- Where a body is held. -/
def Body.hold (b : Body α) : Option α × Option α := (b.fx, b.fy)

/-- At rest where it is held, if it is held. -/
def Body.Seated [Scalar α] (b : Body α) : Prop :=
  ∀ x y, b.hold = (some x, some y) →
    b.x = x ∧ b.y = y ∧ b.vx = Scalar.zero ∧ b.vy = Scalar.zero

variable [Scalar α]

@[simp] theorem Body.hold_move (keep : α) (b : Body α) : (b.move keep).hold = b.hold := rfl

@[simp] theorem Body.hold_place (i : Nat) (b : Body α) : (b.place i).hold = b.hold := by
  unfold place
  dsimp only
  split <;> rfl

private theorem Body.seated_move (keep : α) (b : Body α) : (b.move keep).Seated := by
  intro x y hhold
  rw [hold_move, hold, Prod.mk.injEq] at hhold
  obtain ⟨hx, hy⟩ := hhold
  simp only [move, hx, hy, and_self]

/-- What forces leave as it is: they change speeds alone, by a push or by a pull. -/
structure Body.Unpushed {δ : Type} (f : Body α → δ) : Prop where
  push (b : Body α) (dx dy : α) : f (b.push dx dy) = f b
  pull (b : Body α) (dx dy : α) : f (b.pull dx dy) = f b

theorem Body.unpushed_hold : Unpushed (hold : Body α → Option α × Option α) where
  push _ _ _ := rfl
  pull _ _ _ := rfl

namespace Body.Unpushed

variable [Generator γ] {δ : Type} {f : Body α → δ} (hf : Unpushed f)

include hf

private theorem map_act (alpha distance : α) (s : Spring α) (swept : Swept (List (Body α)) γ) :
    (s.act alpha distance swept).value.map f = swept.value.map f := by
  unfold Spring.act
  split
  · rfl
  · split
    · dsimp only
      split
      · rfl
      · dsimp only
        rw [map_modify_of_eq fun b => hf.push b _ _, map_modify_of_eq fun b => hf.pull b _ _]
    · rfl

theorem map_actAll (alpha distance : α) (all : List (Spring α)) (bodies : List (Body α))
    (generator : γ) :
    (Spring.actAll alpha distance all bodies generator).value.map f = bodies.map f := by
  unfold Spring.actAll
  induction all using List.reverseRecOn with
  | nil => rfl
  | append_singleton all s ih =>
    rw [List.foldl_append, List.foldl_cons, List.foldl_nil, hf.map_act, ih]

theorem repelOne (charge : α) (b : Body α) (others : List (Body α)) (g : γ) :
    f (Layout.repelOne charge b others g).value = f b := by
  fun_induction Layout.repelOne charge b others g with
  | case1 => rfl
  | case2 => rfl
  | case3 => rwa [hf.push] at *

theorem map_repelFrom (charge : α) (done rest : List (Body α)) (g : γ) :
    (repelFrom charge done rest g).value.map f = (done ++ rest).map f := by
  fun_induction repelFrom charge done rest g with
  | case1 => rw [List.append_nil]
  | case2 done b rest g swept stalled =>
    simp [swept, hf.repelOne]
  | case3 done b rest g swept stalled ih =>
    rw [ih]
    simp [swept, hf.repelOne]

theorem collideOne (reach x y : α) (b : Body α) (others : List (Body α)) (g : γ) :
    let swept := Layout.collideOne reach x y b others g
    f swept.value.1 = f b ∧ swept.value.2.map f = others.map f := by
  fun_induction Layout.collideOne reach x y b others g <;> simp_all +zetaDelta [hf.push, hf.pull]

private theorem map_collideAll (reach : α) (bodies : List (Body α)) (g : γ) :
    (collideAll reach bodies g).value.map f = bodies.map f := by
  fun_induction collideAll reach bodies g with
  | case1 => rfl
  | case2 b rest g swept stalled =>
    obtain ⟨hfirst, hothers⟩ := hf.collideOne reach (b.x + b.vx) (b.y + b.vy) b rest g
    rw [List.map_cons, List.map_cons, hfirst, hothers]
  | case3 b rest g swept stalled tail ih =>
    obtain ⟨hfirst, hothers⟩ := hf.collideOne reach (b.x + b.vx) (b.y + b.vy) b rest g
    rw [List.map_cons, List.map_cons, ih, hfirst, hothers]

theorem map_collide (radius : α) (bodies : List (Body α)) (g : γ) :
    (collide radius bodies g).value.map f = bodies.map f := by
  unfold collide
  split
  · rfl
  · exact hf.map_collideAll _ bodies g

end Body.Unpushed

variable [Generator γ]

namespace Simulation

theorem map_hold_forces (s : Simulation α γ) (alpha : α) :
    (s.forces alpha).value.map Body.hold = s.bodies.map Body.hold := by
  have hpulled :=
    Body.unpushed_hold.map_actAll alpha s.physics.distance s.springs s.bodies s.generator
  have hrepelled (bodies : List (Body α)) (g : γ) :=
    Body.unpushed_hold.map_repelFrom (s.physics.charge * alpha) [] bodies g
  have hcentred (cx cy : α) (bodies : List (Body α)) :
      (recentre cx cy bodies).map Body.hold = bodies.map Body.hold := by
    unfold recentre
    split
    · rfl
    · simp only [List.map_map]
      rfl
  unfold forces
  dsimp only
  split
  · exact hpulled
  · split
    · exact (hrepelled _ _).trans hpulled
    · rw [Body.unpushed_hold.map_collide, hcentred]
      exact (hrepelled _ _).trans hpulled

theorem map_hold_tick (s : Simulation α γ) : s.tick.1.bodies.map Body.hold =
    s.bodies.map Body.hold := by
  unfold tick
  dsimp only
  split
  · exact map_hold_forces s _
  · rw [List.map_map]
    exact map_hold_forces s _

@[simp] theorem length_bodies_tick (s : Simulation α γ) :
    s.tick.1.bodies.length = s.bodies.length := by
  simpa using congrArg List.length s.map_hold_tick

@[simp] theorem cooling_tick (s : Simulation α γ) : s.tick.1.cooling = s.cooling.tick := by
  unfold tick
  dsimp only
  split <;> rfl

theorem physics_tick (s : Simulation α γ) : s.tick.1.physics = s.physics := by
  unfold tick
  dsimp only
  split <;> rfl

theorem springs_tick (s : Simulation α γ) : s.tick.1.springs = s.springs := by
  unfold tick
  dsimp only
  split <;> rfl

theorem ticks_tick (s : Simulation α γ) :
    s.tick.1.ticks = if s.tick.2 then s.ticks else s.ticks + 1 := by
  unfold tick
  dsimp only
  split <;> rfl

theorem seated_of_tick {s next : Simulation α γ} (h : s.tick = (next, false)) :
    ∀ b ∈ next.bodies, b.Seated := by
  unfold tick at h
  dsimp only at h
  split at h
  · cases h
  · cases h
    intro b hb
    obtain ⟨before, -, rfl⟩ := List.mem_map.1 hb
    exact Body.seated_move _ before

end Simulation

end CodeAtlas.Layout
