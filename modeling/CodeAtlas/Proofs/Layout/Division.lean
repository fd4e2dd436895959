import Mathlib
import CodeAtlas.Proofs.Layout.Divisors
import CodeAtlas.Proofs.Layout.Hold

/-! Layouts in which nothing is divided by zero. All forces divide by a distance, and put a random
number near zero in the place of a difference of zero; so if the random numbers are not zero, and
the root of a positive number is positive, all divisors are positive and every tick comes to its
end. Only the numbers that a tick can draw matter: two for each spring, two for each ordered pair
of bodies that repel, and two for each pair that collides. -/
namespace CodeAtlas

namespace Generator

variable {γ : Type} [Generator γ]

/-- None of the next `n` draws is the middle one, whose random number is zero. -/
def Lively : Nat → γ → Prop
  | 0, _ => True
  | n + 1, g => (draw g).1 ≠ 0x10000000000000 ∧ Lively n (draw g).2

instance decidableLively : (n : Nat) → (g : γ) → Decidable (Lively n g)
  | 0, _ => isTrue trivial
  | n + 1, g =>
    have := decidableLively n (draw g).2
    inferInstanceAs (Decidable ((draw g).1 ≠ 0x10000000000000 ∧ Lively n (draw g).2))

theorem Lively.mono {m n : Nat} {g : γ} (h : Lively n g) (hle : m ≤ n) : Lively m g := by
  induction m generalizing n g with
  | zero => trivial
  | succ m ih =>
    cases n with
    | zero => exact absurd hle (Nat.not_succ_le_zero m)
    | succ n => exact ⟨h.1, ih h.2 (Nat.le_of_succ_le_succ hle)⟩

/-- The generator that draws zero over and over. -/
instance : Generator Unit := ⟨fun g => (0, g)⟩

theorem lively_unit (n : Nat) (g : Unit) : Lively n g := by
  induction n with
  | zero => trivial
  | succ n ih => exact ⟨Nat.zero_ne_add_one _, ih⟩

/-- The generator that draws the numbers of a list, and then the middle one over and over. -/
instance : Generator (List Nat) where
  draw
    | [] => (0x10000000000000, [])
    | n :: rest => (n, rest)

theorem lively_replicate (n : Nat) : Lively n (List.replicate n 0) := by
  induction n with
  | zero => trivial
  | succ n ih => exact ⟨Nat.zero_ne_add_one _, ih⟩

end Generator

namespace Layout

open Generator

variable {K γ σ : Type} [ExactScalar K] [Generator γ]

theorem mul_self_add_mul_self_pos {x : K} (hx : x ≠ 0) (y : K) : 0 < x * x + y * y :=
  add_pos_of_pos_of_nonneg (mul_self_pos.2 hx) (mul_self_nonneg y)

private theorem jiggle_ne_zero {g : γ} (h : (draw g).1 ≠ 0x10000000000000) :
    (jiggle g : K × γ).1 ≠ 0 := by
  have hdraw : ((draw g).1 : K) ≠ 0x10000000000000 := by
    exact_mod_cast h
  have hhalf : (((draw g).1 : Int) : K) / (0x20000000000000 : Nat) - 1 / 2 ≠ 0 := by
    intro hzero
    apply hdraw
    push_cast at hzero
    linarith
  rw [jiggle]
  refine mul_ne_zero ?_ ?_
  · rwa [Scalar.ofRatio_eq, Scalar.half_eq]
  · rw [Scalar.ofRatio_eq]
    norm_num

theorem orJiggle_of_lively {n : Nat} {g : γ} (h : Lively (n + 1) g) (x : K) :
    (orJiggle x g).1 ≠ 0 ∧ Lively n (orJiggle x g).2 := by
  rw [orJiggle]
  split
  · exact ⟨jiggle_ne_zero h.1, h.2⟩
  · next hx => exact ⟨mt Scalar.same_iff.2 hx, h.mono (Nat.le_succ n)⟩

/-- The sweep has divided by positive numbers alone, and none of the `n` draws that come after it is
the middle one. -/
structure Swept.Completed (s : Swept σ γ) (n : Nat) (divisors : List K) : Prop where
  positive : ∀ d ∈ divisors, 0 < d
  lively : Lively n s.generator

theorem Swept.Completed.behind {s : Swept σ γ} {n : Nat} {first rest : List K}
    (hrest : s.Completed n rest) (hfirst : ∀ d ∈ first, 0 < d) : s.Completed n (first ++ rest) :=
  ⟨List.forall_mem_append.2 ⟨hfirst, hrest.positive⟩, hrest.lively⟩

theorem not_stalled_of_pos {stalled : Bool} {divisors : List K}
    (hstalled : stalled = true ↔ 0 ∈ divisors) (hpos : ∀ d ∈ divisors, 0 < d) :
    ¬stalled = true := fun h => (hpos 0 (hstalled.1 h)).false

private theorem length_actAll (alpha distance : K) (all : List (Spring K)) (bodies : List (Body K))
    (g : γ) : (Spring.actAll alpha distance all bodies g).value.length = bodies.length := by
  simpa using
    congrArg List.length (Body.unpushed_hold.map_actAll alpha distance all bodies g)

private theorem length_repel (charge : K) (bodies : List (Body K)) (g : γ) :
    (repel charge bodies g).value.length = bodies.length := by
  unfold repel
  simpa using congrArg List.length (Body.unpushed_hold.map_repelFrom charge [] bodies g)

private theorem length_recentre (cx cy : K) (bodies : List (Body K)) :
    (recentre cx cy bodies).length = bodies.length := by
  unfold recentre
  split
  · rfl
  · exact List.length_map _

private theorem pairs_succ (r : Nat) :
    (r + 1 - 1) * (r + 1) = (r - 1) * r + 2 * r := by
  cases r with
  | zero => rfl
  | succ r =>
    simp only [Nat.add_sub_cancel]
    ring

namespace Simulation

/-- How many random numbers a tick draws at most: two for each spring, for each ordered pair of
bodies that repel, and for each pair that collides. -/
def mostDraws (s : Simulation K γ) : Nat :=
  2 * s.springs.length + 3 * ((s.bodies.length - 1) * s.bodies.length)

@[simp] theorem mostDraws_tick (s : Simulation K γ) : s.tick.1.mostDraws = s.mostDraws := by
  rw [mostDraws, length_bodies_tick, springs_tick, mostDraws]

end Simulation

section Forces

variable (hroot : ∀ a : K, 0 < a → 0 < Scalar.sqrt a) {n : Nat}

include hroot

private theorem completed_act {swept : Swept (List (Body K)) γ} (h : Lively (n + 2) swept.generator)
    (alpha distance : K) (s : Spring K) :
    (s.act alpha distance swept).Completed n (s.divisors swept) := by
  have hnone : swept.Completed n ([] : List K) :=
    ⟨List.forall_mem_nil _, h.mono (Nat.le_add_right n 2)⟩
  unfold Spring.act Spring.divisors
  split
  · exact hnone
  · cases swept.value[s.source]? with
    | none => exact hnone
    | some a =>
      cases swept.value[s.target]? with
      | none => exact hnone
      | some b =>
        obtain ⟨hx, hg⟩ := orJiggle_of_lively h (b.x + b.vx - a.x - a.vx)
        obtain ⟨-, hg'⟩ := orJiggle_of_lively hg (b.y + b.vy - a.y - a.vy)
        refine ⟨List.forall_mem_singleton.2 (hroot _ (mul_self_add_mul_self_pos hx _)), ?_⟩
        dsimp only
        split
        · exact hg'
        · exact hg'

private theorem completed_actAll {g : γ} (all : List (Spring K)) (h : Lively (n + 2 * all.length) g)
    (alpha distance : K) (bodies : List (Body K)) :
    (Spring.actAll alpha distance all bodies g).Completed n
      (Spring.divisorsFrom alpha distance all ⟨bodies, g, false⟩) := by
  unfold Spring.actAll
  have hstart : Lively (n + 2 * all.length)
    (⟨bodies, g, false⟩ : Swept (List (Body K)) γ).generator := h
  clear h
  generalize (⟨bodies, g, false⟩ : Swept (List (Body K)) γ) = swept at hstart
  induction all generalizing swept with
  | nil => exact ⟨List.forall_mem_nil _, hstart⟩
  | cons s rest ih =>
    have hfirst := completed_act hroot hstart alpha distance s
    exact (ih _ hfirst.lively).behind hfirst.positive

theorem repulsionDivisor_pos {x : K} (hx : x ≠ 0) (y : K) : 0 < repulsionDivisor x y := by
  have hsquare : 0 < x * x + y * y := mul_self_add_mul_self_pos hx y
  unfold repulsionDivisor
  dsimp only
  split
  · exact hroot _ hsquare
  · exact hsquare

private theorem completed_repelOne {g : γ} (others : List (Body K))
    (h : Lively (n + 2 * others.length) g) (charge : K) (b : Body K) :
    (repelOne charge b others g).Completed n (repelOneDivisors charge b others g) := by
  induction others generalizing b g with
  | nil => exact ⟨List.forall_mem_nil _, h⟩
  | cons other rest ih =>
    obtain ⟨hx, hg⟩ := orJiggle_of_lively h (other.x - b.x)
    obtain ⟨-, hg'⟩ := orJiggle_of_lively hg (other.y - b.y)
    have hdivisor := repulsionDivisor_pos hroot hx
      (orJiggle (other.y - b.y) (orJiggle (other.x - b.x) g).2).1
    rw [repelOne, repelOneDivisors]
    dsimp only
    rw [Scalar.div?_eq_some hdivisor.ne']
    exact ⟨List.forall_mem_cons.2 ⟨hdivisor, (ih hg' _).positive⟩, (ih hg' _).lively⟩

private theorem completed_repelFrom {g : γ} (done rest : List (Body K)) {others : Nat}
    (hothers : done.length + rest.length = others + 1)
    (h : Lively (n + 2 * others * rest.length) g) (charge : K) :
    (repelFrom charge done rest g).Completed n (repelFromDivisors charge done rest g) := by
  induction rest generalizing done g with
  | nil => exact ⟨List.forall_mem_nil _, h⟩
  | cons b rest ih =>
    have hcount : (done ++ rest).length = others := by
      rw [List.length_append]
      rw [List.length_cons] at hothers
      omega
    have hdraws : n + 2 * others * (b :: rest).length =
        n + 2 * others * rest.length + 2 * (done ++ rest).length := by
      rw [hcount, List.length_cons, Nat.mul_succ, ← Nat.add_assoc]
    have hfirst := completed_repelOne hroot (done ++ rest) (hdraws ▸ h) charge b
    have hended := not_stalled_of_pos (stalled_repelOne charge b (done ++ rest) g) hfirst.positive
    rw [repelFrom, repelFromDivisors, if_neg hended, if_neg hended]
    refine (ih _ ?_ hfirst.lively).behind hfirst.positive
    rw [List.length_append, List.length_singleton, ← hothers, List.length_cons]
    omega

private theorem completed_repel {g : γ} (bodies : List (Body K))
    (h : Lively (n + 2 * (bodies.length - 1) * bodies.length) g) (charge : K) :
    (repel charge bodies g).Completed n (repelFromDivisors charge [] bodies g) := by
  cases bodies with
  | nil => exact ⟨List.forall_mem_nil _, h⟩
  | cons b rest => exact completed_repelFrom hroot [] _ (Nat.zero_add _) h charge

private theorem collisionDistance_pos {x' : K} (hx : x' ≠ 0) (x y y' : K) :
    0 < collisionDistance x x' y y' := by
  have hsquare : 0 ≤ x * x + y * y := add_nonneg (mul_self_nonneg x) (mul_self_nonneg y)
  have hfirst : 0 < if Scalar.same x Scalar.zero then x * x + y * y + x' * x'
      else x * x + y * y := by
    split
    · exact add_pos_of_nonneg_of_pos hsquare (mul_self_pos.2 hx)
    · next hne => exact mul_self_add_mul_self_pos (mt Scalar.same_iff.2 hne) y
  refine hroot _ ?_
  split
  · exact add_pos_of_pos_of_nonneg hfirst (mul_self_nonneg y')
  · exact hfirst

theorem completed_collideOne {g : γ} (others : List (Body K))
    (h : Lively (n + 2 * others.length) g) (reach x₀ y₀ : K) (b : Body K) :
    (collideOne reach x₀ y₀ b others g).Completed n
      (collideOneDivisors reach x₀ y₀ b others g) := by
  induction others generalizing b g with
  | nil => exact ⟨List.forall_mem_nil _, h⟩
  | cons other rest ih =>
    rw [collideOne, collideOneDivisors]
    dsimp only
    split
    · have hrest := ih (h.mono (by rw [List.length_cons]; omega)) b
      exact ⟨hrest.positive, hrest.lively⟩
    · obtain ⟨hx, hg⟩ := orJiggle_of_lively h (x₀ - other.x - other.vx)
      obtain ⟨-, hg'⟩ := orJiggle_of_lively hg (y₀ - other.y - other.vy)
      have hdistance := collisionDistance_pos hroot hx (x₀ - other.x - other.vx)
        (y₀ - other.y - other.vy)
        (orJiggle (y₀ - other.y - other.vy) (orJiggle (x₀ - other.x - other.vx) g).2).1
      rw [Scalar.div?_eq_some hdistance.ne']
      exact ⟨List.forall_mem_cons.2 ⟨hdistance, (ih hg' _).positive⟩, (ih hg' _).lively⟩

private theorem completed_collideAll {g : γ} (bodies : List (Body K))
    (h : Lively (n + (bodies.length - 1) * bodies.length) g) (reach : K) :
    (collideAll reach bodies g).Completed n (collideAllDivisors reach bodies g) := by
  fun_induction collideAll reach bodies g with
  | case1 =>
    rw [collideAllDivisors]
    exact ⟨List.forall_mem_nil _, h⟩
  | case2 b rest g swept stalled =>
    rw [List.length_cons, pairs_succ, ← Nat.add_assoc] at h
    have hfirst := completed_collideOne hroot rest h reach (b.x + b.vx) (b.y + b.vy) b
    exact absurd stalled (not_stalled_of_pos (stalled_collideOne _ _ _ _ _ _) hfirst.positive)
  | case3 b rest g swept stalled tail ih =>
    rw [List.length_cons, pairs_succ, ← Nat.add_assoc] at h
    have hfirst := completed_collideOne hroot rest h reach (b.x + b.vx) (b.y + b.vy) b
    have htail := ih (by rw [length_collideOne]; exact hfirst.lively)
    rw [collideAllDivisors, if_neg stalled]
    exact Swept.Completed.behind ⟨htail.positive, htail.lively⟩ hfirst.positive

private theorem completed_collide {g : γ} (bodies : List (Body K))
    (h : Lively (n + (bodies.length - 1) * bodies.length) g) (radius : K) :
    (collide radius bodies g).Completed n (collideDivisors radius bodies g) := by
  unfold collide collideDivisors
  split
  · exact ⟨List.forall_mem_nil _, h.mono (Nat.le_add_right _ _)⟩
  · exact completed_collideAll hroot bodies h _

namespace Simulation

variable {s : Simulation K γ}

theorem completed_forces (h : Lively (n + s.mostDraws) s.generator) (alpha : K) :
    (s.forces alpha).Completed n (s.forcesDivisors alpha) := by
  let pairs := (s.bodies.length - 1) * s.bodies.length
  have hdraws : n + s.mostDraws =
      n + pairs + 2 * (s.bodies.length - 1) * s.bodies.length + 2 * s.springs.length := by
    rw [mostDraws, Nat.mul_assoc 2 (s.bodies.length - 1)]
    omega
  have hpulled := completed_actAll hroot s.springs (hdraws ▸ h) alpha s.physics.distance s.bodies
  let pulled := Spring.actAll alpha s.physics.distance s.springs s.bodies s.generator
  have hlength : pulled.value.length = s.bodies.length := length_actAll ..
  have hrepelled := completed_repel (n := n + pairs) hroot pulled.value
    (by rw [hlength]; exact hpulled.lively) (s.physics.charge * alpha)
  let repelled := repel (s.physics.charge * alpha) pulled.value pulled.generator
  have hcentred : (recentre s.physics.cx s.physics.cy repelled.value).length = s.bodies.length := by
    rw [length_recentre, length_repel, hlength]
  have hcollided := completed_collide hroot (recentre s.physics.cx s.physics.cy repelled.value)
    (by rw [hcentred]; exact hrepelled.lively) s.physics.radius (n := n)
  have hpulled' := not_stalled_of_pos (Spring.stalled_actAll _ _ _ _ _) hpulled.positive
  have hrepelled' := not_stalled_of_pos (stalled_repelFrom _ _ _ _) hrepelled.positive
  unfold forces forcesDivisors repel
  dsimp only
  rw [if_neg hpulled', if_neg hpulled', if_neg hrepelled', if_neg hrepelled']
  exact ((hcollided.behind (recentreDivisors_pos _)).behind hrepelled.positive).behind
    hpulled.positive

theorem divisors_pos (h : Lively s.mostDraws s.generator) : ∀ d ∈ s.divisors, 0 < d :=
  (completed_forces hroot (n := 0) ((Nat.zero_add _).symm ▸ h) s.cooling.tick.alpha).positive

theorem completed_tick (h : Lively (n + s.mostDraws) s.generator) :
    s.tick.2 = false ∧ Lively n s.tick.1.generator := by
  have hforces := completed_forces hroot h s.cooling.tick.alpha
  have hended := not_stalled_of_pos s.stalled_tick hforces.positive
  refine ⟨Bool.eq_false_of_not_eq_true hended, ?_⟩
  unfold tick
  dsimp only
  split
  · exact hforces.lively
  · exact hforces.lively

theorem completed_run {limit : Nat} (h : Lively (limit * s.mostDraws) s.generator) :
    (s.run limit).2.2 = false := by
  induction limit generalizing s with
  | zero => rfl
  | succ limit ih =>
    rw [Nat.succ_mul] at h
    obtain ⟨hticked, hnext⟩ := completed_tick hroot h
    rw [run]
    split
    · rfl
    · rw [← mostDraws_tick s] at hnext
      generalize s.tick = result at hticked hnext
      obtain ⟨next, stalled⟩ := result
      obtain rfl : stalled = false := hticked
      exact ih hnext

end Simulation

end Forces

end Layout

end CodeAtlas
