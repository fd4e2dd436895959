import Mathlib
import CodeAtlas.Layout.Simulation
import CodeAtlas.Proofs.Scalar

/-! What a layout divides by. Beside every sweep stands the list of its divisors, computed from the
same bodies, speeds and random numbers as the sweep itself; a sweep is ended by a division by zero
exactly if zero is among them. -/
namespace CodeAtlas.Layout

section Lists

variable {α γ : Type} [Scalar α] [Generator γ]

/-- What the strengths and the biases of new springs are divided by. -/
def Spring.linkDivisors (links : List (Nat × Nat)) : List Nat :=
  links.flatMap fun link =>
    let s := endCounts links link.1
    let t := endCounts links link.2
    [min s t, s + t]

/-- A spring divides by the length it will have, and by nothing if one of its ends lies nowhere. -/
def Spring.divisors (s : Spring α) (swept : Swept (List (Body α)) γ) : List α :=
  if swept.stalled then [] else
  match swept.value[s.source]?, swept.value[s.target]? with
  | some a, some b =>
    let (x, g) := orJiggle (b.x + b.vx - a.x - a.vx) swept.generator
    let (y, _) := orJiggle (b.y + b.vy - a.y - a.vy) g
    [Scalar.sqrt (x * x + y * y)]
  | _, _ => []

def Spring.divisorsFrom (alpha distance : α) :
    List (Spring α) → Swept (List (Body α)) γ → List α
  | [], _ => []
  | s :: rest, swept =>
    s.divisors swept ++ divisorsFrom alpha distance rest (s.act alpha distance swept)

def repelOneDivisors (charge : α) : Body α → List (Body α) → γ → List α
  | _, [], _ => []
  | b, other :: others, g =>
    let (x, g) := orJiggle (other.x - b.x) g
    let (y, g) := orJiggle (other.y - b.y) g
    let divisor := repulsionDivisor x y
    divisor :: match Scalar.div? charge divisor with
      | none => []
      | some weight => repelOneDivisors charge (b.push (x * weight) (y * weight)) others g

def repelFromDivisors (charge : α) (done : List (Body α)) : List (Body α) → γ → List α
  | [], _ => []
  | b :: rest, g =>
    let swept := repelOne charge b (done ++ rest) g
    repelOneDivisors charge b (done ++ rest) g ++
      if swept.stalled then []
      else repelFromDivisors charge (done ++ [swept.value]) rest swept.generator

/-- The mean divides by the number of bodies, once for each coordinate, if there are any. -/
def recentreDivisors (bodies : List (Body α)) : List α :=
  if bodies.isEmpty then [] else
  let count : α := Scalar.ofNat bodies.length
  [count, count]

def collideOneDivisors (reach x₀ y₀ : α) : Body α → List (Body α) → γ → List α
  | _, [], _ => []
  | b, other :: others, g =>
    let x := x₀ - other.x - other.vx
    let y := y₀ - other.y - other.vy
    if Scalar.atMost (reach * reach) (x * x + y * y) then
      collideOneDivisors reach x₀ y₀ b others g
    else
      let (x', g) := orJiggle x g
      let (y', g) := orJiggle y g
      let distance := collisionDistance x x' y y'
      distance :: match Scalar.div? (reach - distance) distance with
        | none => []
        | some overlap =>
          let force := overlap * Scalar.half
          collideOneDivisors reach x₀ y₀ (b.push (x' * force) (y' * force)) others g

def collideAllDivisors (reach : α) : List (Body α) → γ → List α
  | [], _ => []
  | b :: rest, g =>
    let swept := collideOne reach (b.x + b.vx) (b.y + b.vy) b rest g
    collideOneDivisors reach (b.x + b.vx) (b.y + b.vy) b rest g ++
      if swept.stalled then [] else collideAllDivisors reach swept.value.2 swept.generator
termination_by bodies => bodies.length
decreasing_by simp [length_collideOne]

def collideDivisors (radius : α) (bodies : List (Body α)) (generator : γ) : List α :=
  if Scalar.atMost radius Scalar.zero then []
  else collideAllDivisors (radius + radius) bodies generator

namespace Simulation

def forcesDivisors (s : Simulation α γ) (alpha : α) : List α :=
  let pulled := Spring.actAll alpha s.physics.distance s.springs s.bodies s.generator
  Spring.divisorsFrom alpha s.physics.distance s.springs ⟨s.bodies, s.generator, false⟩ ++
  if pulled.stalled then [] else
  let repelled := repel (s.physics.charge * alpha) pulled.value pulled.generator
  repelFromDivisors (s.physics.charge * alpha) [] pulled.value pulled.generator ++
  if repelled.stalled then [] else
  recentreDivisors repelled.value ++
  collideDivisors s.physics.radius (recentre s.physics.cx s.physics.cy repelled.value)
    repelled.generator

/-- All that the next tick divides by, in the order of its divisions. -/
def divisors (s : Simulation α γ) : List α := s.forcesDivisors s.cooling.tick.alpha

end Simulation

end Lists

variable {K γ : Type} [ExactScalar K] [Generator γ]

private theorem Spring.stalled_act (alpha distance : K) (s : Spring K)
    (swept : Swept (List (Body K)) γ) : (s.act alpha distance swept).stalled = true ↔
      swept.stalled = true ∨ 0 ∈ s.divisors swept := by
  by_cases hstalled : swept.stalled = true
  · simp [act, hstalled]
  · rw [act, divisors, if_neg hstalled, if_neg hstalled, or_iff_right hstalled]
    cases swept.value[s.source]? with
    | none => simp [hstalled]
    | some a =>
      cases swept.value[s.target]? with
      | none => simp [hstalled]
      | some b =>
        dsimp only
        rw [List.mem_singleton]
        split
        · next hzero => exact iff_of_true rfl (Scalar.eq_zero_of_div? hzero).symm
        · next hquotient =>
          exact iff_of_false Bool.false_ne_true (Scalar.ne_zero_of_div? hquotient).symm

private theorem Spring.stalled_foldl (alpha distance : K) (all : List (Spring K))
    (swept : Swept (List (Body K)) γ) :
    (all.foldl (fun swept s => s.act alpha distance swept) swept).stalled = true ↔
      swept.stalled = true ∨ 0 ∈ divisorsFrom alpha distance all swept := by
  induction all generalizing swept with
  | nil => simp [divisorsFrom]
  | cons s rest ih =>
    rw [List.foldl_cons, ih, stalled_act, divisorsFrom, List.mem_append, or_assoc]

theorem Spring.stalled_actAll (alpha distance : K) (all : List (Spring K)) (bodies : List (Body K))
    (g : γ) : (actAll alpha distance all bodies g).stalled = true ↔
      0 ∈ divisorsFrom alpha distance all ⟨bodies, g, false⟩ := by
  rw [actAll, stalled_foldl, or_iff_right Bool.false_ne_true]

theorem stalled_repelOne (charge : K) (b : Body K) (others : List (Body K)) (g : γ) :
    (repelOne charge b others g).stalled = true ↔ 0 ∈ repelOneDivisors charge b others g := by
  induction others generalizing b g with
  | nil => simp [repelOne, repelOneDivisors]
  | cons other rest ih =>
    rw [repelOne, repelOneDivisors]
    dsimp only
    rw [List.mem_cons]
    -- The sweep and its divisors go on with the same quotient.
    generalize hquotient : Scalar.div? charge (repulsionDivisor _ _) = quotient
    cases quotient with
    | none => exact iff_of_true rfl (.inl (Scalar.eq_zero_of_div? hquotient).symm)
    | some weight =>
      rw [or_iff_right (Scalar.ne_zero_of_div? hquotient).symm]
      exact ih _ _

theorem stalled_repelFrom (charge : K) (done rest : List (Body K)) (g : γ) :
    (repelFrom charge done rest g).stalled = true ↔
      0 ∈ repelFromDivisors charge done rest g := by
  induction rest generalizing done g with
  | nil => simp [repelFrom, repelFromDivisors]
  | cons b rest ih =>
    have hfirst := stalled_repelOne charge b (done ++ rest) g
    rw [repelFrom, repelFromDivisors, List.mem_append, ← hfirst]
    split
    · next hstalled => exact iff_of_true rfl (.inl hstalled)
    · next hended => rw [or_iff_right hended, ih]

theorem stalled_collideOne (reach x₀ y₀ : K) (b : Body K) (others : List (Body K)) (g : γ) :
    (collideOne reach x₀ y₀ b others g).stalled = true ↔
      0 ∈ collideOneDivisors reach x₀ y₀ b others g := by
  induction others generalizing b g with
  | nil => simp [collideOne, collideOneDivisors]
  | cons other rest ih =>
    rw [collideOne, collideOneDivisors]
    dsimp only
    split
    · exact ih b g
    · rw [List.mem_cons]
      generalize hquotient : Scalar.div? (reach - collisionDistance _ _ _ _) _ = quotient
      cases quotient with
      | none => exact iff_of_true rfl (.inl (Scalar.eq_zero_of_div? hquotient).symm)
      | some overlap =>
        rw [or_iff_right (Scalar.ne_zero_of_div? hquotient).symm]
        exact ih _ _

private theorem stalled_collideAll (reach : K) (bodies : List (Body K)) (g : γ) :
    (collideAll reach bodies g).stalled = true ↔ 0 ∈ collideAllDivisors reach bodies g := by
  fun_induction collideAll reach bodies g with
  | case1 => simp [collideAllDivisors]
  | case2 b rest g swept stalled =>
    rw [collideAllDivisors, List.mem_append, ← stalled_collideOne]
    exact iff_of_true rfl (.inl stalled)
  | case3 b rest g swept stalled tail ih =>
    rw [collideAllDivisors, List.mem_append, ← stalled_collideOne, if_neg stalled,
      or_iff_right stalled]
    exact ih

private theorem stalled_collide (radius : K) (bodies : List (Body K)) (g : γ) :
    (collide radius bodies g).stalled = true ↔ 0 ∈ collideDivisors radius bodies g := by
  unfold collide collideDivisors
  split
  · exact iff_of_false Bool.false_ne_true List.not_mem_nil
  · exact stalled_collideAll _ bodies g

omit [Generator γ] in
theorem recentreDivisors_pos (bodies : List (Body K)) : ∀ d ∈ recentreDivisors bodies, 0 < d := by
  intro d hd
  unfold recentreDivisors at hd
  split at hd
  · cases hd
  · next hsome =>
    have hcount : 0 < (Scalar.ofNat bodies.length : K) := by
      rw [Scalar.ofNat_eq, Nat.cast_pos, List.length_pos_iff]
      exact mt List.isEmpty_iff.2 hsome
    simp only [List.mem_cons, List.not_mem_nil, or_false, or_self] at hd
    rwa [hd]

namespace Simulation

private theorem stalled_forces (s : Simulation K γ) (alpha : K) :
    (s.forces alpha).stalled = true ↔ 0 ∈ s.forcesDivisors alpha := by
  rw [forces, forcesDivisors, List.mem_append, ← Spring.stalled_actAll]
  split
  · next hstalled => exact iff_of_true hstalled (.inl hstalled)
  · next hended =>
    rw [or_iff_right hended, List.mem_append, ← stalled_repelFrom, ← repel]
    dsimp only
    split
    · next hstalled => exact iff_of_true hstalled (.inl hstalled)
    · next hended =>
      rw [or_iff_right hended, List.mem_append,
        or_iff_right fun hzero => (recentreDivisors_pos _ 0 hzero).false, stalled_collide]

theorem stalled_tick (s : Simulation K γ) : s.tick.2 = true ↔ 0 ∈ s.divisors := by
  rw [divisors, ← stalled_forces, tick]
  split
  · next hstalled => exact iff_of_true rfl hstalled
  · next hended => exact iff_of_false Bool.false_ne_true hended

end Simulation

end CodeAtlas.Layout
