import Mathlib
import CodeAtlas.Proofs.Layout.Cooling

/-! The momentum of a layout in exact arithmetic. Two bodies repel or collide with equal and
opposite pushes, so the speeds of all bodies keep their sum; bodies that are neither held nor drawn
by springs start at rest, and their mean, once brought to the centre, stays there. -/
namespace CodeAtlas.Layout

variable {K γ : Type}

def Body.position (b : Body K) : K × K := (b.x, b.y)

def Body.velocity (b : Body K) : K × K := (b.vx, b.vy)

/-- No two bodies share a coordinate. -/
def Spread (bodies : List (Body K)) : Prop := bodies.Pairwise fun a b => a.x ≠ b.x ∧ a.y ≠ b.y

instance [DecidableEq K] (bodies : List (Body K)) : Decidable (Spread bodies) :=
  inferInstanceAs (Decidable (List.Pairwise _ _))

private theorem spread_iff {bodies : List (Body K)} : Spread bodies ↔
    (bodies.map Body.position).Pairwise fun p q => p.1 ≠ q.1 ∧ p.2 ≠ q.2 := by
  rw [List.pairwise_map]
  rfl

variable [ExactScalar K] [Generator γ]

namespace Body

theorem unpushed_position : Unpushed (position : Body K → K × K) where
  push _ _ _ := rfl
  pull _ _ _ := rfl

@[simp] theorem velocity_push (b : Body K) (dx dy : K) :
    (b.push dx dy).velocity = b.velocity + (dx, dy) := rfl

@[simp] theorem velocity_pull (b : Body K) (dx dy : K) :
    (b.pull dx dy).velocity = b.velocity - (dx, dy) := rfl

def pushBy (b : Body K) (v : K × K) : Body K := b.push v.1 v.2

@[simp] theorem position_pushBy (b : Body K) (v : K × K) : (b.pushBy v).position = b.position := rfl

@[simp] theorem velocity_pushBy (b : Body K) (v : K × K) :
    (b.pushBy v).velocity = b.velocity + v := rfl

private theorem pushBy_zero (b : Body K) : b.pushBy 0 = b := by
  simp [pushBy, push]

private theorem pushBy_pushBy (b : Body K) (v w : K × K) :
    (b.pushBy v).pushBy w = b.pushBy (v + w) := by
  simp only [pushBy, push, Prod.fst_add, Prod.snd_add, add_assoc]

end Body

/-- All bodies have the same mass. -/
def momentum (bodies : List (Body K)) : K × K := (bodies.map Body.velocity).sum

@[simp] theorem momentum_nil : momentum ([] : List (Body K)) = 0 := rfl

@[simp] theorem momentum_cons (b : Body K) (rest : List (Body K)) :
    momentum (b :: rest) = b.velocity + momentum rest := List.sum_cons

@[simp] theorem momentum_append (first second : List (Body K)) :
    momentum (first ++ second) = momentum first + momentum second := by
  rw [momentum, List.map_append, List.sum_append]
  rfl

theorem momentum_collideOne (reach x y : K) (b : Body K) (others : List (Body K)) (g : γ) :
    let swept := collideOne reach x y b others g
    swept.value.1.velocity + momentum swept.value.2 = b.velocity + momentum others := by
  induction others generalizing b g with
  | nil => rfl
  | cons other rest ih =>
    rw [collideOne]
    dsimp only
    split
    · rw [momentum_cons, momentum_cons, add_left_comm, ih, add_left_comm]
    · split
      · rfl
      · -- The push of the first body is the pull of the other.
        rw [momentum_cons, momentum_cons, add_left_comm, ih, Body.velocity_push,
          Body.velocity_pull]
        abel

private theorem momentum_collideAll (reach : K) (bodies : List (Body K)) (g : γ) :
    momentum (collideAll reach bodies g).value = momentum bodies := by
  fun_induction collideAll reach bodies g with
  | case1 => rfl
  | case2 b rest g swept stalled =>
    rw [momentum_cons, momentum_cons]
    exact momentum_collideOne reach _ _ b rest g
  | case3 b rest g swept stalled tail ih =>
    rw [momentum_cons, momentum_cons, ih]
    exact momentum_collideOne reach _ _ b rest g

theorem momentum_collide (radius : K) (bodies : List (Body K)) (g : γ) :
    momentum (collide radius bodies g).value = momentum bodies := by
  unfold collide
  split
  · rfl
  · exact momentum_collideAll _ bodies g

def repulsion (charge : K) (p q : K × K) : K × K :=
  let x := q.1 - p.1
  let y := q.2 - p.2
  let weight := charge / repulsionDivisor x y
  (x * weight, y * weight)

def repulsionOf (charge : K) (others : List (Body K)) (p : K × K) : K × K :=
  (others.map fun other => repulsion charge p other.position).sum

private theorem repulsion_swap (charge : K) (p q : K × K) :
    repulsion charge q p = -repulsion charge p q := by
  have hsquare : (p.1 - q.1) * (p.1 - q.1) + (p.2 - q.2) * (p.2 - q.2) =
      (q.1 - p.1) * (q.1 - p.1) + (q.2 - p.2) * (q.2 - p.2) := by ring
  simp only [repulsion, repulsionDivisor, hsquare, Prod.neg_mk, Prod.mk.injEq]
  constructor <;> ring

private theorem sum_repulsion_swap (charge : K) (p : K × K) (others : List (Body K)) :
    (others.map fun other => repulsion charge other.position p).sum =
      -repulsionOf charge others p := by
  rw [repulsionOf, List.sum_neg, List.map_map]
  exact congrArg List.sum (List.map_congr_left fun other _ => repulsion_swap charge _ _)

private theorem repulsionOf_append (charge : K) (first second : List (Body K)) (p : K × K) :
    repulsionOf charge (first ++ second) p =
      repulsionOf charge first p + repulsionOf charge second p := by
  rw [repulsionOf, List.map_append, List.sum_append]
  rfl

private theorem sum_repulsionOf_concat (charge : K) (done rest : List (Body K)) (b : Body K) :
    (rest.map fun c => repulsionOf charge (done ++ [b]) c.position).sum =
      (rest.map fun c => repulsionOf charge done c.position).sum -
        repulsionOf charge rest b.position := by
  have hconcat (c : Body K) : repulsionOf charge (done ++ [b]) c.position =
      repulsionOf charge done c.position + repulsion charge c.position b.position := by
    simp [repulsionOf]
  simp only [hconcat]
  rw [List.sum_map_add, sum_repulsion_swap, sub_eq_add_neg]

theorem orJiggle_of_ne {x : K} (hx : x ≠ 0) (g : γ) : orJiggle x g = (x, g) :=
  if_neg (mt Scalar.same_iff.1 hx)

section Repulsion

variable (hroot : ∀ a : K, 0 < a → 0 < Scalar.sqrt a)

include hroot

private theorem repelOne_eq {b : Body K} {others : List (Body K)}
    (happart : ∀ other ∈ others, b.x ≠ other.x ∧ b.y ≠ other.y) (charge : K) (g : γ) :
    repelOne charge b others g =
      ⟨b.pushBy (repulsionOf charge others b.position), g, false⟩ := by
  induction others generalizing b with
  | nil => exact congrArg (fun b : Body K => Swept.mk b g false) b.pushBy_zero.symm
  | cons other rest ih =>
    obtain ⟨⟨hx, hy⟩, hrest⟩ := List.forall_mem_cons.1 happart
    have hx' : other.x - b.x ≠ 0 := sub_ne_zero.2 hx.symm
    have hy' : other.y - b.y ≠ 0 := sub_ne_zero.2 hy.symm
    have hdivisor := repulsionDivisor_pos hroot hx' (other.y - b.y)
    have hlater := ih (b := b.pushBy (repulsion charge b.position other.position)) hrest
    rw [Body.pushBy_pushBy] at hlater
    rw [repelOne]
    simp only [orJiggle_of_ne hx', orJiggle_of_ne hy']
    rw [Scalar.div?_eq_some hdivisor.ne']
    exact hlater

private theorem momentum_repelFrom {done rest : List (Body K)} (hspread : Spread (done ++ rest))
    (charge : K) (g : γ) :
    let swept := repelFrom charge done rest g
    swept.stalled = false ∧ momentum swept.value =
      momentum (done ++ rest) + (rest.map fun b => repulsionOf charge done b.position).sum := by
  induction rest generalizing done with
  | nil => simp [repelFrom]
  | cons b rest ih =>
    have hsymm {a c : Body K} (h : a.x ≠ c.x ∧ a.y ≠ c.y) : c.x ≠ a.x ∧ c.y ≠ a.y :=
      ⟨h.1.symm, h.2.symm⟩
    have happart : ∀ other ∈ done ++ rest, b.x ≠ other.x ∧ b.y ≠ other.y :=
      (List.pairwise_cons.1 ((List.pairwise_middle hsymm).1 hspread)).1
    let pushed := b.pushBy (repulsionOf charge (done ++ rest) b.position)
    have hspread' : Spread (done ++ [pushed] ++ rest) := by
      rw [spread_iff] at hspread ⊢
      simpa [pushed] using hspread
    obtain ⟨hended, hmomentum⟩ := ih hspread'
    rw [repelFrom, repelOne_eq hroot happart charge g]
    refine ⟨hended, hmomentum.trans ?_⟩
    rw [sum_repulsionOf_concat, List.map_cons, List.sum_cons]
    simp only [momentum_append, momentum_cons, momentum_nil, pushed, Body.position_pushBy,
      Body.velocity_pushBy, repulsionOf_append]
    abel

theorem momentum_repel {bodies : List (Body K)} (hspread : Spread bodies) (charge : K) (g : γ) :
    let swept := repel charge bodies g
    swept.stalled = false ∧ momentum swept.value = momentum bodies := by
  have hall : Spread ([] ++ bodies) := hspread
  obtain ⟨hended, hmomentum⟩ := momentum_repelFrom hroot hall charge g
  refine ⟨hended, hmomentum.trans ?_⟩
  simp [repulsionOf]

end Repulsion

def mean (bodies : List (Body K)) : K × K :=
  ((bodies.map Body.x).sum / bodies.length, (bodies.map Body.y).sum / bodies.length)

private theorem mean_congr {bodies others : List (Body K)}
    (h : bodies.map Body.position = others.map Body.position) : mean bodies = mean others := by
  have hlength : bodies.length = others.length := by simpa using congrArg List.length h
  have hx : bodies.map Body.x = others.map Body.x := by
    simpa [Function.comp_def, Body.position] using congrArg (List.map Prod.fst) h
  have hy : bodies.map Body.y = others.map Body.y := by
    simpa [Function.comp_def, Body.position] using congrArg (List.map Prod.snd) h
  rw [mean, mean, hx, hy, hlength]

theorem mean_sub {β : Type} {f : β → K} {l : List β} (h : l ≠ []) (a : K) :
    (l.map fun b => f b - a).sum / l.length = (l.map f).sum / l.length - a := by
  have hlength : (l.length : K) ≠ 0 := Nat.cast_ne_zero.2 (mt List.length_eq_zero_iff.1 h)
  simp only [sub_eq_add_neg, List.sum_map_add, List.map_const', List.sum_replicate, nsmul_eq_mul]
  rw [add_div, mul_div_cancel_left₀ _ hlength]

theorem mean_recentre (cx cy : K) {bodies : List (Body K)} (h : bodies ≠ []) :
    mean (recentre cx cy bodies) = (cx, cy) := by
  rw [recentre, if_neg (mt List.isEmpty_iff.1 h)]
  simp only [mean, List.map_map, List.length_map, Scalar.sum_eq, Scalar.ofNat_eq]
  refine Prod.ext ?_ ?_
  · exact (mean_sub h _).trans (sub_sub_cancel _ _)
  · exact (mean_sub h _).trans (sub_sub_cancel _ _)

private theorem momentum_recentre (cx cy : K) (bodies : List (Body K)) :
    momentum (recentre cx cy bodies) = momentum bodies := by
  unfold recentre
  split
  · rfl
  · simp only [momentum, List.map_map]
    rfl

theorem Body.move_of_free {b : Body K} (h : b.hold = (none, none)) (keep : K) :
    b.move keep = { b with x := b.x + b.vx * keep, y := b.y + b.vy * keep
                           vx := b.vx * keep, vy := b.vy * keep } := by
  obtain ⟨hx, hy⟩ := Prod.mk.inj h
  simp only [move, hx, hy]

theorem momentum_eq (bodies : List (Body K)) :
    momentum bodies = ((bodies.map Body.vx).sum, (bodies.map Body.vy).sum) := by
  induction bodies with
  | nil => rfl
  | cons b rest ih =>
    rw [momentum_cons, ih]
    rfl

theorem sum_of_drift {β : Type} {f g v : β → K} {l : List β} {keep : K}
    (hg : ∀ b ∈ l, g b = f b + v b * keep) (hv : (l.map v).sum = 0) :
    (l.map g).sum = (l.map f).sum := by
  rw [List.map_congr_left hg, List.sum_map_add, List.sum_map_mul_right, hv, zero_mul, add_zero]

section Free

variable {bodies : List (Body K)} (hfree : ∀ b ∈ bodies, b.hold = (none, none))
  (hrest : momentum bodies = 0)

include hfree hrest

private theorem mean_move (keep : K) : mean (bodies.map (Body.move keep)) = mean bodies := by
  obtain ⟨hvx, hvy⟩ := Prod.mk.inj ((momentum_eq bodies).symm.trans hrest)
  have hx : (bodies.map fun b => (b.move keep).x).sum = (bodies.map Body.x).sum :=
    sum_of_drift (fun b hb => by rw [Body.move_of_free (hfree b hb)]) hvx
  have hy : (bodies.map fun b => (b.move keep).y).sum = (bodies.map Body.y).sum :=
    sum_of_drift (fun b hb => by rw [Body.move_of_free (hfree b hb)]) hvy
  simp only [mean, List.map_map, List.length_map, Function.comp_def, hx, hy]

private theorem momentum_move (keep : K) : momentum (bodies.map (Body.move keep)) = 0 := by
  obtain ⟨hvx, hvy⟩ := Prod.mk.inj ((momentum_eq bodies).symm.trans hrest)
  have hx : bodies.map (Body.vx ∘ Body.move keep) = bodies.map fun b => b.vx * keep :=
    List.map_congr_left fun b hb => by rw [Function.comp, Body.move_of_free (hfree b hb)]
  have hy : bodies.map (Body.vy ∘ Body.move keep) = bodies.map fun b => b.vy * keep :=
    List.map_congr_left fun b hb => by rw [Function.comp, Body.move_of_free (hfree b hb)]
  rw [momentum_eq, List.map_map, List.map_map, hx, hy, List.sum_map_mul_right,
    List.sum_map_mul_right, hvx, hvy, zero_mul]
  rfl

end Free

private theorem Body.velocity_place (i : Nat) (b : Body K) : (b.place i).velocity = 0 := by
  unfold place
  dsimp only
  split <;> rfl

namespace Simulation

variable {s : Simulation K γ}

structure Balanced (s : Simulation K γ) : Prop where
  springs : s.springs = []
  bodies : s.bodies ≠ []
  free : ∀ b ∈ s.bodies, b.hold = (none, none)
  momentum : momentum s.bodies = 0

omit [ExactScalar K] in
theorem free_of_map_hold {bodies others : List (Body K)}
    (h : others.map Body.hold = bodies.map Body.hold)
    (hfree : ∀ b ∈ bodies, b.hold = (none, none)) : ∀ b ∈ others, b.hold = (none, none) := by
  rw [← List.forall_mem_map (P := (· = (none, none)))] at hfree ⊢
  rwa [h]

omit [Generator γ] in
private theorem balanced_start {bodies : List (Body K)} (hne : bodies ≠ [])
    (hfree : ∀ b ∈ bodies, b.hold = (none, none)) (physics : Physics K) (g : γ) :
    Balanced (start bodies [] physics g) where
  springs := rfl
  bodies := by simpa [start] using hne
  free := by
    intro b hb
    obtain ⟨i, hi, rfl⟩ := List.mem_mapIdx.1 hb
    rw [Body.hold_place]
    exact hfree _ (List.getElem_mem hi)
  momentum := by
    refine List.sum_eq_zero fun v hv => ?_
    obtain ⟨b, hb, rfl⟩ := List.mem_map.1 hv
    obtain ⟨i, hi, rfl⟩ := List.mem_mapIdx.1 hb
    exact Body.velocity_place i _

section Root

variable (hroot : ∀ a : K, 0 < a → 0 < Scalar.sqrt a)

include hroot

theorem Balanced.forces (h : Balanced s) (hspread : Spread s.bodies) (alpha : K) :
    Layout.momentum (s.forces alpha).value = 0 ∧
      mean (s.forces alpha).value = (s.physics.cx, s.physics.cy) := by
  obtain ⟨hended, hmomentum⟩ :=
    momentum_repel hroot hspread (s.physics.charge * alpha) s.generator
  have hposition := Body.unpushed_position.map_repelFrom (s.physics.charge * alpha) [] s.bodies
    s.generator
  have hne : (repel (s.physics.charge * alpha) s.bodies s.generator).value ≠ [] := by
    intro hnil
    rw [← repel, hnil] at hposition
    exact h.bodies (List.map_eq_nil_iff.1 hposition.symm)
  have hpulled : Spring.actAll alpha s.physics.distance s.springs s.bodies s.generator =
      ⟨s.bodies, s.generator, false⟩ := by
    rw [h.springs]
    rfl
  rw [Simulation.forces, hpulled]
  dsimp only
  rw [if_neg Bool.false_ne_true, if_neg (ne_true_of_eq_false hended)]
  constructor
  · rw [momentum_collide, momentum_recentre, hmomentum, h.momentum]
  · rw [mean_congr (Body.unpushed_position.map_collide _ _ _), mean_recentre _ _ hne]

theorem Balanced.tick (h : Balanced s) (hspread : Spread s.bodies) :
    Balanced s.tick.1 ∧ mean s.tick.1.bodies = (s.physics.cx, s.physics.cy) := by
  obtain ⟨hmomentum, hmean⟩ := h.forces hroot hspread s.cooling.tick.alpha
  have hhold := s.map_hold_forces s.cooling.tick.alpha
  have hfree := free_of_map_hold hhold h.free
  have hne : (s.forces s.cooling.tick.alpha).value ≠ [] := by
    intro hnil
    rw [hnil] at hhold
    exact h.bodies (List.map_eq_nil_iff.1 hhold.symm)
  unfold Simulation.tick
  dsimp only
  split
  · exact ⟨⟨h.springs, hne, hfree, hmomentum⟩, hmean⟩
  · refine ⟨⟨h.springs, mt List.map_eq_nil_iff.1 hne, ?_, momentum_move hfree hmomentum _⟩,
      (mean_move hfree hmomentum _).trans hmean⟩
    exact free_of_map_hold (by rw [List.map_map]; rfl) hfree

private theorem Balanced.mean_after (h : Balanced s) {operations : List Operation}
    (hspread : ∀ n, operations[n]? = some .tick → Spread (s.after (operations.take n)).bodies)
    (hmean : .tick ∈ operations ∨ mean s.bodies = (s.physics.cx, s.physics.cy)) :
    mean (s.after operations).bodies = (s.physics.cx, s.physics.cy) := by
  induction operations generalizing s with
  | nil => exact hmean.resolve_left List.not_mem_nil
  | cons op rest ih =>
    have hlater := fun n => hspread (n + 1)
    cases op with
    | tick =>
      obtain ⟨hnext, hcentre⟩ := h.tick hroot (hspread 0 rfl)
      rw [← s.physics_tick] at hcentre ⊢
      exact ih hnext hlater (.inr hcentre)
    | reheat =>
      exact ih ⟨h.springs, h.bodies, h.free, h.momentum⟩ hlater (hmean.imp_left (by simp))
    | cool =>
      exact ih ⟨h.springs, h.bodies, h.free, h.momentum⟩ hlater (hmean.imp_left (by simp))

end Root

/-- Collisions leave the sums of the speeds as they are, whatever the bodies, and so does the
repulsion of bodies no two of which share a coordinate; centring brings the mean to the centre.
So in a layout of free bodies without springs whose ticks all begin with such bodies, the mean lies
at the centre from the first tick on. -/
theorem mean_at_centre (hroot : ∀ a : K, 0 < a → 0 < Scalar.sqrt a) :
    (∀ (radius : K) (bodies : List (Body K)) (g : γ),
      Layout.momentum (collide radius bodies g).value = Layout.momentum bodies) ∧
    (∀ (charge : K) (bodies : List (Body K)) (g : γ), Spread bodies →
      (repel charge bodies g).stalled = false ∧
        Layout.momentum (repel charge bodies g).value = Layout.momentum bodies) ∧
    (∀ (cx cy : K) (bodies : List (Body K)), bodies ≠ [] →
      mean (recentre cx cy bodies) = (cx, cy)) ∧
    ∀ (bodies : List (Body K)) (physics : Physics K) (g : γ) (operations : List Operation),
      bodies ≠ [] → (∀ b ∈ bodies, b.fx = none ∧ b.fy = none) →
      let s := start bodies [] physics g
      (∀ n, operations[n]? = some .tick → Spread (s.after (operations.take n)).bodies) →
      .tick ∈ operations → mean (s.after operations).bodies = (physics.cx, physics.cy) := by
  refine ⟨momentum_collide, fun charge bodies g hspread => momentum_repel hroot hspread charge g,
    fun cx cy bodies hne => mean_recentre cx cy hne,
    fun bodies physics g operations hne hfree => ?_⟩
  intro s hspread htick
  have hhold : ∀ b ∈ bodies, b.hold = (none, none) := fun b hb =>
    Prod.ext (hfree b hb).1 (hfree b hb).2
  exact (balanced_start hne hhold physics g).mean_after hroot hspread (.inl htick)

section Fractions

attribute [local instance] ExactScalar.plain

def scattered : List (Body Rat) :=
  [⟨1, 2, 0, 0, none, none⟩, ⟨3, 5, 0, 0, none, none⟩, ⟨-4, 7, 0, 0, none, none⟩]

theorem mean_scattered :
    let s := start scattered [] canvas ()
    let operations : List Operation := [.tick, .reheat, .tick]
    (∀ a : Rat, 0 < a → 0 < Scalar.sqrt a) ∧ scattered ≠ [] ∧
    (∀ b ∈ scattered, b.fx = none ∧ b.fy = none) ∧
    (∀ n, operations[n]? = some .tick → Spread (s.after (operations.take n)).bodies) ∧
    mean (s.after operations).bodies = (400, 300) := by
  intro s operations
  have hroot : ∀ a : Rat, 0 < a → 0 < Scalar.sqrt a := fun _ hpos => hpos
  have hne : scattered ≠ [] := List.cons_ne_nil _ _
  have hfree : ∀ b ∈ scattered, b.fx = none ∧ b.fy = none := by simp [scattered]
  have hspread : ∀ n, operations[n]? = some .tick →
      Spread (s.after (operations.take n)).bodies := by
    intro n htick
    match n with
    | 0 => decide +kernel
    | 1 => cases htick
    | 2 => decide +kernel
    | n + 3 => cases htick
  obtain ⟨-, -, -, hcentre⟩ := mean_at_centre (γ := Unit) hroot
  have htick : .tick ∈ operations := List.mem_cons_self
  exact ⟨hroot, hne, hfree, hspread, hcentre _ _ () _ hne hfree hspread htick⟩

end Fractions

end Simulation

end CodeAtlas.Layout
