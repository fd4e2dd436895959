import CodeAtlas.Layout.Body

/-!
The forces between bodies: all repel one another, bodies that come too close push each other apart,
and all are moved together so that their mean lies at the centre.
-/
namespace CodeAtlas.Layout

variable {α γ : Type} [Scalar α] [Generator γ]

/-- What the repulsion over a distance of `x` and `y` is divided by. Below distance one the force
grows more slowly. -/
def repulsionDivisor (x y : α) : α :=
  let square := x * x + y * y
  if Scalar.less square Scalar.one then Scalar.sqrt square else square

def repelOne (charge : α) : Body α → List (Body α) → γ → Swept (Body α) γ
  | b, [], g => ⟨b, g, false⟩
  | b, other :: others, g =>
    let (x, g) := orJiggle (other.x - b.x) g
    let (y, g) := orJiggle (other.y - b.y) g
    match Scalar.div? charge (repulsionDivisor x y) with
    | none => ⟨b, g, true⟩
    | some weight => repelOne charge (b.push (x * weight) (y * weight)) others g

def repelFrom (charge : α) (done : List (Body α)) :
    List (Body α) → γ → Swept (List (Body α)) γ
  | [], g => ⟨done, g, false⟩
  | b :: rest, g =>
    let swept := repelOne charge b (done ++ rest) g
    if swept.stalled then ⟨done ++ swept.value :: rest, swept.generator, true⟩
    else repelFrom charge (done ++ [swept.value]) rest swept.generator

def repel (charge : α) (bodies : List (Body α)) (generator : γ) : Swept (List (Body α)) γ :=
  repelFrom charge [] bodies generator

/-- Moves all bodies, if there are any, so that their mean lies at the centre. -/
def recentre (cx cy : α) (bodies : List (Body α)) : List (Body α) :=
  if bodies.isEmpty then bodies else
  let count : α := Scalar.ofNat bodies.length
  let sx := Scalar.sum (bodies.map Body.x) / count - cx
  let sy := Scalar.sum (bodies.map Body.y) / count - cy
  bodies.map fun b => { b with x := b.x - sx, y := b.y - sy }

/-- The distance of two bodies that collide. A difference of zero, for which a random number stands,
adds the square of that. -/
def collisionDistance (x x' y y' : α) : α :=
  let square := x * x + y * y
  let square := if Scalar.same x Scalar.zero then square + x' * x' else square
  let square := if Scalar.same y Scalar.zero then square + y' * y' else square
  Scalar.sqrt square

/-- One body against others: each pair that will be nearer than `reach` pushes itself apart, half
of the way each. The place of the first body is the one it had before the first push. -/
def collideOne (reach x₀ y₀ : α) :
    Body α → List (Body α) → γ → Swept (Body α × List (Body α)) γ
  | b, [], g => ⟨(b, []), g, false⟩
  | b, other :: others, g =>
    let x := x₀ - other.x - other.vx
    let y := y₀ - other.y - other.vy
    if Scalar.atMost (reach * reach) (x * x + y * y) then
      let swept := collideOne reach x₀ y₀ b others g
      ⟨(swept.value.1, other :: swept.value.2), swept.generator, swept.stalled⟩
    else
      let (x', g) := orJiggle x g
      let (y', g) := orJiggle y g
      let distance := collisionDistance x x' y y'
      match Scalar.div? (reach - distance) distance with
      | none => ⟨(b, other :: others), g, true⟩
      | some overlap =>
        let force := overlap * Scalar.half
        let swept := collideOne reach x₀ y₀ (b.push (x' * force) (y' * force)) others g
        ⟨(swept.value.1, other.pull (x' * force) (y' * force) :: swept.value.2),
          swept.generator, swept.stalled⟩

theorem length_collideOne (reach x₀ y₀ : α) (b : Body α) (others : List (Body α)) (g : γ) :
    (collideOne reach x₀ y₀ b others g).value.2.length = others.length := by
  fun_induction collideOne reach x₀ y₀ b others g <;> simp_all +zetaDelta

/-- Every body in turn against those behind it. -/
def collideAll (reach : α) : List (Body α) → γ → Swept (List (Body α)) γ
  | [], g => ⟨[], g, false⟩
  | b :: rest, g =>
    let swept := collideOne reach (b.x + b.vx) (b.y + b.vy) b rest g
    if swept.stalled then ⟨swept.value.1 :: swept.value.2, swept.generator, true⟩
    else
      let tail := collideAll reach swept.value.2 swept.generator
      ⟨swept.value.1 :: tail.value, tail.generator, tail.stalled⟩
termination_by bodies => bodies.length
decreasing_by simp [length_collideOne]

/-- Bodies have a radius; without a positive one they do not collide. -/
def collide (radius : α) (bodies : List (Body α)) (generator : γ) : Swept (List (Body α)) γ :=
  if Scalar.atMost radius Scalar.zero then ⟨bodies, generator, false⟩
  else collideAll (radius + radius) bodies generator

end CodeAtlas.Layout
