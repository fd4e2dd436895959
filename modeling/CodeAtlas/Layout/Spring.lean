import CodeAtlas.Layout.Body

/-!
Springs between bodies. A spring draws its two ends towards a given distance; the end with more
springs moves less.
-/
namespace CodeAtlas.Layout

variable {α γ : Type} [Scalar α] [Generator γ]

/-- A spring between two positions in the list of bodies. -/
structure Spring (α : Type) where
  source : Nat
  target : Nat
  strength : α
  bias : α

def countEnd (counts : Nat → Nat) (i : Nat) : Nat → Nat :=
  fun j => if j = i then counts j + 1 else counts j

/-- The numbers of ends that lie at bodies, counted link by link; a spring from a body to itself
has two there. -/
def endCounts (links : List (Nat × Nat)) : Nat → Nat :=
  links.foldl (fun counts link => countEnd (countEnd counts link.1) link.2) fun _ => 0

def Spring.ofLinks (links : List (Nat × Nat)) : List (Spring α) :=
  let counts := endCounts links
  links.map fun link =>
    let s := counts link.1
    let t := counts link.2
    { source := link.1
      target := link.2
      strength := Scalar.ofRatio 1 (min s t)
      bias := Scalar.ofRatio s (s + t) }

def Spring.act (alpha distance : α) (s : Spring α) (swept : Swept (List (Body α)) γ) :
    Swept (List (Body α)) γ :=
  if swept.stalled then swept else
  match swept.value[s.source]?, swept.value[s.target]? with
  | some a, some b =>
    let (x, g) := orJiggle (b.x + b.vx - a.x - a.vx) swept.generator
    let (y, g) := orJiggle (b.y + b.vy - a.y - a.vy) g
    let length := Scalar.sqrt (x * x + y * y)
    match Scalar.div? (length - distance) length with
    | none => ⟨swept.value, g, true⟩
    | some stretch =>
      let force := stretch * alpha * s.strength
      let x := x * force
      let y := y * force
      let rest := Scalar.one - s.bias
      let pulled := swept.value.modify s.target (·.pull (x * s.bias) (y * s.bias))
      ⟨pulled.modify s.source (·.push (x * rest) (y * rest)), g, false⟩
  | _, _ => swept

/-- The springs act one after another, each on what the ones before it left. -/
def Spring.actAll (alpha distance : α) (all : List (Spring α)) (bodies : List (Body α))
    (generator : γ) : Swept (List (Body α)) γ :=
  all.foldl (fun swept s => s.act alpha distance swept) ⟨bodies, generator, false⟩

end CodeAtlas.Layout
