import Mathlib
import CodeAtlas.Proofs.Layout.Cooling

/-! The quotients of a layout in exact arithmetic. The strength and the bias of a spring are
quotients of the numbers of ends at its two bodies, which are never zero; and however the bodies
lie, all that a tick divides by is positive. -/
namespace CodeAtlas.Layout

/-- How often links begin or end at a body; a link from a body to itself does both. -/
def degree (links : List (Nat × Nat)) (i : Nat) : Nat :=
  (links.map Prod.fst).count i + (links.map Prod.snd).count i

private theorem degree_cons (link : Nat × Nat) (rest : List (Nat × Nat)) (i : Nat) :
    degree (link :: rest) i =
      (if link.1 = i then 1 else 0) + (if link.2 = i then 1 else 0) + degree rest i := by
  simp only [degree, List.map_cons, List.count_cons, beq_iff_eq]
  omega

theorem countEnd_eq (counts : Nat → Nat) (i j : Nat) :
    countEnd counts i j = counts j + if i = j then 1 else 0 := by
  simp only [countEnd, eq_comm (a := j)]
  split
  · rfl
  · rfl

theorem endCounts_eq (links : List (Nat × Nat)) : endCounts links = degree links := by
  have hfrom (counts : Nat → Nat) (i : Nat) :
      links.foldl (fun counts link => countEnd (countEnd counts link.1) link.2) counts i =
        counts i + degree links i := by
    induction links generalizing counts with
    | nil => rfl
    | cons link rest ih =>
      rw [List.foldl_cons, ih, countEnd_eq, countEnd_eq, degree_cons]
      omega
  exact funext fun i => (hfrom _ i).trans (Nat.zero_add _)

theorem degree_pos {links : List (Nat × Nat)} {link : Nat × Nat} (h : link ∈ links) :
    0 < degree links link.1 ∧ 0 < degree links link.2 :=
  ⟨Nat.add_pos_left (List.count_pos_iff.2 (List.mem_map_of_mem h)) _,
    Nat.add_pos_right _ (List.count_pos_iff.2 (List.mem_map_of_mem h))⟩

private theorem linkDivisors_pos (links : List (Nat × Nat)) :
    ∀ d ∈ Spring.linkDivisors links, 0 < d := by
  intro d hd
  obtain ⟨link, hlink, hd⟩ := List.mem_flatMap.1 hd
  obtain ⟨hsource, htarget⟩ := degree_pos hlink
  rw [← endCounts_eq] at hsource htarget
  simp only [List.mem_cons, List.not_mem_nil, or_false] at hd
  rcases hd with rfl | rfl
  · exact lt_min hsource htarget
  · exact Nat.add_pos_left hsource _

variable {K γ : Type} [ExactScalar K] [Generator γ]

/-- A spring that pulls with a positive share of its stretch, and moves both of its ends. -/
structure Spring.Moderate (s : Spring K) : Prop where
  strength_pos : 0 < s.strength
  strength_le_one : s.strength ≤ 1
  bias_pos : 0 < s.bias
  bias_lt_one : s.bias < 1

private theorem moderate_ofLinks (links : List (Nat × Nat)) :
    ∀ s ∈ (Spring.ofLinks links : List (Spring K)), s.Moderate := by
  intro s hs
  obtain ⟨link, hlink, rfl⟩ := List.mem_map.1 hs
  obtain ⟨hsource, htarget⟩ := degree_pos hlink
  rw [endCounts_eq]
  generalize degree links link.1 = s at hsource
  generalize degree links link.2 = t at htarget
  have hmin : (1 : K) ≤ (min s t : Nat) := Nat.one_le_cast.2 (le_min hsource htarget)
  have hs : (0 : K) < s := Nat.cast_pos.2 hsource
  have hsum : (s : K) < (s + t : Nat) := Nat.cast_lt.2 (Nat.lt_add_of_pos_right htarget)
  constructor
  · simp only [Scalar.ofRatio_eq, Int.cast_one]
    exact one_div_pos.2 (zero_lt_one.trans_le hmin)
  · simp only [Scalar.ofRatio_eq, Int.cast_one]
    exact div_le_one_of_le₀ hmin (zero_le_one.trans hmin)
  · simp only [Scalar.ofRatio_eq, Int.cast_natCast]
    exact div_pos hs (hs.trans hsum)
  · simp only [Scalar.ofRatio_eq, Int.cast_natCast]
    exact (div_lt_one (hs.trans hsum)).2 hsum

namespace Simulation

/-- The numbers of ends at the two bodies of a link are their degrees, at least one, so that new
springs have strengths up to one and biases between zero and one. A tick is ended by a division by
zero exactly if zero is among its divisors. If the root of a positive number is positive and none of
the random numbers that a tick can draw is zero, all its divisors are positive, whatever the bodies
and the springs are; so a new layout comes to the end of as many ticks as it has such random numbers
for, whatever else is done to it between them. -/
theorem divides_by_positive (hroot : ∀ a : K, 0 < a → 0 < Scalar.sqrt a) :
    (∀ links : List (Nat × Nat),
      (∀ link ∈ links, ∀ i ∈ [link.1, link.2],
        endCounts links i = degree links i ∧ 1 ≤ endCounts links i) ∧
      (∀ d ∈ Spring.linkDivisors links, 0 < d) ∧
      ∀ spring ∈ (Spring.ofLinks links : List (Spring K)), spring.Moderate) ∧
    (∀ s : Simulation K γ, (s.tick.2 = true ↔ 0 ∈ s.divisors) ∧
      ∀ n, Generator.Lively (n + s.mostDraws) s.generator →
        (∀ d ∈ s.divisors, 0 < d) ∧ s.tick.2 = false ∧
          Generator.Lively n s.tick.1.generator) ∧
    ∀ (bodies : List (Body K)) (links : List (Nat × Nat)) (physics : Physics K) (generator : γ)
      (operations : List Operation) (more : Nat),
      let fresh := start bodies links physics generator
      let now := fresh.after operations
      Generator.Lively ((operations.count .tick + (more + 1)) * fresh.mostDraws) generator →
      (∀ d ∈ now.divisors, 0 < d) ∧ now.tick.2 = false ∧
        ∀ limit ≤ more + 1, (now.run limit).2.2 = false := by
  refine ⟨fun links => ⟨fun link hlink i hi => ?_, linkDivisors_pos links, moderate_ofLinks links⟩,
    fun s => ⟨s.stalled_tick, fun n h => ⟨?_, completed_tick hroot h⟩⟩,
    fun bodies links physics generator operations more => ?_⟩
  · obtain ⟨hsource, htarget⟩ := degree_pos hlink
    rw [endCounts_eq]
    simp only [List.mem_cons, List.not_mem_nil, or_false] at hi
    rcases hi with rfl | rfl
    · exact ⟨rfl, hsource⟩
    · exact ⟨rfl, htarget⟩
  · exact divisors_pos hroot (h.mono (Nat.le_add_left _ n))
  · intro fresh now h
    have hnow : Generator.Lively ((more + 1) * now.mostDraws) now.generator := by
      rw [mostDraws_after]
      exact lively_after hroot h
    have hrun (limit : Nat) (hlimit : limit ≤ more + 1) : (now.run limit).2.2 = false :=
      completed_run hroot (hnow.mono (Nat.mul_le_mul_right _ hlimit))
    rw [Nat.succ_mul] at hnow
    exact ⟨divisors_pos hroot (hnow.mono (Nat.le_add_left _ _)), (completed_tick hroot hnow).1,
      hrun⟩

section Fractions

attribute [local instance] ExactScalar.plain

/-- Bodies in one place, the last of them held there. -/
def coincident : List (Body Rat) :=
  [⟨5, 5, 0, 0, none, none⟩, ⟨5, 5, 1, -1, none, none⟩, ⟨0, 0, 0, 0, some 5, some 5⟩]

/-- A link, the reverse of it, the link once more, and one from a body to itself. -/
def knotted : List (Nat × Nat) := [(0, 1), (1, 0), (0, 1), (2, 2)]

/-- Bodies without a charge, which stay near enough to collide. -/
def still : Physics Rat := ⟨0, 0, 30, 400, 300⟩

/-- The first tick divides for four springs, six repulsions, a mean and two collisions. Three ticks
come to their end, although the generator goes on to draw nothing but the middle number. -/
theorem coincident_divides :
    let fresh := start coincident knotted still (List.replicate 78 0)
    let now := fresh.after [.tick, .reheat, .tick]
    (∀ a : Rat, 0 < a → 0 < Scalar.sqrt a) ∧ fresh.mostDraws = 26 ∧
    Generator.Lively 78 (List.replicate 78 0) ∧ ¬Generator.Lively 79 (List.replicate 78 0) ∧
    [0, 1, 2].map (endCounts knotted) = [3, 3, 2] ∧
    fresh.divisors.length = 14 ∧ (∀ d ∈ now.divisors, 0 < d) ∧ now.tick.2 = false := by
  intro fresh now
  have hroot : ∀ a : Rat, 0 < a → 0 < Scalar.sqrt a := fun _ hpos => hpos
  have hlively := Generator.lively_replicate 78
  obtain ⟨-, -, hruns⟩ := divides_by_positive (γ := List Nat) hroot
  obtain ⟨hpos, hended, -⟩ :=
    hruns coincident knotted still (List.replicate 78 0) [.tick, .reheat, .tick] 0 hlively
  exact ⟨hroot, rfl, hlively, by decide, by decide, by decide +kernel, hpos, hended⟩

end Fractions

end Simulation

end CodeAtlas.Layout
