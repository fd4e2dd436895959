import Mathlib
import CodeAtlas.Proofs.Layout.Division
import CodeAtlas.Proofs.Layout.Hold

/-! The temperature of a layout in exact arithmetic, whatever share of the way it moves in a tick
and wherever its floor lies up to the warm target. A reheated layout never falls below its floor;
one whose target is zero cools without end, and falls below any floor. -/
namespace CodeAtlas.Layout

namespace Simulation

/-- What is done to a layout from outside. -/
inductive Operation where
  | tick | reheat | cool
deriving DecidableEq

variable {α γ : Type} [Scalar α] [Generator γ]

/-- A tick that divides by zero leaves what it has done by then. -/
def apply (s : Simulation α γ) : Operation → Simulation α γ
  | .tick => s.tick.1
  | .reheat => s.reheat Cooling.warmTarget
  | .cool => s.cool

def after (s : Simulation α γ) (operations : List Operation) : Simulation α γ :=
  operations.foldl apply s

theorem after_induction (P : Simulation α γ → Prop) {s : Simulation α γ}
    {operations : List Operation} (hs : P s)
    (hstep : ∀ t, ∀ op ∈ operations, P t → P (t.apply op)) : P (s.after operations) :=
  List.foldlRecOn operations apply hs fun t ht op hop => hstep t op hop ht

/-- A number of ticks, one after another. -/
def ticking (n : Nat) : List Operation := List.replicate n .tick

private theorem run_cases {s : Simulation α γ} {limit : Nat} (h : (s.run limit).2.2 = false) :
    (s.run limit).1.settled = true ∨ (s.run limit).1 = s.after (ticking limit) := by
  induction limit generalizing s with
  | zero => exact .inr rfl
  | succ limit ih =>
    rw [run] at h ⊢
    split at h
    · next hsettled =>
      rw [if_pos hsettled]
      exact .inl hsettled
    · next hsettled =>
      rw [if_neg hsettled]
      have hlater : s.after (ticking (limit + 1)) = s.tick.1.after (ticking limit) := rfl
      rw [hlater]
      generalize s.tick = result at h
      obtain ⟨next, stalled⟩ := result
      cases stalled with
      | true => cases h
      | false => exact ih h

end Simulation

open Simulation

namespace Cooling

/-- The temperature alone under an operation. -/
def apply {α : Type} [Scalar α] (c : Cooling α) : Operation → Cooling α
  | .tick => c.tick
  | .reheat => c.reheat warmTarget
  | .cool => c.cool

variable {K : Type} [ExactScalar K] {c : Cooling K}

theorem warmTarget_eq : (warmTarget : K) = 3 / 10 := by
  rw [warmTarget, Scalar.ofRatio_eq]
  norm_num

theorem warmTarget_le_one : (warmTarget : K) ≤ 1 := by
  rw [warmTarget_eq]
  norm_num

theorem settled_iff : c.settled = true ↔ c.alpha < c.floor := Scalar.less_iff

theorem alpha_tick (c : Cooling K) :
    c.tick.alpha = (1 - c.decay) * c.alpha + c.decay * c.target := by
  rw [tick]
  ring

structure Regular (c : Cooling K) : Prop where
  decay_pos : 0 < c.decay
  decay_lt_one : c.decay < 1
  floor_pos : 0 < c.floor
  floor_le_warm : c.floor ≤ warmTarget
  alpha_pos : 0 < c.alpha
  alpha_le_one : c.alpha ≤ 1
  target : c.target = 0 ∨ c.target = warmTarget ∧ c.floor ≤ c.alpha

theorem Regular.initial {floor decay : K} (hdecay : 0 < decay ∧ decay < 1)
    (hfloor : 0 < floor ∧ floor ≤ warmTarget) : Regular { initial with floor, decay } where
  decay_pos := hdecay.1
  decay_lt_one := hdecay.2
  floor_pos := hfloor.1
  floor_le_warm := hfloor.2
  alpha_pos := one_pos
  alpha_le_one := le_refl 1
  target := .inl rfl

private theorem Regular.target_nonneg (h : Regular c) : 0 ≤ c.target := by
  rcases h.target with hcold | ⟨hwarm, -⟩
  · exact hcold.ge
  · rw [hwarm]
    exact (h.floor_pos.trans_le h.floor_le_warm).le

private theorem Regular.target_le_one (h : Regular c) : c.target ≤ 1 := by
  rcases h.target with hcold | ⟨hwarm, -⟩
  · rw [hcold]
    exact zero_le_one
  · rw [hwarm]
    exact warmTarget_le_one

theorem Regular.tick (h : Regular c) : Regular c.tick := by
  have hkeep : 0 < 1 - c.decay := sub_pos.2 h.decay_lt_one
  have hdecay : 0 < c.decay := h.decay_pos
  refine ⟨h.decay_pos, h.decay_lt_one, h.floor_pos, h.floor_le_warm, ?_, ?_, ?_⟩
  · rw [alpha_tick]
    exact add_pos_of_pos_of_nonneg (mul_pos hkeep h.alpha_pos)
      (mul_nonneg hdecay.le h.target_nonneg)
  · calc c.tick.alpha = (1 - c.decay) * c.alpha + c.decay * c.target := alpha_tick c
      _ ≤ (1 - c.decay) * 1 + c.decay * 1 := by
        gcongr
        · exact h.alpha_le_one
        · exact h.target_le_one
      _ = 1 := by ring
  · -- Neither the temperature nor a warm target lies below the floor, so their mean does not.
    refine h.target.imp_right fun ⟨hwarm, hfloor⟩ => ⟨hwarm, ?_⟩
    calc c.floor = (1 - c.decay) * c.floor + c.decay * c.floor := by ring
      _ ≤ (1 - c.decay) * c.alpha + c.decay * c.target := by
        gcongr
        rw [hwarm]
        exact h.floor_le_warm
      _ = c.tick.alpha := (alpha_tick c).symm

theorem Regular.reheat (h : Regular c) : Regular (c.reheat warmTarget) := by
  unfold Cooling.reheat
  by_cases hsettled : c.settled = true
  · rw [if_pos hsettled]
    exact { h with
      alpha_pos := h.floor_pos
      alpha_le_one := h.floor_le_warm.trans warmTarget_le_one
      target := .inr ⟨rfl, le_refl c.floor⟩ }
  · rw [if_neg hsettled]
    exact { h with target := .inr ⟨rfl, not_lt.1 (mt settled_iff.2 hsettled)⟩ }

theorem Regular.cool (h : Regular c) : Regular c.cool :=
  { h with target := .inl rfl }

theorem Regular.apply (h : Regular c) (op : Operation) : Regular (c.apply op) := by
  cases op with
  | tick => exact h.tick
  | reheat => exact h.reheat
  | cool => exact h.cool

theorem Regular.not_settled_of_warm (h : Regular c) (hwarm : c.target = warmTarget) :
    c.settled = false := by
  have hfloor : c.floor ≤ c.alpha := by
    rcases h.target with hcold | ⟨-, hfloor⟩
    · exact absurd (hcold.symm.trans hwarm) (h.floor_pos.trans_le h.floor_le_warm).ne
    · exact hfloor
  exact Bool.eq_false_of_not_eq_true (mt settled_iff.1 (not_lt.2 hfloor))

private theorem Regular.cold_of_settled (h : Regular c) (hsettled : c.settled = true) :
    c.target = 0 := by
  rcases h.target with hcold | ⟨hwarm, -⟩
  · exact hcold
  · rw [h.not_settled_of_warm hwarm] at hsettled
    cases hsettled

theorem alpha_tick_of_cold (hcold : c.target = 0) : c.tick.alpha = (1 - c.decay) * c.alpha := by
  rw [alpha_tick, hcold, mul_zero, add_zero]

theorem Regular.alpha_tick_lt (h : Regular c) (hcold : c.target = 0) : c.tick.alpha < c.alpha := by
  rw [alpha_tick_of_cold hcold]
  exact mul_lt_of_lt_one_left h.alpha_pos (sub_lt_self 1 h.decay_pos)

private theorem Regular.settled_apply (h : Regular c) (hsettled : c.settled = true) {op : Operation}
    (hop : op ≠ .reheat) : (c.apply op).settled = true := by
  cases op with
  | tick =>
    have hlower := h.alpha_tick_lt (h.cold_of_settled hsettled)
    exact settled_iff.2 (hlower.trans (settled_iff.1 hsettled))
  | reheat => exact absurd rfl hop
  | cool => exact hsettled

private theorem target_apply_of_warm (hwarm : c.target = warmTarget) {op : Operation}
    (hop : op ≠ .cool) : (c.apply op).target = warmTarget := by
  cases op with
  | tick => exact hwarm
  | reheat => rfl
  | cool => exact absurd rfl hop

end Cooling

namespace Simulation

variable {K γ : Type} [ExactScalar K] [Generator γ] {s : Simulation K γ}

theorem cooling_apply (s : Simulation K γ) (op : Operation) :
    (s.apply op).cooling = s.cooling.apply op := by
  cases op with
  | tick => exact s.cooling_tick
  | reheat => rfl
  | cool => rfl

theorem regular_after (h : s.cooling.Regular) (operations : List Operation) :
    (s.after operations).cooling.Regular := by
  refine after_induction (·.cooling.Regular) h fun t op _ ht => ?_
  rw [cooling_apply]
  exact ht.apply op

private theorem settled_after (h : s.cooling.Regular) (hsettled : s.settled = true)
    {later : List Operation} (hlater : .reheat ∉ later) : (s.after later).settled = true := by
  refine (after_induction (fun t => t.cooling.Regular ∧ t.settled = true) ⟨h, hsettled⟩
    fun t op hop ht => ?_).2
  rw [settled, cooling_apply]
  exact ⟨ht.1.apply op, ht.1.settled_apply ht.2 (ne_of_mem_of_not_mem hop hlater)⟩

private theorem warm_after (hwarm : s.cooling.target = Cooling.warmTarget) {later : List Operation}
    (hlater : .cool ∉ later) : (s.after later).cooling.target = Cooling.warmTarget := by
  refine after_induction (·.cooling.target = Cooling.warmTarget) hwarm fun t op hop ht => ?_
  rw [cooling_apply]
  exact Cooling.target_apply_of_warm ht (ne_of_mem_of_not_mem hop hlater)

private theorem cooling_ticking (hcold : s.cooling.target = 0) (n : Nat) :
    (s.after (ticking n)).cooling =
      { s.cooling with alpha := (1 - s.cooling.decay) ^ n * s.cooling.alpha } := by
  induction n generalizing s with
  | zero => simp [after, ticking]
  | succ n ih =>
    have hnext : s.tick.1.cooling.target = 0 := by
      rw [cooling_tick]
      exact hcold
    calc (s.after (ticking (n + 1))).cooling = (s.tick.1.after (ticking n)).cooling := rfl
      _ = { s.cooling.tick with
            alpha := (1 - s.cooling.decay) ^ n * s.cooling.tick.alpha } := by
        rw [ih hnext, cooling_tick]
        rfl
      _ = { s.cooling with alpha := (1 - s.cooling.decay) ^ (n + 1) * s.cooling.alpha } := by
        rw [Cooling.alpha_tick_of_cold hcold, ← mul_assoc, ← pow_succ]
        rfl

private theorem settled_ticking (h : s.cooling.Regular) (hcold : s.cooling.target = 0) {n : Nat}
    (hn : (1 - s.cooling.decay) ^ n < s.cooling.floor) : (s.after (ticking n)).settled = true := by
  rw [settled, Cooling.settled_iff, cooling_ticking hcold]
  have hkeep : 0 ≤ (1 - s.cooling.decay) ^ n := pow_nonneg (sub_pos.2 h.decay_lt_one).le n
  exact (mul_le_of_le_one_right hkeep h.alpha_le_one).trans_lt hn

private theorem constants_after (s : Simulation K γ) (operations : List Operation) :
    (s.after operations).cooling.decay = s.cooling.decay ∧
      (s.after operations).cooling.floor = s.cooling.floor := by
  refine after_induction (fun t => t.cooling.decay = s.cooling.decay ∧
    t.cooling.floor = s.cooling.floor) ⟨rfl, rfl⟩ fun t op _ ht => ?_
  rw [cooling_apply]
  cases op <;> exact ht

theorem mostDraws_apply (s : Simulation K γ) (op : Operation) :
    (s.apply op).mostDraws = s.mostDraws := by
  cases op with
  | tick => exact s.mostDraws_tick
  | reheat => rfl
  | cool => rfl

theorem mostDraws_after (s : Simulation K γ) (operations : List Operation) :
    (s.after operations).mostDraws = s.mostDraws :=
  after_induction (·.mostDraws = s.mostDraws) rfl
    fun t op _ ht => (t.mostDraws_apply op).trans ht

theorem lively_after (hroot : ∀ a : K, 0 < a → 0 < Scalar.sqrt a) {operations : List Operation}
    {n : Nat} (h : Generator.Lively ((operations.count .tick + n) * s.mostDraws) s.generator) :
    Generator.Lively (n * s.mostDraws) (s.after operations).generator := by
  induction operations generalizing s with
  | nil => rwa [List.count_nil, Nat.zero_add] at h
  | cons op rest ih =>
    rw [← s.mostDraws_apply op]
    refine ih ?_
    rw [mostDraws_apply]
    cases op with
    | tick =>
      refine (completed_tick hroot ?_).2
      rwa [List.count_cons_self, Nat.add_right_comm, Nat.succ_mul] at h
    | reheat | cool => rwa [List.count_cons_of_ne (by decide)] at h

/-- A new layout that moves by any share in a tick and has any floor up to the warm target keeps its
temperature above zero and up to one. From a reheat to the next cooling it is never settled. While
its target is zero each tick lowers the temperature, so it stays settled until a reheat, and after
enough ticks it is settled, whatever has been done to it before. Running it that long ends with the
layout settled unless a tick divides by zero, and none does if the root of a positive number is
positive and none of the random numbers that its ticks can draw is zero. -/
theorem temperature_after [Archimedean K] {floor decay : K} (hdecay : 0 < decay ∧ decay < 1)
    (hfloor : 0 < floor ∧ floor ≤ 3 / 10) :
    ∃ enough : Nat, ∀ (bodies : List (Body K)) (links : List (Nat × Nat)) (physics : Physics K)
      (generator : γ) (operations : List Operation),
      let fresh := { start bodies links physics generator with
        cooling := { Cooling.initial with floor, decay } }
      let now := fresh.after operations
      (0 < now.cooling.alpha ∧ now.cooling.alpha ≤ 1) ∧
      (∀ later, .cool ∉ later → (now.after (.reheat :: later)).settled = false) ∧
      (now.cooling.target = 0 → now.tick.1.cooling.alpha < now.cooling.alpha) ∧
      (now.settled = true → ∀ later, .reheat ∉ later → (now.after later).settled = true) ∧
      (now.cooling.target = 0 → ∀ n ≥ enough, (now.after (ticking n)).settled = true ∧
        ((now.run n).2.2 = false → (now.run n).1.settled = true)) ∧
      ((∀ a : K, 0 < a → 0 < Scalar.sqrt a) → ∀ n,
        Generator.Lively ((operations.count .tick + n) * fresh.mostDraws) generator →
        (now.run n).2.2 = false) := by
  obtain ⟨enough, henough⟩ := exists_pow_lt_of_lt_one hfloor.1 (sub_lt_self 1 hdecay.1)
  refine ⟨enough, fun bodies links physics generator operations => ?_⟩
  intro fresh now
  have hfresh : fresh.cooling.Regular :=
    Cooling.Regular.initial hdecay (Cooling.warmTarget_eq (K := K) ▸ hfloor)
  have hnow : now.cooling.Regular := regular_after hfresh operations
  obtain ⟨hshare, hbottom⟩ := fresh.constants_after operations
  have hsettles (hcold : now.cooling.target = 0) (n : Nat) (hn : n ≥ enough) :
      (now.after (ticking n)).settled = true := by
    refine settled_ticking hnow hcold ?_
    rw [hshare, hbottom]
    exact (pow_le_pow_of_le_one (sub_pos.2 hdecay.2).le (sub_lt_self 1 hdecay.1).le hn).trans_lt
      henough
  refine ⟨⟨hnow.alpha_pos, hnow.alpha_le_one⟩, fun later hlater => ?_, fun hcold => ?_,
    fun hsettled later hlater => settled_after hnow hsettled hlater,
    fun hcold n hn => ⟨hsettles hcold n hn, fun hended => ?_⟩, fun hroot n hlively => ?_⟩
  · have hwarm : (now.after (.reheat :: later)).cooling.target = Cooling.warmTarget :=
      warm_after (s := now.apply .reheat) rfl hlater
    exact (regular_after hnow (.reheat :: later)).not_settled_of_warm hwarm
  · rw [cooling_tick]
    exact hnow.alpha_tick_lt hcold
  · rcases run_cases hended with hsettled | hticked
    · exact hsettled
    · rw [hticked]
      exact hsettles hcold n hn
  · refine completed_run hroot ?_
    rw [mostDraws_after]
    exact lively_after hroot hlively

section Fractions

attribute [local instance] ExactScalar.plain

def drawnTogether : List (Body Rat) := [⟨1, 2, 0, 0, none, none⟩, ⟨3, 5, 0, 0, none, none⟩]

def canvas : Physics Rat := ⟨120, -400, 30, 400, 300⟩

/-- A layout of two bodies and a spring that moves halfway in a tick, under the highest floor. -/
def halving : Simulation Rat Unit :=
  { start drawnTogether [(0, 1)] canvas () with
    cooling := { Cooling.initial with floor := 3 / 10, decay := 1 / 2 } }

theorem halving_settles :
    let now := halving.after [.tick, .reheat, .tick, .cool]
    ((0 : Rat) < 1 / 2 ∧ (1 / 2 : Rat) < 1) ∧ ((0 : Rat) < 3 / 10 ∧ (3 / 10 : Rat) ≤ 3 / 10) ∧
    (now.after [.reheat, .tick]).settled = false ∧ now.cooling.target = 0 ∧
    ∃ enough, ∀ n ≥ enough, (now.run n).1.settled = true := by
  intro now
  have hdecay : (0 : Rat) < 1 / 2 ∧ (1 / 2 : Rat) < 1 := by norm_num
  have hfloor : (0 : Rat) < 3 / 10 ∧ (3 / 10 : Rat) ≤ 3 / 10 := by norm_num
  obtain ⟨enough, henough⟩ := temperature_after (γ := Unit) hdecay hfloor
  obtain ⟨-, hwarm, -, -, hsettles, hcompleted⟩ :=
    henough drawnTogether [(0, 1)] canvas () [.tick, .reheat, .tick, .cool]
  have hended (n : Nat) := hcompleted (fun _ hpos => hpos) n (Generator.lively_unit _ ())
  exact ⟨hdecay, hfloor, hwarm [.tick] (by simp), rfl, enough, fun n hn =>
    (hsettles rfl n hn).2 (hended n)⟩

end Fractions

end Simulation

end CodeAtlas.Layout
