import Mathlib
import CodeAtlas.Scalar

/-! Exact arithmetic. What layouts and views ask of their numbers is met by every ordered field,
with any functions in place of the root and the circular functions; the laws of the field then hold
of the very operations that a layout is computed with. -/
namespace CodeAtlas

class ExactScalar (K : Type) extends Field K, LinearOrder K, IsStrictOrderedRing K, Scalar K where
  half_eq : half = 1 / 2
  ofRatio_eq (num : Int) (den : Nat) : ofRatio num den = num / den
  less_iff (a b : K) : less a b = true ↔ a < b
  same_iff (a b : K) : same a b = true ↔ a = b

@[reducible] def ExactScalar.fractions (root cosine sine : Rat → Rat) : ExactScalar Rat where
  toField := inferInstance
  __ := (inferInstance : LinearOrder Rat)
  __ := (inferInstance : IsStrictOrderedRing Rat)
  __ := Scalar.exact root cosine sine
  half_eq := rfl
  ofRatio_eq _ _ := rfl
  less_iff _ _ := decide_eq_true_iff
  same_iff _ _ := beq_iff_eq

/-- Fractions with the identity as the root, which is positive on positive numbers. -/
@[reducible] def ExactScalar.plain : ExactScalar Rat := .fractions id id id

namespace Scalar

variable {K : Type} [ExactScalar K]

@[simp] theorem zero_eq : (zero : K) = 0 := rfl

@[simp] theorem one_eq : (one : K) = 1 := rfl

theorem half_eq : (half : K) = 1 / 2 := ExactScalar.half_eq

theorem ofRatio_eq (num : Int) (den : Nat) : (ofRatio num den : K) = num / den :=
  ExactScalar.ofRatio_eq num den

@[simp] theorem less_iff {a b : K} : less a b = true ↔ a < b := ExactScalar.less_iff a b

@[simp] theorem same_iff {a b : K} : same a b = true ↔ a = b := ExactScalar.same_iff a b

@[simp] theorem ofNat_eq (n : Nat) : (ofNat n : K) = n := by
  simp [ofNat, ofRatio_eq]

@[simp] theorem atMost_iff {a b : K} : atMost a b = true ↔ a ≤ b := by
  simp [atMost, le_iff_lt_or_eq]

theorem div?_eq_some {a b : K} (h : b ≠ 0) : div? a b = some (a / b) :=
  if_neg (mt same_iff.1 h)

theorem eq_zero_of_div? {a b : K} (h : div? a b = none) : b = 0 := by
  by_contra hb
  rw [div?_eq_some hb] at h
  cases h

theorem ne_zero_of_div? {a b c : K} (h : div? a b = some c) : b ≠ 0 := by
  rintro rfl
  simp [div?] at h

theorem clamp_eq (value low high : K) : clamp value low high = max low (min high value) := by
  simp only [clamp, less_iff, min_comm high, min_def_lt, max_def_lt]

theorem sum_eq (xs : List K) : sum xs = xs.sum := by
  rw [sum, List.sum_eq_foldl]
  rfl

end Scalar

instance {K : Type} [ExactScalar K] : LawfulScalar K where
  sub_zero := sub_zero
  div_one := div_one
  less_self a := by simp [← Bool.not_eq_true]
  one_not_less_thousandth := by
    have h : ¬ (1 : K) < (1 : Int) / (1000 : Nat) := by norm_num
    rwa [← Bool.not_eq_true, Scalar.less_iff, Scalar.ofRatio_eq]

end CodeAtlas
