import CodeAtlas.Scalar
import Mathlib

/-! The arithmetic of binary64 at its edges: to take away zero or to divide by one changes no float,
not even one that is not a number, and no float lies below itself. -/
namespace CodeAtlas.Decimal

open Float.Model Float.Model.UnpackedFloat

def Canonical (mantissa : Nat) (exponent : Int) : Prop :=
  Format.binary64.targetExponent (totalExponent mantissa exponent) = exponent

theorem targetExponent_eq (t : Int) :
    Format.binary64.targetExponent t = max (t - 53) (-1074) := rfl

private theorem canonical_unpack {bits : BitVec Format.binary64.numBits} {sign : Sign} {m : Nat}
    {e : Int} {hm : 0 < m} (h : unpack Format.binary64 bits = .finite sign m e hm) : Canonical m e := by
  have hbias : (Format.binary64.exponentBias : Int) = 1023 := rfl
  rw [Canonical, targetExponent_eq, totalExponent]
  revert h
  fun_cases unpack Format.binary64 bits with
  | case1 => simp
  | case2 => simp
  | case3 => simp
  | case4 mantissa biased exponent signBit sign' _ hzero hmantissa =>
    -- A subnormal number has the least exponent and less than 53 bits.
    intro h
    injection h with _ hm he
    have hexponent : exponent = -1075 := by
      simp only [exponent, hbias, hzero]
      rfl
    have hlog : m.log2 < 52 := (Nat.log2_lt (by omega)).2 (hm ▸ mantissa.isLt)
    omega
  | case5 mantissa biased exponent signBit sign' hmax hzero =>
    intro h
    injection h with _ hm he
    have hvalue : (1#1 ++ mantissa).toNat = 2 ^ 52 + mantissa.toNat := by
      rw [BitVec.toNat_append, ← Nat.shiftLeft_add_eq_or_of_lt mantissa.isLt]
      rfl
    have hlt : mantissa.toNat < 2 ^ 52 := mantissa.isLt
    have hlog : m.log2 = 52 := (Nat.log2_eq_iff (by omega)).2 (by omega)
    have hbiased : biased.toNat ≠ 0 := fun h => hzero (BitVec.eq_of_toNat_eq h)
    have hexponent : exponent = biased.toNat - (1023 + 52) := by
      simp only [exponent, hbias]
      rfl
    omega

private theorem log2_mul_two_pow {m : Nat} (hm : 0 < m) (k : Nat) :
    (m * 2 ^ k).log2 = m.log2 + k := by
  rw [Nat.log2_eq_iff (Nat.ne_of_gt (Nat.mul_pos hm (Nat.two_pow_pos k))), Nat.pow_add,
    Nat.add_right_comm, Nat.pow_add]
  exact ⟨Nat.mul_le_mul_right _ (Nat.log2_self_le (Nat.ne_of_gt hm)),
    Nat.mul_lt_mul_of_pos_right Nat.lt_log2_self (Nat.two_pow_pos k)⟩

private theorem shiftRight_exact (m k : Nat) :
    (⟨m * 2 ^ k, false, false⟩ : ExtendedMantissa) >>> k = ⟨m, false, false⟩ := by
  change k.repeat ExtendedMantissa.shiftRightOne ⟨m * 2 ^ k, false, false⟩ = _
  induction k generalizing m with
  | zero => rw [Nat.pow_zero, Nat.mul_one]; rfl
  | succ k ih =>
    rw [Nat.repeat, Nat.pow_succ', ← Nat.mul_assoc, ih, ExtendedMantissa.shiftRightOne]
    simp

theorem shiftToTargetExponent_exact {m : Nat} {e : Int} (hm : 0 < m) (h : Canonical m e) (k : Nat) :
    shiftToTargetExponent Format.binary64 (m * 2 ^ k) (e - k) .exact = (⟨m, false, false⟩, e) := by
  have htotal : totalExponent (m * 2 ^ k) (e - k) = totalExponent m e := by
    rw [totalExponent, totalExponent, log2_mul_two_pow hm]
    omega
  have hk : (e - (e - k)).toNat = k := by omega
  rw [shiftToTargetExponent, htotal, h]
  simp only [shiftToExponent, hk, ExtendedMantissa.ofMantissaAndAccuracy, shiftRight_exact]
  exact congrArg _ (by omega)

private theorem roundWithAccuracy_exact {m : Nat} {e : Int} (hm : 0 < m) (h : Canonical m e)
    (sign : Sign) (k : Nat) :
    roundWithAccuracy Format.binary64 sign (m * 2 ^ k) (e - k) .exact = .finite sign m e hm := by
  have hsecond := shiftToTargetExponent_exact hm h 0
  rw [Nat.pow_zero, Nat.mul_one, Int.natCast_zero, Int.sub_zero] at hsecond
  simp only [roundWithAccuracy, shiftToTargetExponent_exact hm h k,
    ExtendedMantissa.roundedMantissa, ExtendedMantissa.accuracy, Accuracy.roundToNearestEven,
    hsecond, Nat.ne_of_gt hm, dite_false]

private theorem divCore_one {m : Nat} {e : Int} (h : Canonical m e) :
    ∃ k : Nat, divCore Format.binary64 m e (2 ^ 52) (-52) = (m * 2 ^ k, e - k, .exact) := by
  have hone : totalExponent (2 ^ 52) (-52) = 1 := by decide +kernel
  rw [Canonical, targetExponent_eq] at h
  obtain ⟨k, hk⟩ : ∃ k : Nat,
      min (e - -52) (Format.binary64.targetExponent (totalExponent m e - 1)) = e - k := by
    rw [targetExponent_eq]
    exact ⟨(e - min (e - -52) (max (totalExponent m e - 1 - 53) (-1074))).toNat, by omega⟩
  have hshift : (e - -52 - (e - k)).toNat = k + 52 := by omega
  refine ⟨k, ?_⟩
  rw [divCore, hone]
  simp only [hk, hshift, Nat.shiftLeft_eq, Nat.pow_add, ← Nat.mul_assoc]
  rw [Nat.mul_div_cancel _ (Nat.two_pow_pos 52), Nat.mul_mod_left]
  rfl

private theorem unpack_one :
    (1 : Float).toModel.unpack = .finite .positive (2 ^ 52) (-52) (by decide) := by
  rfl

theorem pack_unpack (a : Float.Model) : Float.Model.pack a.unpack = a := by
  obtain ⟨bits, hvalid⟩ := a
  simp only [Float.Model.pack, Float.Model.unpack]
  congr 1
  exact UInt64.toBitVec_inj.1 (pack_unpack_of_valid hvalid)

theorem div_one (a : Float) : a / 1 = a := by
  have hdiv :
      div Format.binary64 a.toModel.unpack (1 : Float).toModel.unpack = a.toModel.unpack := by
    rw [unpack_one]
    cases h : a.toModel.unpack with
    | infinity sign => cases sign <;> rfl
    | notANumber => rfl
    | zero sign => cases sign <;> rfl
    | finite sign m e hm =>
      have hcanonical := canonical_unpack h
      obtain ⟨k, hk⟩ := divCore_one hcanonical
      have hsign : sign / .positive = sign := by cases sign <;> rfl
      rw [UnpackedFloat.div, hk, hsign]
      exact roundWithAccuracy_exact hm hcanonical sign k
  change Float.ofModel
    (Float.Model.pack (div Format.binary64 a.toModel.unpack (1 : Float).toModel.unpack)) = a
  rw [hdiv, pack_unpack]

private theorem unpack_zero : (0 : Float).toModel.unpack = .zero .positive := rfl

theorem sub_zero (a : Float) : a - 0 = a := by
  have hsub :
      sub Format.binary64 a.toModel.unpack (0 : Float).toModel.unpack = a.toModel.unpack := by
    rw [unpack_zero]
    cases a.toModel.unpack with
    | infinity sign => cases sign <;> rfl
    | notANumber => rfl
    | zero sign => cases sign <;> rfl
    | finite sign m e hm => rfl
  change Float.ofModel
    (Float.Model.pack (sub Format.binary64 a.toModel.unpack (0 : Float).toModel.unpack)) = a
  rw [hsub, pack_unpack]

private theorem not_lt_self (a : Float) : ¬a < a := by
  have hcompare : a.toModel.unpack.lt a.toModel.unpack = false := by
    rw [UnpackedFloat.lt]
    cases a.toModel.unpack with
    | infinity sign => cases sign <;> rfl
    | notANumber => rfl
    | zero sign => rfl
    | finite sign m e hm => cases sign <;> simp [UnpackedFloat.compare]
  intro h
  have hlt : a.toModel.unpack.lt a.toModel.unpack = true := of_decide_eq_true h
  rw [hcompare] at hlt
  cases hlt

instance : LawfulScalar Float where
  sub_zero := sub_zero
  div_one := div_one
  less_self a := decide_eq_false (not_lt_self a)
  one_not_less_thousandth := by decide +kernel

end CodeAtlas.Decimal
