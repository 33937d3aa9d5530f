/-
# Floating-point numbers that are met exactly

A floating-point number of 64 bits is a mantissa of at most 53 bits and an exponent, and most
operations on it round. Two things that a replay relies on do not: dividing by one gives back what
was divided (`Binary64.div_one`), and a whole number of at most 53 bits survives the way there and
back (`Binary64.toNat_toUInt64_toFloat`). Both rest on one fact: a mantissa that fits is rounded to
itself, however many zeros stand behind it (`Binary64.round_settled`).
-/
import Mathlib

namespace TrafficReplay.Binary64

open Float.Model Float.Model.UnpackedFloat

/-- Rounding has nothing to do with this mantissa and exponent. -/
def Settled (m : Nat) (e : Int) : Prop :=
  Format.binary64.targetExponent (totalExponent m e) = e

theorem settled_iff {m : Nat} {e : Int} : Settled m e ↔ max (m.log2 + 1 + e - 53) (-1074) = e :=
  Iff.rfl

theorem settled_of_log2 {m : Nat} {e : Int} (hm : m.log2 = 52) (he : -1074 ≤ e) : Settled m e := by
  rw [settled_iff, hm]
  omega

theorem log2_mul_two_pow {m : Nat} (hm : m ≠ 0) (k : Nat) : (m * 2 ^ k).log2 = m.log2 + k := by
  have hpos : m * 2 ^ k ≠ 0 := Nat.mul_ne_zero hm (Nat.two_pow_pos k).ne'
  rw [Nat.log2_eq_iff hpos, Nat.add_right_comm, Nat.pow_add, Nat.pow_add]
  exact ⟨Nat.mul_le_mul_right _ (Nat.log2_self_le hm),
    Nat.mul_lt_mul_of_pos_right Nat.lt_log2_self (Nat.two_pow_pos k)⟩

theorem shiftRight_mul_two_pow (m k : Nat) :
    (ExtendedMantissa.mk (m * 2 ^ k) false false) >>> k = ⟨m, false, false⟩ := by
  induction k generalizing m with
  | zero =>
    rw [Nat.pow_zero, Nat.mul_one]
    rfl
  | succ k ih =>
    have hsplit : m * 2 ^ (k + 1) = (m * 2) * 2 ^ k := by
      rw [Nat.pow_succ']
      exact (Nat.mul_assoc m 2 _).symm
    show ExtendedMantissa.shiftRightOne
      ((ExtendedMantissa.mk (m * 2 ^ (k + 1)) false false) >>> k) = _
    rw [hsplit, ih]
    simp [ExtendedMantissa.shiftRightOne]

theorem shiftToTargetExponent_settled {m : Nat} {e : Int} (h : Settled m e) (hm : m ≠ 0) (k : Nat) :
    shiftToTargetExponent Format.binary64 (m * 2 ^ k) (e - k) .exact = (⟨m, false, false⟩, e) := by
  have htotal : totalExponent (m * 2 ^ k) (e - k) = totalExponent m e := by
    rw [totalExponent, totalExponent, log2_mul_two_pow hm]
    omega
  have hshift : (e - (e - k)).toNat = k := by omega
  have hback : e - k + (k : Int) = e := by omega
  simp only [shiftToTargetExponent, shiftToExponent, htotal, show _ = e from h, hshift, hback,
    ExtendedMantissa.ofMantissaAndAccuracy, shiftRight_mul_two_pow]

/-- **A mantissa that fits is rounded to itself**, however many zeros stand behind it. -/
theorem round_settled (sign : Sign) {m : Nat} {e : Int} (h : Settled m e) (hm : 0 < m) (k : Nat) :
    roundWithAccuracy Format.binary64 sign (m * 2 ^ k) (e - k) .exact = .finite sign m e hm := by
  have hfirst := shiftToTargetExponent_settled h hm.ne' k
  have hsecond := shiftToTargetExponent_settled h hm.ne' 0
  rw [Nat.pow_zero, Nat.mul_one, Int.natCast_zero, Int.sub_zero] at hsecond
  have hrounded : (ExtendedMantissa.mk m false false).roundedMantissa = m := rfl
  simp only [roundWithAccuracy, hfirst, hrounded, hsecond, hm.ne', dite_false]

/-! ## Dividing by one -/

theorem toNat_one_append (v : BitVec 52) : (1#1 ++ v).toNat = 2 ^ 52 + v.toNat := by
  rw [BitVec.toNat_append, ← Nat.shiftLeft_add_eq_or_of_lt v.isLt]
  rfl

theorem settled_of_unpack {bits : BitVec Format.binary64.numBits} {sign : Sign} {m : Nat} {e : Int}
    {hm : 0 < m} (h : UnpackedFloat.unpack Format.binary64 bits = .finite sign m e hm) :
    Settled m e := by
  have hfraction : (unpackMantissa bits).toNat < 2 ^ 52 := (unpackMantissa bits).isLt
  simp only [UnpackedFloat.unpack] at h
  split at h
  · split at h
    · cases h
    · cases h
  · split at h
    · rename_i hzero
      split at h
      · cases h
      · -- the least exponent: the mantissa may have fewer bits
        cases h
        have hlog : (unpackMantissa bits).toNat.log2 < 52 := (Nat.log2_lt hm.ne').mpr hfraction
        rw [settled_iff, hzero]
        change max (((unpackMantissa bits).toNat.log2 : Int) + 1 + (0 - (1023 + 52) + 1) - 53)
          (-1074)
          = 0 - (1023 + 52) + 1
        omega
    · rename_i hzero
      cases h
      have hpos : (unpackExponent bits).toNat ≠ 0 := by
        intro hnil
        exact hzero (BitVec.eq_of_toNat_eq hnil)
      refine settled_of_log2 ?_ ?_
      · rw [Nat.log2_eq_iff hm.ne']
        have htotal := toNat_one_append (unpackMantissa bits)
        omega
      · change -1074 ≤ ((unpackExponent bits).toNat : Int) - (1023 + 52)
        omega

theorem unpack_one : (1.0 : Float).toModel.unpack = .finite .positive (2 ^ 52) (-52) (by decide) :=
  rfl

/-- Dividing by one leaves no remainder, and at most a zero more at the end of the mantissa. -/
theorem exists_divCore_one {m : Nat} {e : Int} (h : Settled m e) :
    ∃ k : Nat, divCore Format.binary64 m e (2 ^ 52) (-52) = (m * 2 ^ k, e - k, .exact) := by
  have hone : totalExponent (2 ^ 52) (-52) = 1 := by
    rw [totalExponent, Nat.log2_two_pow]
    rfl
  have hexponent : min (e - -52) (Format.binary64.targetExponent (totalExponent m e - 1))
      = min (e + 52) (max (m.log2 + e - 53) (-1074)) := by
    change min (e - -52) (max ((m.log2 : Int) + 1 + e - 1 - 53) (-1074)) = _
    omega
  rw [settled_iff] at h
  refine ⟨(e - min (e + 52) (max (m.log2 + e - 53) (-1074))).toNat, ?_⟩
  generalize hk : (e - min (e + 52) (max ((m.log2 : Int) + e - 53) (-1074))).toNat = k
  have htarget : min (e + 52) (max ((m.log2 : Int) + e - 53) (-1074)) = e - k := by omega
  have hshift : (e - -52 - (e - k)).toNat = k + 52 := by omega
  have hproduct : m * 2 ^ (k + 52) = m * 2 ^ k * 2 ^ 52 := by rw [Nat.pow_add, Nat.mul_assoc]
  simp only [divCore, hone, hexponent, htarget, hshift, Nat.shiftLeft_eq, hproduct]
  rw [Nat.mul_div_cancel _ (Nat.two_pow_pos 52), Nat.mul_mod_left]
  rfl

theorem div_unpacked_one {x : UnpackedFloat}
    (hx : ∀ sign m e hm, x = .finite sign m e hm → Settled m e) :
    UnpackedFloat.div Format.binary64 x (.finite .positive (2 ^ 52) (-52) (by decide)) = x := by
  cases x with
  | notANumber => rfl
  | infinity sign =>
    cases sign with
    | positive => rfl
    | negative => rfl
  | zero sign =>
    cases sign with
    | positive => rfl
    | negative => rfl
  | finite sign m e hm =>
    have h := hx sign m e hm rfl
    obtain ⟨k, hk⟩ := exists_divCore_one h
    have hsign : sign / .positive = sign := by
      cases sign with
      | positive => rfl
      | negative => rfl
    simp only [UnpackedFloat.div, hk, hsign]
    exact round_settled sign h hm k

theorem pack_unpack (x : Float.Model) : Float.Model.pack x.unpack = x := by
  obtain ⟨bits, valid⟩ := x
  have hbits := @pack_unpack_of_valid Format.binary64 bits.toBitVec valid (by decide)
  simp only [Float.Model.pack, Float.Model.unpack]
  congr 1
  exact UInt64.toBitVec_inj.mp hbits

/-- **What is divided by one stays as it is.** -/
theorem div_one (x : Float) : x / 1.0 = x := by
  have hdiv : UnpackedFloat.div Format.binary64 x.toModel.unpack (1.0 : Float).toModel.unpack
      = x.toModel.unpack := by
    rw [unpack_one]
    exact div_unpacked_one fun _ _ _ _ h => settled_of_unpack h
  have hmodel : x.toModel / (1.0 : Float).toModel = x.toModel := by
    show Float.Model.pack (UnpackedFloat.div Format.binary64 _ _) = _
    rw [hdiv, pack_unpack]
  exact congrArg Float.ofModel hmodel

theorem eq_one_of_beq {x : Float} (h : (x == 1.0) = true) : x = 1.0 := by
  have hunpack : x.toModel.unpack.beq (1.0 : Float).toModel.unpack = true := h
  rw [beq_iff_ne_notANumber_and_eq, unpack_one] at hunpack
  obtain ⟨-, -, heq | ⟨-, hzero⟩ | ⟨-, hzero⟩⟩ := hunpack
  · have hmodel : x.toModel = (1.0 : Float).toModel := by
      rw [← pack_unpack x.toModel, heq, ← unpack_one, pack_unpack]
    exact congrArg Float.ofModel hmodel
  · cases hzero
  · cases hzero

/-! ## Whole numbers -/

theorem unpack_pack_normal (sign : Sign) {m : Nat} {e : Int} (hm : 0 < m) (hlog : m.log2 = 52)
    (hlow : -1074 ≤ e) (hhigh : e ≤ 971) :
    (Float.Model.pack (.finite sign m e hm)).unpack = .finite sign m e hm := by
  show UnpackedFloat.unpack Format.binary64
    (UnpackedFloat.pack Format.binary64 (.finite sign m e hm)) = _
  have hbiased :
      (e + Format.binary64.exponentBias + Format.binary64.mantissaBitsWithoutImplicit).toNat
      = (e + 1075).toNat := by
    change (e + 1023 + 52).toNat = _
    omega
  have hbelow : ¬ 2 ^ Format.binary64.exponentBits ≤ (e + 1075).toNat + 1 := by
    change ¬ 2 ^ 11 ≤ (e + 1075).toNat + 1
    omega
  have hwidth : m.log2 + 1 = Format.binary64.mantissaBits := by
    rw [hlog]
    rfl
  have hexponent : (BitVec.ofNat 11 (e + 1075).toNat).toNat = (e + 1075).toNat := by
    rw [BitVec.toNat_ofNat]
    omega
  have hordinary : BitVec.ofNat 11 (e + 1075).toNat ≠ -1#11 := by
    intro h
    have hall : (e + 1075).toNat = 2047 := hexponent.symm.trans (congrArg BitVec.toNat h)
    omega
  have hnonzero : BitVec.ofNat 11 (e + 1075).toNat ≠ 0#11 := by
    intro h
    have hnil : (e + 1075).toNat = 0 := hexponent.symm.trans (congrArg BitVec.toNat h)
    omega
  have hmantissa : (1#1 ++ BitVec.ofNat 52 m).toNat = m := by
    obtain ⟨hleast, hmost⟩ := (Nat.log2_eq_iff hm.ne').mp hlog
    rw [toNat_one_append, BitVec.toNat_ofNat]
    omega
  have hsign : Sign.ofBitVec sign.toBitVec = sign := by
    cases sign with
    | positive => rfl
    | negative => rfl
  rw [UnpackedFloat.pack]
  simp only [hbiased, if_neg hbelow, if_pos hwidth]
  rw [UnpackedFloat.unpack]
  simp only [unpackMantissa_packComponents, unpackExponent_packComponents,
    unpackSign_packComponents, if_neg hordinary, if_neg hnonzero, hsign, hmantissa, hexponent]
  congr 1
  change ((e + 1075).toNat : Int) - (1023 + 52) = e
  omega

/-- A whole number of at most 53 bits becomes the number whose mantissa has it in front. -/
theorem ofNat_eq_finite {n : Nat} (hn : 0 < n) (hlog : n.log2 ≤ 52) :
    ∃ hm, UnpackedFloat.ofNat Format.binary64 n
      = .finite .positive (n * 2 ^ (52 - n.log2)) (-(52 - n.log2 : Nat)) hm := by
  have hpos : 0 < n * 2 ^ (52 - n.log2) := Nat.mul_pos hn (Nat.two_pow_pos _)
  have hwidth : (n * 2 ^ (52 - n.log2)).log2 = 52 := by
    rw [log2_mul_two_pow hn.ne']
    omega
  have htarget : Format.binary64.targetExponent (totalExponent n 0) = -(52 - n.log2 : Nat) := by
    change max ((n.log2 : Int) + 1 + 0 - 53) (-1074) = _
    omega
  have hshift : (0 - -((52 - n.log2 : Nat) : Int)).toNat = 52 - n.log2 := by omega
  have hcompare : compare (n : Int) 0 = .gt := compare_gt_iff_gt.mpr (by omega)
  have hsettled := settled_of_log2 (e := -(52 - n.log2 : Nat)) hwidth (by omega)
  have hround := round_settled .positive hsettled hpos 0
  rw [Nat.pow_zero, Nat.mul_one, Int.natCast_zero, Int.sub_zero] at hround
  refine ⟨hpos, ?_⟩
  simp only [UnpackedFloat.ofNat, UnpackedFloat.ofInt, UnpackedFloat.normalize, hcompare,
    Int.toNat_natCast, UnpackedFloat.round, htarget, decreaseExponent, hshift, Nat.shiftLeft_eq]
  rw [Int.zero_sub]
  exact hround

/-- Without its fraction, a mantissa that ends in zeros is what stands in front of them. -/
theorem roundToInt_mul_two_pow (n k : Nat) : roundToInt .positive (n * 2 ^ k) (-k) = n := by
  have hup : (-(k : Int) - 0).toNat = 0 := by omega
  have hdown : (0 - (-(k : Int) - (0 : Nat))).toNat = k := by omega
  simp only [roundToInt, decreaseExponent, shiftToExponent, hup, hdown, Nat.shiftLeft_zero,
    ExtendedMantissa.ofMantissaAndAccuracy, shiftRight_mul_two_pow]
  rfl

/-- **A whole number of at most 53 bits survives the way there and back.** -/
theorem toNat_toUInt64_toFloat {n : Nat} (hn : n ≤ 2 ^ 53) :
    n.toUInt64.toFloat.toUInt64.toNat = n := by
  rcases Nat.lt_or_eq_of_le hn with hlt | rfl
  · have hword : n.toUInt64.toNat = n := by
      rw [UInt64.toNat_ofNat']
      omega
    have hback : n.toUInt64.toFloat.toUInt64
        = (Float.Model.pack (UnpackedFloat.ofNat Format.binary64 n)).unpack.toUInt64 := by
      show (Float.Model.pack (UnpackedFloat.ofNat _ n.toUInt64.toNat)).unpack.toUInt64 = _
      rw [hword]
    rw [hback]
    rcases Nat.eq_zero_or_pos n with rfl | hpos
    · rfl
    · have hlog : n.log2 < 53 := (Nat.log2_lt hpos.ne').mpr hlt
      obtain ⟨hm, hnumber⟩ := ofNat_eq_finite hpos (Nat.le_of_lt_succ hlog)
      have hwidth : (n * 2 ^ (52 - n.log2)).log2 = 52 := by
        rw [log2_mul_two_pow hpos.ne']
        omega
      rw [hnumber, unpack_pack_normal .positive hm hwidth (by omega) (by omega)]
      simp only [UnpackedFloat.toUInt64, toInt, roundToInt_mul_two_pow, Int.toNat_natCast]
      exact UInt64.toNat_ofNatClamp_of_lt (Nat.lt_trans hlt (by decide))
  · -- one bit more than fit, and that bit is a zero
    decide +kernel

theorem isFinite_iff (x : Float) :
    x.isFinite = true ↔ ¬ (x.isNaN = true ∨ x.isInf = true) := by
  show x.toModel.unpack.isFinite = true ↔
    ¬ (x.toModel.unpack.isNaN = true ∨ x.toModel.unpack.isInf = true)
  cases x.toModel.unpack with
  | notANumber => exact iff_of_false (fun h => nomatch h) fun h => h (.inl rfl)
  | infinity sign => exact iff_of_false (fun h => nomatch h) fun h => h (.inr rfl)
  | zero sign => exact iff_of_true rfl (by rintro (h | h) <;> cases h)
  | finite sign mantissa exponent hpos => exact iff_of_true rfl (by rintro (h | h) <;> cases h)

end TrafficReplay.Binary64
