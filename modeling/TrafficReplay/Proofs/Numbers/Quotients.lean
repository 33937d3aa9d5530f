/-
# Quotients in whole numbers

A whole number is made a floating-point number, divided by a positive one, and cut down to a whole
number again. Each of the three is rounding or cutting off, so the result is found from rational
numbers alone (`Binary64.exists_quotient`): what overflows on the way is the greatest word in the
end, as all large numbers are. So it is no less for a greater dividend, and no less for a smaller
divisor (`Binary64.toNat_div_mono`).
-/
import TrafficReplay.Proofs.Numbers.Rounding

namespace TrafficReplay.Binary64

open Float.Model Float.Model.UnpackedFloat

variable {x y : ℚ} {u v : UnpackedFloat}

/-! ## Packing -/

theorem Settled.least {m : Nat} {e : Int} (h : Settled m e) : -1074 ≤ e := by
  rw [settled_iff] at h
  omega

theorem unpack_pack_settled {m : Nat} {e : Int} (hm : 0 < m) (h : Settled m e) (he : e ≤ 971) :
    (Float.Model.pack (.finite .positive m e hm)).unpack = .finite .positive m e hm := by
  by_cases hlog : m.log2 = 52
  · exact unpack_pack_normal .positive hm hlog h.least he
  · -- fewer bits than fit: the exponent is the least one, which is packed as zero
    have hbits := h.log2_le
    have hleast : e = -1074 := by
      rw [settled_iff] at h
      omega
    subst hleast
    have hsmall : m < 2 ^ 52 := (Nat.log2_lt hm.ne').mp (by omega)
    have hmantissa : (BitVec.ofNat 52 m).toNat = m := by
      rw [BitVec.toNat_ofNat, Nat.mod_eq_of_lt hsmall]
    have hnonzero : BitVec.ofNat 52 m ≠ 0#52 := by
      intro hzero
      have hnil : m = 0 := hmantissa.symm.trans (congrArg BitVec.toNat hzero)
      exact hm.ne' hnil
    have hwidth : ¬ m.log2 + 1 = Format.binary64.mantissaBits := by
      change ¬ m.log2 + 1 = 53
      omega
    have hbelow : ¬ 2 ^ Format.binary64.exponentBits
        ≤ (-1074 + Format.binary64.exponentBias +
            Format.binary64.mantissaBitsWithoutImplicit : Int).toNat
          + 1 := by decide
    show UnpackedFloat.unpack Format.binary64
      (UnpackedFloat.pack Format.binary64 (.finite .positive m (-1074) hm)) = _
    rw [UnpackedFloat.pack]
    simp only [if_neg hbelow, if_neg hwidth]
    rw [UnpackedFloat.unpack]
    simp only [unpackMantissa_packComponents, unpackExponent_packComponents,
      unpackSign_packComponents, hnonzero, hmantissa, dite_false]
    rfl

theorem unpack_pack_overflow {m : Nat} {e : Int} (hm : 0 < m) (he : 972 ≤ e) :
    (Float.Model.pack (.finite .positive m e hm)).unpack = .infinity .positive := by
  have hover : 2 ^ Format.binary64.exponentBits
      ≤ (e + Format.binary64.exponentBias +
          Format.binary64.mantissaBitsWithoutImplicit).toNat + 1 := by
    change 2 ^ 11 ≤ (e + 1023 + 52).toNat + 1
    omega
  show UnpackedFloat.unpack Format.binary64
    (UnpackedFloat.pack Format.binary64 (.finite .positive m e hm)) = _
  rw [UnpackedFloat.pack]
  simp only [if_pos hover]
  rfl

theorem Denotes.unpack_pack (h : Denotes u x) (hx : x ≤ 2 ^ 971) :
    (Float.Model.pack u).unpack = u := by
  cases h with
  | zero => rfl
  | @finite m e hm hsettled =>
    refine unpack_pack_settled hm hsettled ?_
    have hone : (1 : ℚ) ≤ m := Nat.one_le_cast.mpr hm
    have hpow : (2 : ℚ) ^ e ≤ 2 ^ (971 : ℤ) := by
      calc (2 : ℚ) ^ e ≤ m * 2 ^ e := le_mul_of_one_le_left (zpow_pos two_pos e).le hone
        _ ≤ 2 ^ 971 := hx
        _ = 2 ^ (971 : ℤ) := rfl
    exact (zpow_le_zpow_iff_right₀ one_lt_two).mp hpow

/-! ## From whole numbers and back -/

theorem rounded_two_pow_64 : Rounded (2 ^ 64) (2 ^ 64) := by
  refine ⟨12, ⟨2 ^ 52, false, false⟩, ⟨by norm_num, by norm_num, .inr (by norm_num)⟩, ?_, ?_⟩
  · show (2 : ℚ) ^ 64 / 2 ^ (12 : ℤ) - (2 ^ 52 : Nat) = 0
    norm_num
  · show (2 : ℚ) ^ 64 = (2 ^ 52 : Nat) * 2 ^ (12 : ℤ)
    norm_num

theorem exists_denotes_ofNat {n : Nat} (hn : 0 < n) :
    ∃ y, Rounded n y ∧ Denotes (UnpackedFloat.ofNat Format.binary64 n) y := by
  have hcompare : compare (n : Int) 0 = .gt := compare_gt_iff_gt.mpr (by omega)
  generalize ht : Format.binary64.targetExponent (totalExponent n 0) = t
  obtain ⟨k, hk⟩ : ∃ k, (0 - t).toNat = k := ⟨_, rfl⟩
  have hround : UnpackedFloat.ofNat Format.binary64 n
      = roundWithAccuracy Format.binary64 .positive (n * 2 ^ k) (0 - k) .exact := by
    simp only [UnpackedFloat.ofNat, UnpackedFloat.ofInt, UnpackedFloat.normalize, hcompare,
      Int.toNat_natCast, UnpackedFloat.round, decreaseExponent, ht, hk, Nat.shiftLeft_eq]
  have hlies : Lies .exact ((n * 2 ^ k : ℚ) - (n * 2 ^ k : Nat)) := by
    show (n * 2 ^ k : ℚ) - (n * 2 ^ k : Nat) = 0
    push_cast
    exact sub_self _
  have hfine : (0 - k : Int)
      ≤ Format.binary64.targetExponent (totalExponent (n * 2 ^ k) (0 - k)) := by
    have hshare : totalExponent (n * 2 ^ k) (0 - k) = totalExponent n 0 := by
      rw [totalExponent, totalExponent, log2_mul_two_pow hn.ne']
      omega
    rw [hshare, ht]
    omega
  have hvalue : (n * 2 ^ k : ℚ) * 2 ^ (0 - k : Int) = n := by
    rw [mul_assoc, ← zpow_natCast, ← zpow_add₀ two_ne_zero, show (k + (0 - k) : Int) = 0 by omega,
      zpow_zero, mul_one]
  rw [hround, ← hvalue]
  exact exists_denotes_round hlies hfine

/-- **A word becomes the number that it is rounded to.** -/
theorem exists_denotes_toFloat {n : Nat} (hn : n < 2 ^ 64) :
    ∃ y, Rounded n y ∧ Denotes n.toUInt64.toFloat.toModel.unpack y := by
  have hword : n.toUInt64.toNat = n := by
    rw [UInt64.toNat_ofNat']
    omega
  have hunpack : n.toUInt64.toFloat.toModel.unpack
      = (Float.Model.pack (UnpackedFloat.ofNat Format.binary64 n)).unpack := by
    show (Float.Model.pack (UnpackedFloat.ofNat _ n.toUInt64.toNat)).unpack = _
    rw [hword]
  rcases Nat.eq_zero_or_pos n with rfl | hpos
  · rw [Nat.cast_zero]
    exact ⟨0, rounded_zero, .zero⟩
  · obtain ⟨y, hy, hdenotes⟩ := exists_denotes_ofNat hpos
    refine ⟨y, hy, ?_⟩
    have hle : (n : ℚ) ≤ 2 ^ 64 := by exact_mod_cast hn.le
    have hsmall : y ≤ 2 ^ 971 :=
      (hy.mono rounded_two_pow_64 hle).trans (pow_le_pow_right₀ one_le_two (by decide))
    rw [hunpack, hdenotes.unpack_pack hsmall]
    exact hdenotes

theorem roundToInt_eq_floor (m : Nat) (e : Int) :
    roundToInt .positive m e = ⌊(m : ℚ) * 2 ^ e⌋ := by
  obtain ⟨up, hup⟩ : ∃ up, (e - 0).toNat = up := ⟨_, rfl⟩
  obtain ⟨down, hdown⟩ : ∃ down, (0 - (e - up)).toNat = down := ⟨_, rfl⟩
  have hexact : StandsFor (.ofMantissaAndAccuracy (m * 2 ^ up) .exact) (m * 2 ^ up : Nat) :=
    standsFor_ofMantissaAndAccuracy.mpr (sub_self _)
  have hvalue : ((m * 2 ^ up : Nat) : ℚ) / 2 ^ down = m * 2 ^ e := by
    rw [Nat.cast_mul, Nat.cast_pow, Nat.cast_two, mul_div_assoc, ← zpow_natCast, ← zpow_natCast,
      ← zpow_sub₀ two_ne_zero]
    congr 2
    omega
  have hfloor := (hexact.shiftRight down).floor_eq
  rw [hvalue] at hfloor
  simp only [roundToInt, decreaseExponent, shiftToExponent, hup, hdown, Nat.shiftLeft_eq]
  exact hfloor.symm

/-- **A number becomes the whole number in front of it**, or the greatest word. -/
theorem toNat_toUInt64_of_denotes (h : Denotes u x) :
    (Float.Model.pack u).unpack.toUInt64.toNat = min ⌊x⌋₊ (2 ^ 64 - 1) := by
  cases h with
  | zero =>
    rw [Nat.floor_zero]
    rfl
  | @finite m e hm hsettled =>
    rcases le_or_gt e 971 with he | he
    · rw [unpack_pack_settled hm hsettled he]
      simp only [UnpackedFloat.toUInt64, toInt, roundToInt_eq_floor, Int.floor_toNat]
      rcases Nat.lt_or_ge ⌊(m : ℚ) * 2 ^ e⌋₊ UInt64.size with hlt | hge
      · rw [UInt64.toNat_ofNatClamp_of_lt hlt]
        exact (min_eq_left (Nat.le_sub_one_of_lt hlt)).symm
      · rw [UInt64.toNat_ofNatClamp_of_le hge]
        exact (min_eq_right ((Nat.sub_le _ _).trans hge)).symm
    · have hlarge : 2 ^ 64 ≤ ⌊(m : ℚ) * 2 ^ e⌋₊ := by
        have hone : (1 : ℚ) ≤ m := Nat.one_le_cast.mpr hm
        refine Nat.le_floor ?_
        calc ((2 ^ 64 : Nat) : ℚ) = 2 ^ (64 : ℤ) := by norm_num
          _ ≤ 2 ^ e := zpow_le_zpow_right₀ one_le_two (by omega)
          _ ≤ m * 2 ^ e := le_mul_of_one_le_left (zpow_pos two_pos e).le hone
      rw [unpack_pack_overflow hm (by omega), min_eq_right ((Nat.sub_le _ _).trans hlarge)]
      rfl

/-! ## Positive numbers -/

theorem le_iff {s t : Float} : s ≤ t ↔ s.toModel.unpack.le t.toModel.unpack = true :=
  decide_eq_true_iff

theorem exists_denotes_of_pos {s : Float} (hfinite : s.isFinite = true) (hpos : ¬ s ≤ 0.0) :
    ∃ y, 0 < y ∧ Denotes s.toModel.unpack y := by
  have hunpack : s.toModel.unpack.isFinite = true := hfinite
  have hzero : (0.0 : Float).toModel.unpack = .zero .positive := rfl
  have hsettled : ∀ sign m e hm, s.toModel.unpack = .finite sign m e hm → Settled m e :=
    fun _ _ _ _ h => settled_of_unpack h
  rw [le_iff, hzero] at hpos
  cases hs : s.toModel.unpack with
  | notANumber =>
    rw [hs] at hunpack
    cases hunpack
  | infinity sign =>
    rw [hs] at hunpack
    cases hunpack
  | zero sign =>
    rw [hs] at hpos
    exact absurd rfl hpos
  | finite sign m e hm =>
    rw [hs] at hpos
    cases sign with
    | negative => exact absurd rfl hpos
    | positive =>
      exact ⟨m * 2 ^ e, mul_pos (Nat.cast_pos.mpr hm) (zpow_pos two_pos e),
        .finite (hsettled _ _ _ _ hs)⟩

theorem Denotes.le_of_le (hu : Denotes u x) (hv : Denotes v y) (hx : 0 < x) (hy : 0 < y)
    (h : u.le v = true) : x ≤ y := by
  cases hu with
  | zero => exact absurd hx (lt_irrefl _)
  | @finite m e hm hsettled =>
    cases hv with
    | zero => exact absurd hy (lt_irrefl _)
    | @finite m' e' hm' hsettled' =>
      have horder : ((compare e e').then (compare m m')).isLE = true := h
      have hpow : (0 : ℚ) < 2 ^ e := zpow_pos two_pos e
      rcases lt_trichotomy e e' with hlt | rfl | hgt
      · -- the exponent decides: behind a larger one stands a mantissa of all bits
        have hlog : m.log2 < 53 := Nat.lt_succ_of_le hsettled.log2_le
        have hlog' : 52 ≤ m'.log2 := by
          have hleast := hsettled.least
          rw [settled_iff] at hsettled'
          omega
        exact mul_zpow_le_of_lt ((Nat.log2_lt hm.ne').mp hlog).le ((Nat.le_log2 hm'.ne').mp hlog')
          hlt
      · rw [compare_eq_iff_eq.mpr rfl, Ordering.eq_then, Nat.isLE_compare] at horder
        exact mul_le_mul_of_nonneg_right (Nat.cast_le.mpr horder) hpow.le
      · rw [compare_gt_iff_gt.mpr hgt] at horder
        cases horder

theorem Denotes.le_self (h : Denotes u x) : u.le u = true := by
  cases h with
  | zero => rfl
  | @finite m e hm _ =>
    show ((compare e e).then (compare m m)).isLE = true
    rw [compare_eq_iff_eq.mpr rfl, compare_eq_iff_eq.mpr rfl]
    rfl

theorem le_refl_of_pos {s : Float} (hfinite : s.isFinite = true) (hpos : ¬ s ≤ 0.0) : s ≤ s := by
  obtain ⟨y, -, hdenotes⟩ := exists_denotes_of_pos hfinite hpos
  exact le_iff.mpr hdenotes.le_self

/-! ## The quotient -/

theorem exists_quotient {n : Nat} (hn : n < 2 ^ 64) {s : Float} (hs : Denotes s.toModel.unpack y)
    (hy : 0 < y) :
    ∃ dividend quotient, Rounded n dividend ∧ Rounded (dividend / y) quotient ∧
      (n.toUInt64.toFloat / s).toUInt64.toNat = min ⌊quotient⌋₊ (2 ^ 64 - 1) := by
  obtain ⟨dividend, hdividend, hdenotes⟩ := exists_denotes_toFloat hn
  obtain ⟨quotient, hquotient, hdiv⟩ := exists_denotes_div hdenotes hs hy
  exact ⟨dividend, quotient, hdividend, hquotient, toNat_toUInt64_of_denotes hdiv⟩

/-- **Dividing more by less gives no less.** -/
theorem toNat_div_mono {n n' : Nat} {s s' : Float} (hn' : n' < 2 ^ 64) (hle : n ≤ n')
    (hs : s.isFinite = true) (hpos : ¬ s ≤ 0.0) (hs' : s'.isFinite = true) (hpos' : ¬ s' ≤ 0.0)
    (h : s' ≤ s) :
    (n.toUInt64.toFloat / s).toUInt64.toNat ≤ (n'.toUInt64.toFloat / s').toUInt64.toNat := by
  obtain ⟨y, hy, hdenotes⟩ := exists_denotes_of_pos hs hpos
  obtain ⟨y', hy', hdenotes'⟩ := exists_denotes_of_pos hs' hpos'
  have hdivisor : y' ≤ y := hdenotes'.le_of_le hdenotes hy' hy (le_iff.mp h)
  obtain ⟨a, q, ha, hq, hresult⟩ := exists_quotient (hle.trans_lt hn') hdenotes hy
  obtain ⟨a', q', ha', hq', hresult'⟩ := exists_quotient hn' hdenotes' hy'
  have hdividend : a ≤ a' := ha.mono ha' (Nat.cast_le.mpr hle)
  have hnonneg : 0 ≤ a' := rounded_zero.mono ha' (Nat.cast_nonneg n')
  have hquotient : q ≤ q' := by
    refine hq.mono hq' ?_
    calc a / y ≤ a' / y := div_le_div_of_nonneg_right hdividend hy.le
      _ ≤ a' / y' := div_le_div_of_nonneg_left hnonneg hy' hdivisor
  rw [hresult, hresult']
  exact min_le_min_right _ (Nat.floor_le_floor hquotient)

end TrafficReplay.Binary64
