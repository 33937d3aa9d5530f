/-
# Rounding keeps the order

A floating-point operation finds its exact result as a mantissa with two more bits behind it
(`Binary64.StandsFor`) and rounds it to a whole number of quanta, the quantum being as coarse as the
result is large (`Binary64.Scale`). `Binary64.Rounded` says what comes out of that without saying
how, for rational numbers, and so says that of two numbers the smaller one is rounded to no more
than the larger one (`Binary64.Rounded.mono`). Division of positive numbers gives such a rounded
number (`Binary64.exists_denotes_div`), and so does a whole number
(`Binary64.exists_denotes_toFloat`).
-/
import TrafficReplay.Proofs.Numbers.Binary64

namespace TrafficReplay.Binary64

open Float.Model Float.Model.UnpackedFloat

/-! ## Mantissas with two more bits -/

/-- Where a number lies behind the whole number in front of it. -/
def Lies : Accuracy → ℚ → Prop
  | .exact, part => part = 0
  | .inexact .lt, part => 0 < part ∧ part < 1 / 2
  | .inexact .eq, part => part = 1 / 2
  | .inexact .gt, part => 1 / 2 < part ∧ part < 1

/-- The mantissa and the two bits behind it are all that rounding needs to know of the number. -/
def StandsFor (em : ExtendedMantissa) (x : ℚ) : Prop :=
  Lies em.accuracy (x - em.mantissa)

variable {em em' : ExtendedMantissa} {x y : ℚ}

theorem Lies.bounds {accuracy : Accuracy} {part : ℚ} (h : Lies accuracy part) :
    0 ≤ part ∧ part < 1 := by
  cases accuracy with
  | exact =>
    have hpart : part = 0 := h
    constructor <;> linarith
  | inexact order =>
    cases order with
    | lt => exact ⟨h.1.le, by linarith [h.2]⟩
    | eq =>
      have hpart : part = 1 / 2 := h
      constructor <;> linarith
    | gt => exact ⟨by linarith [h.1], h.2⟩

theorem StandsFor.floor_eq (h : StandsFor em x) : ⌊x⌋ = em.mantissa := by
  obtain ⟨hlow, hhigh⟩ := Lies.bounds h
  rw [Int.floor_eq_iff, Int.cast_natCast]
  constructor <;> linarith

theorem standsFor_ofMantissaAndAccuracy {m : Nat} {accuracy : Accuracy} :
    StandsFor (.ofMantissaAndAccuracy m accuracy) x ↔ Lies accuracy (x - m) := by
  cases accuracy with
  | exact => exact Iff.rfl
  | inexact order =>
    cases order with
    | lt => exact Iff.rfl
    | eq => exact Iff.rfl
    | gt => exact Iff.rfl

theorem StandsFor.shiftRightOne (h : StandsFor em x) : StandsFor em.shiftRightOne (x / 2) := by
  obtain ⟨m, round, sticky⟩ := em
  have hsplit : (m : ℚ) = 2 * (m / 2 : Nat) + (m % 2 : Nat) := by
    exact_mod_cast (Nat.div_add_mod m 2).symm
  rw [StandsFor] at h ⊢
  rcases Nat.mod_two_eq_zero_or_one m with hm | hm
  · rw [hm, Nat.cast_zero, add_zero] at hsplit
    cases round <;> cases sticky <;>
      simp only [ExtendedMantissa.shiftRightOne, ExtendedMantissa.accuracy, hm, hsplit, Lies,
        bne_self_eq_false, Bool.or_self, Bool.or_true, Bool.or_false] at h ⊢
    · linarith
    · constructor <;> linarith
    · constructor <;> linarith
    · constructor <;> linarith
  · rw [hm, Nat.cast_one] at hsplit
    cases round <;> cases sticky <;>
      simp only [ExtendedMantissa.shiftRightOne, ExtendedMantissa.accuracy, hm, hsplit, Lies,
        Bool.or_self, Bool.or_true, Bool.or_false, show (1 != 0) = true from rfl] at h ⊢
    · linarith
    · constructor <;> linarith
    · constructor <;> linarith
    · constructor <;> linarith

theorem StandsFor.shiftRight (h : StandsFor em x) (k : Nat) : StandsFor (em >>> k) (x / 2 ^ k) := by
  induction k with
  | zero =>
    have hsame : x / 2 ^ 0 = x := by simp
    rw [hsame]
    exact h
  | succ k ih =>
    rw [pow_succ, ← div_div]
    exact ih.shiftRightOne

theorem le_roundedMantissa (em : ExtendedMantissa) : em.mantissa ≤ em.roundedMantissa := by
  rw [ExtendedMantissa.roundedMantissa]
  cases em.accuracy with
  | exact => exact Nat.le_refl _
  | inexact order =>
    cases order with
    | lt => exact Nat.le_refl _
    | eq => exact Nat.le_add_right _ _
    | gt => exact Nat.le_add_right _ _

theorem roundedMantissa_le (em : ExtendedMantissa) : em.roundedMantissa ≤ em.mantissa + 1 := by
  rw [ExtendedMantissa.roundedMantissa]
  cases em.accuracy with
  | exact => exact Nat.le_add_right _ _
  | inexact order =>
    cases order with
    | lt => exact Nat.le_add_right _ _
    | eq => exact Nat.add_le_add_left (Nat.le_of_lt_succ (Nat.mod_lt _ Nat.two_pos)) _
    | gt => exact Nat.le_refl _

theorem Lies.roundToNearestEven_mono {accuracy accuracy' : Accuracy} (h : Lies accuracy x)
    (h' : Lies accuracy' y) (hle : x ≤ y) (m : Nat) :
    accuracy.roundToNearestEven m ≤ accuracy'.roundToNearestEven m := by
  have hmod : m % 2 ≤ 1 := Nat.le_of_lt_succ (Nat.mod_lt m Nat.two_pos)
  rcases accuracy with _ | (_ | _ | _) <;> rcases accuracy' with _ | (_ | _ | _) <;>
    simp only [Lies, Accuracy.roundToNearestEven] at h h' ⊢ <;>
    first | omega | (exfalso; linarith)

/-- **Rounding a mantissa keeps the order.** -/
theorem StandsFor.roundedMantissa_mono (h : StandsFor em x) (h' : StandsFor em' y) (hle : x ≤ y) :
    em.roundedMantissa ≤ em'.roundedMantissa := by
  have hfloor : (em.mantissa : ℤ) ≤ em'.mantissa := by
    rw [← h.floor_eq, ← h'.floor_eq]
    exact Int.floor_le_floor hle
  rcases Nat.lt_or_eq_of_le (Int.ofNat_le.mp hfloor) with hlt | heq
  · calc em.roundedMantissa ≤ em.mantissa + 1 := roundedMantissa_le em
      _ ≤ em'.mantissa := hlt
      _ ≤ em'.roundedMantissa := le_roundedMantissa em'
  · rw [ExtendedMantissa.roundedMantissa, ExtendedMantissa.roundedMantissa, ← heq]
    rw [StandsFor, ← heq] at h'
    exact Lies.roundToNearestEven_mono h h' (by linarith) _

/-! ## Rounded numbers -/

/-- The exponent of the quantum that a number is rounded to: 53 bits are enough for the number, and
fewer only where the exponent has reached its least value. -/
structure Scale (x : ℚ) (e : ℤ) : Prop where
  least : -1074 ≤ e
  lt : x < 2 ^ (e + 53)
  le : e = -1074 ∨ 2 ^ (e + 52) ≤ x

/-- The second number is what the first one is rounded to. -/
def Rounded (x y : ℚ) : Prop :=
  ∃ e em, Scale x e ∧ StandsFor em (x / 2 ^ e) ∧ y = em.roundedMantissa * 2 ^ e

theorem Scale.exponent_mono {e e' : ℤ} (h : Scale x e) (h' : Scale y e') (hle : x ≤ y) :
    e ≤ e' := by
  rcases h.le with hleast | hlow
  · exact hleast.trans_le h'.least
  · have hpow : (2 : ℚ) ^ (e + 52) < 2 ^ (e' + 53) := (hlow.trans hle).trans_lt h'.lt
    have hexponent := (zpow_lt_zpow_iff_right₀ one_lt_two).mp hpow
    omega

theorem Scale.roundedMantissa_le {e : ℤ} (h : Scale x e) (hem : StandsFor em (x / 2 ^ e)) :
    em.roundedMantissa ≤ 2 ^ 53 := by
  have hlt : x / 2 ^ e < 2 ^ 53 := by
    rw [div_lt_iff₀ (zpow_pos two_pos e)]
    calc x < 2 ^ (e + 53) := h.lt
      _ = 2 ^ 53 * 2 ^ e := by rw [zpow_add₀ two_ne_zero, mul_comm]; rfl
  have hfull : StandsFor ⟨2 ^ 53, false, false⟩ (2 ^ 53) := by
    show (2 : ℚ) ^ 53 - (2 ^ 53 : Nat) = 0
    norm_num
  exact hem.roundedMantissa_mono hfull hlt.le

theorem Scale.le_roundedMantissa {e : ℤ} (h : Scale x e) (he : e ≠ -1074)
    (hem : StandsFor em (x / 2 ^ e)) : 2 ^ 52 ≤ em.roundedMantissa := by
  have hle : 2 ^ 52 ≤ x / 2 ^ e := by
    rw [le_div_iff₀ (zpow_pos two_pos e)]
    calc (2 : ℚ) ^ 52 * 2 ^ e = 2 ^ (e + 52) := by rw [zpow_add₀ two_ne_zero, mul_comm]; rfl
      _ ≤ x := h.le.resolve_left he
  have hleast : StandsFor ⟨2 ^ 52, false, false⟩ (2 ^ 52) := by
    show (2 : ℚ) ^ 52 - (2 ^ 52 : Nat) = 0
    norm_num
  exact hleast.roundedMantissa_mono hem hle

/-- A mantissa of 53 bits at a coarser quantum makes up for all that a finer one has. -/
theorem mul_zpow_le_of_lt {m m' : Nat} {e e' : ℤ} (hmost : m ≤ 2 ^ 53) (hfew : 2 ^ 52 ≤ m')
    (hlt : e < e') : (m : ℚ) * 2 ^ e ≤ m' * 2 ^ e' := by
  have hmost' : (m : ℚ) ≤ 2 ^ 53 := by exact_mod_cast hmost
  have hfew' : (2 : ℚ) ^ 52 ≤ m' := by exact_mod_cast hfew
  calc (m : ℚ) * 2 ^ e ≤ 2 ^ 53 * 2 ^ e := mul_le_mul_of_nonneg_right hmost' (zpow_pos two_pos e).le
    _ = 2 ^ 52 * 2 ^ (e + 1) := by rw [zpow_add_one₀ two_ne_zero]; ring
    _ ≤ 2 ^ 52 * 2 ^ e' :=
        mul_le_mul_of_nonneg_left (zpow_le_zpow_right₀ one_le_two hlt) (by positivity)
    _ ≤ m' * 2 ^ e' := mul_le_mul_of_nonneg_right hfew' (zpow_pos two_pos e').le

/-- **Rounding keeps the order.** -/
theorem Rounded.mono {x' y' : ℚ} (h : Rounded x y) (h' : Rounded x' y') (hle : x ≤ x') :
    y ≤ y' := by
  obtain ⟨e, em, hscale, hem, rfl⟩ := h
  obtain ⟨e', em', hscale', hem', rfl⟩ := h'
  rcases (hscale.exponent_mono hscale' hle).eq_or_lt with rfl | hlt
  · -- one quantum for both
    have hquotient : x / 2 ^ e ≤ x' / 2 ^ e :=
      div_le_div_of_nonneg_right hle (zpow_pos two_pos e).le
    have hmantissa := hem.roundedMantissa_mono hem' hquotient
    exact mul_le_mul_of_nonneg_right (Nat.cast_le.mpr hmantissa) (zpow_pos two_pos e).le
  · -- the larger number has a coarser quantum, and 53 bits of it
    have hfinest : e' ≠ -1074 := (hscale.least.trans_lt hlt).ne'
    exact mul_zpow_le_of_lt (hscale.roundedMantissa_le hem)
      (hscale'.le_roundedMantissa hfinest hem') hlt

theorem rounded_zero : Rounded 0 0 := by
  refine ⟨-1074, ⟨0, false, false⟩, ⟨le_rfl, zpow_pos two_pos _, .inl rfl⟩, ?_, ?_⟩
  · show (0 : ℚ) / 2 ^ (-1074 : ℤ) - (0 : Nat) = 0
    rw [zero_div, Nat.cast_zero, sub_zero]
  · show (0 : ℚ) = (0 : Nat) * 2 ^ (-1074 : ℤ)
    rw [Nat.cast_zero, zero_mul]

/-! ## What the operations come to -/

/-- The number is not negative, is finite, and has this value. -/
inductive Denotes : UnpackedFloat → ℚ → Prop
  | zero : Denotes (.zero .positive) 0
  | finite {m : Nat} {e : Int} {hm : 0 < m} : Settled m e →
      Denotes (.finite .positive m e hm) (m * 2 ^ e)

theorem Settled.log2_le {m : Nat} {e : Int} (h : Settled m e) : m.log2 ≤ 52 := by
  rw [settled_iff] at h
  omega

theorem scale_targetExponent {m : Nat} {e : Int} (hm : (m : ℚ) ≤ x) (hx : x < m + 1)
    (hfine : e ≤ Format.binary64.targetExponent (totalExponent m e)) :
    Scale (x * 2 ^ e) (Format.binary64.targetExponent (totalExponent m e)) := by
  have htarget : Format.binary64.targetExponent (totalExponent m e)
      = max (m.log2 + 1 + e - 53) (-1074) := rfl
  have hpos : (0 : ℚ) < 2 ^ e := zpow_pos two_pos e
  rw [htarget] at hfine ⊢
  refine ⟨le_max_right _ _, ?_, ?_⟩
  · have hbits : (m : ℚ) + 1 ≤ 2 ^ (m.log2 + 1) := by exact_mod_cast Nat.lt_log2_self
    calc x * 2 ^ e < 2 ^ (m.log2 + 1) * 2 ^ e := mul_lt_mul_of_pos_right (hx.trans_le hbits) hpos
      _ = 2 ^ ((m.log2 + 1 : Nat) + e) := by rw [zpow_add₀ two_ne_zero, zpow_natCast]
      _ ≤ 2 ^ (max (m.log2 + 1 + e - 53) (-1074) + 53) :=
          zpow_le_zpow_right₀ one_le_two (by push_cast; omega)
  · rcases max_choice ((m.log2 : Int) + 1 + e - 53) (-1074) with hlarge | hleast
    · right
      have hne : m ≠ 0 := by
        rintro rfl
        rw [hlarge, Nat.log2_zero] at hfine
        omega
      have hbits : (2 : ℚ) ^ m.log2 ≤ m := by exact_mod_cast Nat.log2_self_le hne
      rw [hlarge]
      calc (2 : ℚ) ^ ((m.log2 : Int) + 1 + e - 53 + 52) = 2 ^ ((m.log2 : Int) + e) := by
            congr 1
            omega
        _ = 2 ^ m.log2 * 2 ^ e := by rw [zpow_add₀ two_ne_zero, zpow_natCast]
        _ ≤ x * 2 ^ e := mul_le_mul_of_nonneg_right (hbits.trans hm) hpos.le
    · exact .inl hleast

theorem exists_shift_rounded {r : Nat} {e : Int} (hmost : r ≤ 2 ^ 53) (hleast : -1074 ≤ e)
    (hfew : e ≠ -1074 → 2 ^ 52 ≤ r) :
    ∃ m e', shiftToTargetExponent Format.binary64 r e .exact = (⟨m, false, false⟩, e') ∧
      (r : ℚ) * 2 ^ e = m * 2 ^ e' ∧ (m ≠ 0 → Settled m e') := by
  rcases hmost.eq_or_lt with rfl | hlt
  · have hsettled : Settled (2 ^ 52) (e + 1) := settled_of_log2 Nat.log2_two_pow (by omega)
    have hshift := shiftToTargetExponent_settled hsettled (by decide) 1
    have hback : e + 1 - (1 : Nat) = e := by omega
    rw [hback, show 2 ^ 52 * 2 ^ 1 = 2 ^ 53 from rfl] at hshift
    refine ⟨2 ^ 52, e + 1, hshift, ?_, fun _ => hsettled⟩
    rw [zpow_add_one₀ two_ne_zero]
    push_cast
    ring
  · rcases Nat.eq_zero_or_pos r with rfl | hpos
    · refine ⟨0, e, ?_, rfl, fun h => absurd rfl h⟩
      have hstay : (Format.binary64.targetExponent (totalExponent 0 e) - e).toNat = 0 := by
        change (max ((0 : Nat) + 1 + e - 53) (-1074) - e).toNat = 0
        omega
      simp only [shiftToTargetExponent, shiftToExponent, hstay]
      exact congrArg (Prod.mk _) (Int.add_zero e)
    · have hlog : r.log2 < 53 := (Nat.log2_lt hpos.ne').mpr hlt
      have hsettled : Settled r e := by
        by_cases he : e = -1074
        · rw [settled_iff]
          omega
        · have hlow := (Nat.le_log2 hpos.ne').mpr (hfew he)
          exact settled_of_log2 (by omega) hleast
      have hshift := shiftToTargetExponent_settled hsettled hpos.ne' 0
      rw [Nat.pow_zero, Nat.mul_one, Int.natCast_zero, Int.sub_zero] at hshift
      exact ⟨r, e, hshift, rfl, fun _ => hsettled⟩

/-- **Rounding a mantissa with its accuracy is rounding the number**, if the mantissa is fine
enough. -/
theorem exists_denotes_round {m : Nat} {e : Int} {accuracy : Accuracy} (h : Lies accuracy (x - m))
    (hfine : e ≤ Format.binary64.targetExponent (totalExponent m e)) :
    ∃ y, Rounded (x * 2 ^ e) y ∧
      Denotes (roundWithAccuracy Format.binary64 .positive m e accuracy) y := by
  obtain ⟨hlow, hhigh⟩ := h.bounds
  have hscale := scale_targetExponent (by linarith) (by linarith) hfine
  obtain ⟨k, hk⟩ := Int.le.dest hfine
  rw [← hk] at hscale
  have hshift : shiftToTargetExponent Format.binary64 m e accuracy
      = (ExtendedMantissa.ofMantissaAndAccuracy m accuracy >>> k, e + k) := by
    have hamount : (e + (k : Int) - e).toNat = k := by omega
    simp only [shiftToTargetExponent, shiftToExponent, ← hk, hamount]
  have hem := (standsFor_ofMantissaAndAccuracy.mpr h).shiftRight k
  have hquotient : x / 2 ^ k = x * 2 ^ e / 2 ^ (e + (k : Int)) := by
    rw [zpow_add₀ two_ne_zero, zpow_natCast, mul_comm x,
      mul_div_mul_left _ _ (zpow_pos two_pos e).ne']
  rw [hquotient] at hem
  obtain ⟨m', e', hagain, hvalue, hsettled⟩ := exists_shift_rounded (hscale.roundedMantissa_le hem)
    hscale.least fun he => hscale.le_roundedMantissa he hem
  refine ⟨_, ⟨_, _, hscale, hem, rfl⟩, ?_⟩
  rw [hvalue]
  simp only [roundWithAccuracy, hshift, hagain]
  split
  · rename_i hzero
    rw [hzero, Nat.cast_zero, zero_mul]
    exact .zero
  · rename_i hne
    exact .finite (hsettled hne)

theorem lies_accuracyOfFraction {num den : Nat} (h : num < den) :
    Lies (accuracyOfFraction num den) (num / den) := by
  have hden : (0 : ℚ) < den := Nat.cast_pos.mpr (Nat.zero_lt_of_lt h)
  rw [accuracyOfFraction]
  split
  · rename_i hzero
    rw [hzero, Nat.cast_zero]
    exact zero_div _
  · rename_i hne
    have hnum : (0 : ℚ) < num := Nat.cast_pos.mpr (Nat.pos_of_ne_zero hne)
    cases hcompare : compare (2 * num) den with
    | lt =>
      have hhalf : (2 : ℚ) * num < den := by exact_mod_cast compare_lt_iff_lt.mp hcompare
      refine ⟨div_pos hnum hden, ?_⟩
      rw [div_lt_iff₀ hden]
      linarith
    | eq =>
      have hhalf : (2 : ℚ) * num = den := by exact_mod_cast compare_eq_iff_eq.mp hcompare
      show (num : ℚ) / den = 1 / 2
      rw [div_eq_iff hden.ne']
      linarith
    | gt =>
      have hhalf : (den : ℚ) < 2 * num := by exact_mod_cast compare_gt_iff_gt.mp hcompare
      constructor
      · rw [lt_div_iff₀ hden]
        linarith
      · rw [div_lt_one hden]
        exact_mod_cast h

theorem le_targetExponent_divCore {m₁ m₂ k : Nat} {e t : Int} (hm₁ : 0 < m₁) (hm₂ : 0 < m₂)
    (ht : t ≤ Format.binary64.targetExponent (totalExponent m₁ e - totalExponent m₂ 0))
    (hk : e = t + k) :
    t ≤ Format.binary64.targetExponent (totalExponent (m₁ * 2 ^ k / m₂) t) := by
  change t ≤ max ((m₁.log2 : Int) + 1 + e - (m₂.log2 + 1 + 0) - 53) (-1074) at ht
  change t ≤ max (((m₁ * 2 ^ k / m₂).log2 : Int) + 1 + t - 53) (-1074)
  by_cases hleast : t ≤ -1074
  · exact hleast.trans (le_max_right _ _)
  · have hbits : m₂.log2 + 53 ≤ m₁.log2 + k := by omega
    have hlow : 2 ^ 52 ≤ m₁ * 2 ^ k / m₂ := by
      rw [Nat.le_div_iff_mul_le hm₂]
      calc 2 ^ 52 * m₂ ≤ 2 ^ 52 * 2 ^ (m₂.log2 + 1) :=
            Nat.mul_le_mul_left _ Nat.lt_log2_self.le
        _ = 2 ^ (m₂.log2 + 53) := by rw [← Nat.pow_add]; congr 1; omega
        _ ≤ 2 ^ (m₁.log2 + k) := Nat.pow_le_pow_right Nat.two_pos hbits
        _ = 2 ^ m₁.log2 * 2 ^ k := Nat.pow_add _ _ _
        _ ≤ m₁ * 2 ^ k := Nat.mul_le_mul_right _ (Nat.log2_self_le hm₁.ne')
    have hlog : 52 ≤ (m₁ * 2 ^ k / m₂).log2 :=
      (Nat.le_log2 (Nat.lt_of_lt_of_le (Nat.two_pow_pos 52) hlow).ne').mpr hlow
    omega

/-- **Dividing is rounding the quotient.** -/
theorem exists_denotes_div {u v : UnpackedFloat} (hu : Denotes u x) (hv : Denotes v y)
    (hy : 0 < y) :
    ∃ z, Rounded (x / y) z ∧ Denotes (UnpackedFloat.div Format.binary64 u v) z := by
  cases hv with
  | zero => exact absurd hy (lt_irrefl _)
  | @finite m₂ e₂ hm₂ _ =>
    cases hu with
    | zero =>
      rw [zero_div]
      exact ⟨0, rounded_zero, .zero⟩
    | @finite m₁ e₁ hm₁ _ =>
      simp only [UnpackedFloat.div, divCore, Nat.shiftLeft_eq]
      generalize ht : min (e₁ - e₂) (Format.binary64.targetExponent
        (totalExponent m₁ e₁ - totalExponent m₂ e₂)) = t
      obtain ⟨k, hk⟩ := Int.le.dest (ht ▸ min_le_left _ _ : t ≤ e₁ - e₂)
      have hamount : (e₁ - e₂ - t).toNat = k := by omega
      rw [hamount]
      have hlies := lies_accuracyOfFraction (Nat.mod_lt (m₁ * 2 ^ k) hm₂)
      have hpos : (0 : ℚ) < m₂ := Nat.cast_pos.mpr hm₂
      have hsplit : ((m₁ * 2 ^ k % m₂ : Nat) : ℚ) / m₂
          = (m₁ * 2 ^ k / m₂ : ℚ) - (m₁ * 2 ^ k / m₂ : Nat) := by
        rw [eq_sub_iff_add_eq, div_add' _ _ _ hpos.ne', div_left_inj' hpos.ne']
        exact_mod_cast Nat.mod_add_div' (m₁ * 2 ^ k) m₂
      have hvalue : (m₁ * 2 ^ k / m₂ : ℚ) * 2 ^ t = m₁ * 2 ^ e₁ / (m₂ * 2 ^ e₂) := by
        rw [div_mul_eq_mul_div, div_eq_div_iff hpos.ne' (mul_pos hpos (zpow_pos two_pos e₂)).ne',
          show e₁ = t + k + e₂ by omega, zpow_add₀ two_ne_zero, zpow_add₀ two_ne_zero, zpow_natCast]
        ring
      rw [hsplit] at hlies
      rw [← hvalue]
      refine exists_denotes_round hlies (le_targetExponent_divCore hm₁ hm₂ ?_ hk.symm)
      have hshare : totalExponent m₁ (e₁ - e₂) - totalExponent m₂ 0
          = totalExponent m₁ e₁ - totalExponent m₂ e₂ := by
        rw [totalExponent, totalExponent, totalExponent, totalExponent]
        omega
      rw [hshare, ← ht]
      exact min_le_right _ _

end TrafficReplay.Binary64
