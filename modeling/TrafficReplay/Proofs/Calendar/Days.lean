/-
# Days of the Gregorian calendar

The calendar as it is told: which years are leap years, how long the months are, and that days are
counted on from one to the next (`dayNumber`). `Date.ofDays` counts in eras of 400 years that start
with a March, and finds the year by a division. That year is right on the first and on the last day
of each year, and it never goes back, so it is right on all days (`firstDayOfYear_yearOfEra_le`,
`lt_firstDayOfYear_succ`). So the date of a day exists, and it is the date of that day and no other
(`Date.ofDays_spec`).
-/
import Mathlib
import TrafficReplay.Calendar

namespace TrafficReplay.Calendar

/-- Every fourth year is a leap year; of full centuries, only every fourth is. -/
def isLeap (year : Nat) : Bool :=
  year % 4 = 0 && (year % 100 ≠ 0 || year % 400 = 0)

def daysOfYear (year : Nat) : Nat :=
  if isLeap year then 366 else 365

/-- The number of days in a month of a year, the months being counted from one. -/
def daysOfMonth (leap : Bool) : Nat → Nat
  | 2 => if leap then 29 else 28
  | 4 | 6 | 9 | 11 => 30
  | _ => 31

/-- The number of days in all years from zero on that come before this one. -/
def daysBeforeYear : Nat → Nat
  | 0 => 0
  | year + 1 => daysBeforeYear year + daysOfYear year

/-- The number of days in all months of a year that come before this one. -/
def daysBeforeMonth (leap : Bool) : Nat → Nat
  | 0 | 1 => 0
  | month + 1 => daysBeforeMonth leap month + daysOfMonth leap month

/-- The number of a day, counted on from the first one of 1970. -/
def dayNumber (year month day : Nat) : Int :=
  (daysBeforeYear year + daysBeforeMonth (isLeap year) month + (day - 1) : Nat) -
    daysBeforeYear 1970

/-- The calendar has such a day. -/
structure IsDate (year month day : Nat) : Prop where
  one_le_month : 1 ≤ month
  month_le : month ≤ 12
  one_le_day : 1 ≤ day
  day_le : day ≤ daysOfMonth (isLeap year) month

instance (year month day : Nat) : Decidable (IsDate year month day) :=
  decidable_of_iff (1 ≤ month ∧ month ≤ 12 ∧ 1 ≤ day ∧ day ≤ daysOfMonth (isLeap year) month)
    ⟨fun h => ⟨h.1, h.2.1, h.2.2.1, h.2.2.2⟩, fun h => ⟨h.1, h.2, h.3, h.4⟩⟩

/-! ## Years -/

/-- The days from the first of March of the year zero to the first of March of another. -/
def daysBeforeMarch (year : Nat) : Nat :=
  365 * year + year / 4 - year / 100 + year / 400

/-- From one March to the next, the day that a leap year adds is that of the later year. -/
theorem daysBeforeMarch_succ (year : Nat) :
    daysBeforeMarch (year + 1) = daysBeforeMarch year + daysOfYear (year + 1) := by
  have hdiv : ∀ n, (year + 1) / n = year / n + if (year + 1) % n = 0 then 1 else 0 := by
    intro n
    rw [Nat.succ_div]
    exact congrArg _ (if_congr Nat.dvd_iff_mod_eq_zero rfl rfl)
  have hfour : (year + 1) % 100 = 0 → (year + 1) % 4 = 0 := by omega
  have hcentury : (year + 1) % 400 = 0 → (year + 1) % 100 = 0 := by omega
  have hle : year / 100 ≤ year := Nat.div_le_self year 100
  rw [daysOfYear, isLeap, daysBeforeMarch, daysBeforeMarch, hdiv 4, hdiv 100, hdiv 400]
  by_cases h400 : (year + 1) % 400 = 0
  · simp only [h400, hcentury h400, hfour (hcentury h400), decide_true, Bool.or_true, Bool.and_true,
      if_true]
    omega
  · by_cases h100 : (year + 1) % 100 = 0
    · simp only [h400, h100, hfour h100, ne_eq, not_true, decide_true, decide_false, Bool.or_self,
        Bool.and_false, Bool.false_eq_true, if_true, if_false]
      omega
    · by_cases h4 : (year + 1) % 4 = 0
      · simp only [h400, h100, h4, ne_eq, not_false_iff, decide_true, Bool.true_or, Bool.and_true,
          if_true, if_false]
        omega
      · simp only [h400, h100, h4, decide_false, Bool.false_and, Bool.false_eq_true, if_false]
        omega

theorem daysBeforeYear_succ (year : Nat) :
    daysBeforeYear (year + 1) = daysBeforeMarch year + 366 := by
  induction year with
  | zero => rfl
  | succ year ih =>
    rw [daysBeforeYear, ih, daysBeforeMarch_succ]
    omega

theorem daysBeforeYear_1970 : daysBeforeYear 1970 = 719528 :=
  daysBeforeYear_succ 1969

theorem le_daysBeforeYear (year : Nat) : 365 * year ≤ daysBeforeYear year := by
  induction year with
  | zero => exact Nat.le_refl 0
  | succ year ih =>
    have hyear : 365 ≤ daysOfYear year := by
      rw [daysOfYear]
      split <;> decide
    rw [daysBeforeYear]
    omega

/-! ## Years of an era -/

theorem yearOfEra_mono : Monotone yearOfEra := by
  refine monotone_nat_of_le_succ fun day => ?_
  rw [yearOfEra, yearOfEra]
  refine Nat.div_le_div_right ?_
  omega

theorem yearOfEra_first : ∀ year < 400, yearOfEra (firstDayOfYear year) = year := by
  decide +kernel

theorem yearOfEra_last : ∀ year < 400, yearOfEra (firstDayOfYear (year + 1) - 1) = year := by
  decide +kernel

theorem firstDayOfYear_yearOfEra_le {day : Nat} (h : day < 146097) :
    firstDayOfYear (yearOfEra day) ≤ day := by
  have hyear : yearOfEra day < 400 := by
    rw [yearOfEra]
    omega
  by_contra hlt
  -- then the day is in an earlier year
  obtain ⟨year, hsucc⟩ : ∃ year, yearOfEra day = year + 1 := by
    refine Nat.exists_eq_succ_of_ne_zero fun hzero => hlt ?_
    rw [hzero]
    exact Nat.zero_le day
  have hlast : day ≤ firstDayOfYear (year + 1) - 1 := by
    rw [hsucc] at hlt
    omega
  have hmono := yearOfEra_mono hlast
  rw [yearOfEra_last year (by omega), hsucc] at hmono
  omega

theorem lt_firstDayOfYear_succ {day : Nat} (h : yearOfEra day < 399) :
    day < firstDayOfYear (yearOfEra day + 1) := by
  by_contra hle
  have hmono := yearOfEra_mono (Nat.not_lt.mp hle)
  rw [yearOfEra_first _ (by omega)] at hmono
  omega

theorem daysBeforeMarch_of_era {year : Nat} (era : Nat) (h : year < 400) :
    daysBeforeMarch (era * 400 + year) = era * 146097 + firstDayOfYear year := by
  rw [daysBeforeMarch, firstDayOfYear]
  omega

theorem daysBeforeMarch_next_era (era : Nat) :
    daysBeforeMarch (era * 400 + 399 + 1) = era * 146097 + 146097 := by
  rw [daysBeforeMarch]
  omega

theorem marchYear_of_era {day : Nat} (era : Nat) (h : day < 146097) :
    daysBeforeMarch (era * 400 + yearOfEra day) ≤ era * 146097 + day ∧
      era * 146097 + day < daysBeforeMarch (era * 400 + yearOfEra day + 1) := by
  have hyear : yearOfEra day < 400 := by
    rw [yearOfEra]
    omega
  constructor
  · rw [daysBeforeMarch_of_era era hyear]
    exact Nat.add_le_add_left (firstDayOfYear_yearOfEra_le h) _
  · rcases Nat.lt_or_ge (yearOfEra day) 399 with hless | hlast
    · rw [Nat.add_assoc, daysBeforeMarch_of_era era (by omega)]
      exact Nat.add_lt_add_left (lt_firstDayOfYear_succ hless) _
    · have heq : yearOfEra day = 399 := by omega
      rw [heq, daysBeforeMarch_next_era]
      exact Nat.add_lt_add_left h _

theorem exists_marchYear {day : Int} (h : 0 ≤ day + daysBefore1970) :
    ∃ year dayOfYear : Nat,
      (day + daysBefore1970) / daysPerEra * 400 +
        yearOfEra ((day + daysBefore1970) % daysPerEra).toNat
        = year ∧
      ((day + daysBefore1970) % daysPerEra).toNat
        - firstDayOfYear (yearOfEra ((day + daysBefore1970) % daysPerEra).toNat) = dayOfYear ∧
      day + daysBefore1970 = daysBeforeMarch year + dayOfYear ∧
      dayOfYear < daysOfYear (year + 1) := by
  obtain ⟨shifted, hshifted⟩ := Int.eq_ofNat_of_zero_le h
  have hera : (day + daysBefore1970) / daysPerEra = (shifted / 146097 : Nat) := by
    rw [hshifted]
    rfl
  have hday : ((day + daysBefore1970) % daysPerEra).toNat = shifted % 146097 := by
    rw [hshifted]
    rfl
  have hlt : shifted % 146097 < 146097 := Nat.mod_lt shifted (by decide)
  have hsum : shifted / 146097 * 146097 + shifted % 146097 = shifted :=
    Nat.div_add_mod' shifted 146097
  obtain ⟨hfirst, hnext⟩ := marchYear_of_era (shifted / 146097) hlt
  rw [daysBeforeMarch_succ] at hnext
  have hyear : yearOfEra (shifted % 146097) < 400 := by
    rw [yearOfEra]
    omega
  have hmarch := daysBeforeMarch_of_era (shifted / 146097) hyear
  rw [hera, hday, hshifted]
  refine ⟨shifted / 146097 * 400 + yearOfEra (shifted % 146097), _, by push_cast; rfl, rfl, ?_, ?_⟩
  · omega
  · omega

/-! ## Months -/

theorem month_from_march :
    ∀ leap : Bool, ∀ dayOfYear < 306,
      monthOfYear dayOfYear < 10 ∧
      1 ≤ monthOfYear dayOfYear + 3 ∧ monthOfYear dayOfYear + 3 ≤ 12 ∧
      dayOfYear - firstDayOfMonth (monthOfYear dayOfYear) + 1
        ≤ daysOfMonth leap (monthOfYear dayOfYear + 3) ∧
      daysBeforeMonth leap (monthOfYear dayOfYear + 3)
          + (dayOfYear - firstDayOfMonth (monthOfYear dayOfYear))
        = (if leap then 60 else 59) + dayOfYear := by
  decide +kernel

theorem month_before_march :
    ∀ leap : Bool, ∀ dayOfYear < (if leap then 366 else 365), 306 ≤ dayOfYear →
      ¬ monthOfYear dayOfYear < 10 ∧
      1 ≤ monthOfYear dayOfYear - 9 ∧ monthOfYear dayOfYear - 9 ≤ 2 ∧
      dayOfYear - firstDayOfMonth (monthOfYear dayOfYear) + 1
        ≤ daysOfMonth leap (monthOfYear dayOfYear - 9) ∧
      daysBeforeMonth leap (monthOfYear dayOfYear - 9)
          + (dayOfYear - firstDayOfMonth (monthOfYear dayOfYear))
        = dayOfYear - 306 := by
  decide +kernel

/-- **The date of a day** is a date of the calendar, and the one of that day, from March of the year
zero on. -/
theorem Date.ofDays_spec {day : Int} (h : 0 ≤ day + daysBefore1970) :
    ∃ year : Nat, (Date.ofDays day).year = year ∧
      IsDate year (Date.ofDays day).month (Date.ofDays day).day ∧
      dayNumber year (Date.ofDays day).month (Date.ofDays day).day = day := by
  obtain ⟨year, dayOfYear, hyear, hdayOfYear, hsum, hlt⟩ := exists_marchYear h
  have hsucc := daysBeforeYear_succ year
  rw [daysBefore1970] at hsum
  simp only [Date.ofDays, hyear, hdayOfYear]
  rcases Nat.lt_or_ge dayOfYear 306 with hearly | hlate
  · obtain ⟨hmonth, hone, hmost, hday, hcount⟩ := month_from_march (isLeap year) dayOfYear hearly
    have hsecond : ¬ monthOfYear dayOfYear + 3 ≤ 2 := by omega
    simp only [if_pos hmonth, if_neg hsecond]
    refine ⟨year, rfl, ⟨hone, hmost, Nat.le_add_left _ _, hday⟩, ?_⟩
    have hlength : daysOfYear year = (if isLeap year then 60 else 59) + 306 := by
      rw [daysOfYear]
      split <;> rfl
    rw [daysBeforeYear, hlength] at hsucc
    rw [dayNumber, daysBeforeYear_1970, Nat.add_sub_cancel]
    omega
  · obtain ⟨hmonth, hone, hmost, hday, hcount⟩ :=
      month_before_march (isLeap (year + 1)) dayOfYear hlt hlate
    simp only [if_neg hmonth, if_pos hmost]
    refine ⟨year + 1, by push_cast; rfl, ⟨hone, by omega, Nat.le_add_left _ _, hday⟩, ?_⟩
    rw [dayNumber, daysBeforeYear_1970, Nat.add_sub_cancel]
    omega

end TrafficReplay.Calendar
