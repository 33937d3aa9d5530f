/-
# Which texts are numbers

`Decimal.Numeral` is the grammar of whole numbers in captures, told without the reader: a sign that
may be missing, and then one or more digits, which count by their places. `Decimal.integer?` reads
these texts and no others (`Decimal.integer?_eq_some_iff`), and a timestamp is such a number that 64
bits with a sign can hold (`Decimal.timestamp?_eq_some_iff`).
-/
import Mathlib
import TrafficReplay.Decimal.Signed

namespace TrafficReplay.Decimal

def digitValue (b : UInt8) : Nat :=
  b.toNat - 0x30

/-- The number that digits write by their places: the last one counts ones, the one in front of it
tens, and so on. -/
def placeValue (digits : Bytes) : Nat :=
  Nat.ofDigits 10 (digits.map digitValue).reverse

/-- One or more digits and nothing else. -/
structure IsDigits (text : Bytes) : Prop where
  ne_nil : text ≠ []
  isDigit : ∀ b ∈ text, isDigit b = true

/-- The text writes the number: digits, which may begin with zeros, with `+`, `-` or no sign in
front. -/
inductive Numeral : Bytes → Int → Prop
  | unsigned {digits : Bytes} : IsDigits digits → Numeral digits (placeValue digits)
  | plus {digits : Bytes} : IsDigits digits → Numeral (0x2B :: digits) (placeValue digits)
  | minus {digits : Bytes} : IsDigits digits → Numeral (0x2D :: digits) (-placeValue digits)

theorem placeValue_cons (b : UInt8) (digits : Bytes) :
    placeValue (b :: digits) = placeValue digits + 10 ^ digits.length * digitValue b := by
  rw [placeValue, List.map_cons, List.reverse_cons, Nat.ofDigits_append, Nat.ofDigits_singleton,
    List.length_reverse, List.length_map, placeValue]

theorem foldl_eq_placeValue (digits : Bytes) (value : Nat) :
    digits.foldl (fun value b => 10 * value + (b.toNat - 0x30)) value
      = 10 ^ digits.length * value + placeValue digits := by
  induction digits generalizing value with
  | nil => simp [placeValue]
  | cons b digits ih =>
    rw [List.foldl_cons, ih, placeValue_cons, List.length_cons, pow_succ, digitValue]
    ring

theorem valueOf_eq_placeValue (digits : Bytes) : valueOf digits = placeValue digits := by
  rw [valueOf, foldl_eq_placeValue, Nat.mul_zero, Nat.zero_add]

theorem natural?_eq_some_iff {text : Bytes} {n : Nat} :
    natural? text = some n ↔ IsDigits text ∧ placeValue text = n := by
  rw [natural?, ← valueOf_eq_placeValue]
  constructor
  · intro h
    split at h
    · next hdigits => exact ⟨⟨hdigits.1, List.all_eq_true.mp hdigits.2⟩, Option.some.inj h⟩
    · cases h
  · rintro ⟨hdigits, rfl⟩
    exact if_pos ⟨hdigits.ne_nil, List.all_eq_true.mpr hdigits.isDigit⟩

theorem not_isDigits_cons {b : UInt8} (hb : isDigit b = false) (digits : Bytes) :
    ¬IsDigits (b :: digits) := by
  intro h
  rw [h.isDigit b List.mem_cons_self] at hb
  cases hb

/-- **The texts that are read as numbers are the numerals.** -/
theorem integer?_eq_some_iff {text : Bytes} {n : Int} :
    integer? text = some n ↔ Numeral text n := by
  constructor
  · intro h
    rw [integer?.eq_def] at h
    split at h <;> obtain ⟨value, hvalue, rfl⟩ := Option.map_eq_some_iff.mp h
    all_goals obtain ⟨hdigits, rfl⟩ := natural?_eq_some_iff.mp hvalue
    · exact .plus hdigits
    · exact .minus hdigits
    · exact .unsigned hdigits
  · intro h
    cases h with
    | plus hdigits =>
      rw [integer?, natural?_eq_some_iff.mpr ⟨hdigits, rfl⟩]
      rfl
    | minus hdigits =>
      rw [integer?, natural?_eq_some_iff.mpr ⟨hdigits, rfl⟩]
      rfl
    | unsigned hdigits =>
      have hplus : ∀ digits, text ≠ 0x2B :: digits := by
        rintro digits rfl
        exact not_isDigits_cons (by decide) digits hdigits
      have hminus : ∀ digits, text ≠ 0x2D :: digits := by
        rintro digits rfl
        exact not_isDigits_cons (by decide) digits hdigits
      rw [integer?.eq_3 _ hplus hminus, natural?_eq_some_iff.mpr ⟨hdigits, rfl⟩]
      rfl

/-- **The texts that are read as timestamps are the numerals of 64 bits with a sign.** -/
theorem timestamp?_eq_some_iff {text : Bytes} {n : Int} :
    timestamp? text = some n ↔ Numeral text n ∧ -2 ^ 63 ≤ n ∧ n ≤ 2 ^ 63 - 1 := by
  have hmin : minTimestamp = -2 ^ 63 := by decide
  have hmax : maxTimestamp = 2 ^ 63 - 1 := by decide
  rw [timestamp?, Option.filter_eq_some_iff, integer?_eq_some_iff, decide_eq_true_iff, hmin, hmax]

end TrafficReplay.Decimal
