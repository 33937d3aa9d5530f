/-
# Reading written numbers back

A number that is written in decimal, with a sign in front of it only where it is negative, is read
as the number that it is; so are all timestamps, the least and the greatest one included
(`Decimal.timestamp?_written`).
-/
import TrafficReplay.Decimal.Signed
import TrafficReplay.Proofs.Text.Utf8

namespace TrafficReplay.Decimal

/-- The number in decimal, without leading zeros and with a sign only if it is negative. -/
def written (n : Int) : Bytes :=
  Utf8.encode (toString n)

def digitBytes (n : Nat) : Bytes :=
  (Nat.toDigits 10 n).map fun c => UInt8.ofNat c.toNat

section Digits

variable {c : Char}

theorem toNat_ofNat_of_isDigit (h : c.isDigit = true) :
    (UInt8.ofNat c.toNat).toNat = c.toNat ∧ 48 ≤ c.toNat ∧ c.toNat ≤ 57 := by
  rw [Char.isDigit, Bool.and_eq_true, decide_eq_true_eq, decide_eq_true_eq] at h
  have hlow : 48 ≤ c.toNat := UInt32.le_iff_toNat_le.mp h.1
  have hhigh : c.toNat ≤ 57 := UInt32.le_iff_toNat_le.mp h.2
  exact ⟨UInt8.toNat_ofNat_of_lt' (show c.toNat < 256 by omega), hlow, hhigh⟩

theorem isDigit_of_mem_digitBytes {n : Nat} {b : UInt8} (h : b ∈ digitBytes n) :
    isDigit b = true := by
  obtain ⟨c, hc, rfl⟩ := List.mem_map.mp h
  obtain ⟨hbyte, hlow, hhigh⟩ :=
    toNat_ofNat_of_isDigit (Nat.isDigit_of_mem_toDigits (by decide) (by decide) hc)
  rw [isDigit, Bool.and_eq_true, decide_eq_true_eq, decide_eq_true_eq, UInt8.le_iff_toNat_le,
    UInt8.le_iff_toNat_le, hbyte]
  exact ⟨hlow, hhigh⟩

end Digits

theorem digitBytes_ne_nil (n : Nat) : digitBytes n ≠ [] := by
  rw [digitBytes, Ne, List.map_eq_nil_iff]
  exact Nat.toDigits_ne_nil

theorem flatMap_toDigits (n : Nat) :
    (Nat.toDigits 10 n).flatMap String.utf8EncodeChar = digitBytes n := by
  refine Utf8.flatMap_utf8EncodeChar_of_ascii fun c hc => ?_
  have hdigit := toNat_ofNat_of_isDigit (Nat.isDigit_of_mem_toDigits (by decide) (by decide) hc)
  omega

theorem written_ofNat (n : Nat) : written (Int.ofNat n) = digitBytes n := by
  have hchars : (toString (Int.ofNat n)).toList = Nat.toDigits 10 n := String.toList_ofList
  rw [written, Utf8.encode, hchars, flatMap_toDigits]

theorem written_negSucc (n : Nat) : written (Int.negSucc n) = 0x2D :: digitBytes (n + 1) := by
  have hchars : (toString (Int.negSucc n)).toList = '-' :: Nat.toDigits 10 (n + 1) := by
    show ("-" ++ Nat.repr (n + 1)).toList = _
    rw [String.toList_append]
    exact congrArg ('-' :: ·) String.toList_ofList
  rw [written, Utf8.encode, hchars, List.flatMap_cons, flatMap_toDigits]
  rfl

theorem foldl_digits {chars : List Char} (h : ∀ c ∈ chars, c.isDigit = true) (value : Nat) :
    (chars.map fun c => UInt8.ofNat c.toNat).foldl
        (fun value b => 10 * value + (b.toNat - 0x30)) value
      = Nat.ofDigitChars 10 chars value := by
  induction chars generalizing value with
  | nil => rfl
  | cons c chars ih =>
    have hc := (toNat_ofNat_of_isDigit (h c List.mem_cons_self)).1
    rw [List.map_cons, List.foldl_cons, hc, Nat.ofDigitChars_cons]
    exact ih (fun d hd => h d (List.mem_cons_of_mem c hd)) _

theorem valueOf_digitBytes (n : Nat) : valueOf (digitBytes n) = n := by
  rw [valueOf, digitBytes, foldl_digits fun c hc =>
    Nat.isDigit_of_mem_toDigits (by decide) (by decide) hc]
  exact Nat.ofDigitChars_ten_toDigits

theorem natural?_digitBytes (n : Nat) : natural? (digitBytes n) = some n := by
  have hdigits : digitBytes n ≠ [] ∧ (digitBytes n).all isDigit = true :=
    ⟨digitBytes_ne_nil n, List.all_eq_true.mpr fun _ hb => isDigit_of_mem_digitBytes hb⟩
  rw [natural?, if_pos hdigits, valueOf_digitBytes]

theorem integer?_written (n : Int) : integer? (written n) = some n := by
  cases n with
  | negSucc n => rw [written_negSucc, integer?, natural?_digitBytes]; rfl
  | ofNat n =>
    rw [written_ofNat]
    -- the first byte is a digit, which is no sign
    have hplus : ∀ digits, digitBytes n ≠ 0x2B :: digits := by
      intro digits h
      have hdigit : isDigit 0x2B = true :=
        isDigit_of_mem_digitBytes (h ▸ List.mem_cons_self : 0x2B ∈ digitBytes n)
      exact absurd hdigit (by decide)
    have hminus : ∀ digits, digitBytes n ≠ 0x2D :: digits := by
      intro digits h
      have hdigit : isDigit 0x2D = true :=
        isDigit_of_mem_digitBytes (h ▸ List.mem_cons_self : 0x2D ∈ digitBytes n)
      exact absurd hdigit (by decide)
    rw [integer?.eq_3 _ hplus hminus, natural?_digitBytes]
    rfl

/-- **A written timestamp is read as the number that it is.** -/
theorem timestamp?_written {n : Int} (hmin : minTimestamp ≤ n) (hmax : n ≤ maxTimestamp) :
    timestamp? (written n) = some n := by
  rw [timestamp?, integer?_written, Option.filter_some, if_pos (by simpa using ⟨hmin, hmax⟩)]

theorem mem_written {n : Int} {b : UInt8} (h : b ∈ written n) : b = 0x2D ∨ isDigit b = true := by
  cases n with
  | ofNat n =>
    rw [written_ofNat] at h
    exact .inr (isDigit_of_mem_digitBytes h)
  | negSucc n =>
    rw [written_negSucc] at h
    rcases List.mem_cons.mp h with rfl | h
    · exact .inl rfl
    · exact .inr (isDigit_of_mem_digitBytes h)

theorem written_ne_nil (n : Int) : written n ≠ [] := by
  cases n with
  | ofNat n => rw [written_ofNat]; exact digitBytes_ne_nil n
  | negSucc n => rw [written_negSucc]; exact List.cons_ne_nil _ _

end TrafficReplay.Decimal
